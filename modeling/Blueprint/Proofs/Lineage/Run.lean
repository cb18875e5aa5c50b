import Blueprint.Proofs.Lineage.Merge
import Blueprint.Proofs.Registry.Declare

/-!
# Runs

`Lineage.run` answers requests one after the other, each of them at some level of a lineage that
was founded without any names. A request is a change of the names of one registry (`Change`), or
writes what else is in it (`Upkeep`), or merges definitions.

Every change keeps the tables sound (`Change.sound_run`) and every other request leaves them alone
(`Request.map_standing_run`), so all registries of a run are sound, and the walk to a canonical
name is never cut off (`sound_and_canonical_of_mem_run`).
-/

namespace Blueprint

/-! ## Changes of the names -/

/-- A change of the names of one registry. -/
inductive Change where
  | register (name : String) (definition : Definition)
  | declare (declaration : Declaration)
  | remove (name : String)
  | registerAlias (name aliasName : String)
  | removeAlias (aliasName : String)
  | clear

/-- The registry after a change, whether or not it was refused. -/
def Change.run : Change → Registry → Registry
  | .register name d, r => (r.register name d).value.2
  | .declare d, r => (r.declare d).value.2
  | .remove name, r => (r.remove name).value.2
  | .registerAlias name aliasName, r => (r.registerAlias name aliasName).value.2
  | .removeAlias aliasName, r => (r.removeAlias aliasName).2
  | .clear, r => r.clear.value

/-- `remove` takes a definition away and disconnects its name, or refuses and leaves the registry.
The aliases stay. -/
theorem Registry.value_remove (r : Registry) (name : String) :
    (r.remove name).value = match r.names.definitions.get? name with
      | none => (.error (.notFound name), r)
      | some d => (.ok d,
        { r.withNames { r.names with definitions := r.names.definitions.erase name } with
          tracker := r.tracker.disconnect name }) := by
  rw [remove]
  cases r.names.definitions.get? name <;> rfl

/-- A single alias is a list of one. -/
theorem Registry.registerAlias_eq_registerAliases (r : Registry) (name aliasName : String) :
    (r.registerAlias name aliasName).value.2 =
      (r.registerAliases name [aliasName]).value.2 := by
  rw [value_registerAlias, value_registerAliases]
  cases (r.names.pointAlias r.policy name aliasName).value with
  | error e => rfl
  | ok names => cases names <;> rfl

/-- Every change keeps the tables sound, whether or not it is accepted. -/
theorem Change.sound_run (c : Change) {r : Registry} (hr : r.names.Sound) :
    (c.run r).names.Sound := by
  cases c with
  | register name d =>
    rw [run, Registry.value_register]
    cases h : (r.names.define r.policy name d).value with
    | error e => exact hr
    | ok names => exact hr.define h
  | declare d => exact Registry.sound_declare hr d
  | remove name =>
    rw [run, Registry.value_remove]
    cases r.names.definitions.get? name with
    | none => exact hr
    | some d => exact hr.eraseDefinition name
  | registerAlias name aliasName =>
    rw [run, Registry.registerAlias_eq_registerAliases]
    exact Registry.sound_registerAliases hr name [aliasName]
  | removeAlias aliasName =>
    rw [run, Registry.removeAlias]
    split
    · exact hr.eraseAlias aliasName
    · exact hr
  | clear => exact Names.sound_empty

/-- What a registry has that no change of its names touches. -/
def Registry.setup (r : Registry) : Policy × Scopes × Nat := (r.policy, r.scopes, r.depth)

theorem Registry.setup_registerAliases (r : Registry) (name : String) (aliases : List String) :
    (r.registerAliases name aliases).value.2.setup = r.setup :=
  registerAliases_induction (P := fun s => s.setup = r.setup) (fun _ _ _ _ h _ => h) rfl

/-- A change of the names leaves the policy, the scopes and the depth of the registry alone. -/
theorem Change.setup_run (c : Change) (r : Registry) : (c.run r).setup = r.setup := by
  cases c with
  | register name d =>
    rw [run, Registry.value_register]
    split <;> rfl
  | declare d =>
    rw [run, Registry.value_declare]
    cases (r.names.define r.policy d.name d.definition).value with
    | error e => rfl
    | ok names =>
      have h := (r.withNames names).setup_registerAliases d.name d.aliases
      dsimp only
      rcases hv : ((r.withNames names).registerAliases d.name d.aliases).value with ⟨_ | _, s⟩ <;>
        rw [hv] at h <;> exact h
  | remove name =>
    rw [run, Registry.value_remove]
    split <;> rfl
  | registerAlias name aliasName =>
    rw [run, Registry.registerAlias_eq_registerAliases]
    exact r.setup_registerAliases name [aliasName]
  | removeAlias aliasName =>
    rw [run, Registry.removeAlias]
    split <;> rfl
  | clear => rfl

/-! ## Requests -/

/-- What is written to a registry beside its names. -/
inductive Upkeep where
  | registerScope (scope : String)
  | connect (dependent dependency : String)
  | mark (name : String)
  | unmark (name : String)
  | begin (name : String)
  | release (guard : CreationGuard)

/-- The registry after it, whether or not it was refused. -/
def Upkeep.run : Upkeep → Registry → Registry
  | .registerScope scope, r => (r.registerScope scope).value.2
  | .connect dependent dependency, r => (r.connect dependent dependency).value.2
  | .mark name, r => (r.mark name).value.2
  | .unmark name, r => (r.unmark name).2
  | .begin name, r => (r.begin name).value.2
  | .release guard, r => r.release guard

/-- Only the scopes and the tracker are written, and the scopes whatever the tracker holds. -/
theorem Upkeep.exists_run_eq (u : Upkeep) (r : Registry) :
    ∃ scopes, ∀ memory tracker, ∃ tracker',
      u.run { r with memory, tracker } = { r with scopes, memory, tracker := tracker' } := by
  cases u with
  | registerScope scope =>
    cases h : (r.scopes.register scope).value with
    | error e =>
      refine ⟨r.scopes, fun memory tracker => ⟨tracker, ?_⟩⟩
      simp [run, Registry.registerScope, h]
    | ok scopes =>
      refine ⟨scopes, fun memory tracker => ⟨tracker, ?_⟩⟩
      simp [run, Registry.registerScope, h]
  | connect dependent dependency => exact ⟨r.scopes, fun _ _ => ⟨_, rfl⟩⟩
  | mark name =>
    refine ⟨r.scopes, fun memory tracker => ?_⟩
    simp only [run, Registry.mark, Traced.value_bind]
    cases (tracker.mark (r.names.denoted name)).value <;> exact ⟨_, rfl⟩
  | unmark name => exact ⟨r.scopes, fun _ _ => ⟨_, rfl⟩⟩
  | begin name =>
    refine ⟨r.scopes, fun memory tracker => ?_⟩
    simp only [run, Registry.begin, Traced.value_bind]
    cases (tracker.begin (r.names.denoted name)).value <;> exact ⟨_, rfl⟩
  | release guard => exact ⟨r.scopes, fun _ _ => ⟨_, rfl⟩⟩

/-- What can be asked of a registry with its ancestors. -/
inductive Request where
  | change (c : Change)
  | upkeep (u : Upkeep)
  | merge (name : String)
  | teardown

/-- The lineage after a request to its nearest registry. -/
def Request.run : Request → Lineage → Lineage
  | .change c, l => l.modifyHead c.run
  | .upkeep u, l => l.modifyHead u.run
  | .merge name, l => (l.merge name).value.2
  | .teardown, l => l.teardown.value.2

namespace Lineage

/-- Registries without names, each of them the child of the next. -/
def founded : List Policy → Lineage
  | [] => []
  | policy :: ancestors =>
    match founded ancestors with
    | [] => [(Registry.root policy).value]
    | parent :: others => (parent.child policy).value :: parent :: others

/-- An operation on the registry at a level and its ancestors. The nearest registry has level
zero. -/
def onLevel (l : Lineage) (level : Nat) (operation : Lineage → Lineage) : Lineage :=
  l.take level ++ operation (l.drop level)

/-- The lineage after requests at given levels, one after the other. -/
def run (l : Lineage) (requests : List (Nat × Request)) : Lineage :=
  requests.foldl (fun l q => l.onLevel q.1 q.2.run) l

@[simp] theorem run_nil (l : Lineage) : l.run [] = l := rfl

theorem run_cons (l : Lineage) (q : Nat × Request) (requests : List (Nat × Request)) :
    l.run (q :: requests) = (l.onLevel q.1 q.2.run).run requests := rfl

theorem run_append (l : Lineage) (requests more : List (Nat × Request)) :
    l.run (requests ++ more) = (l.run requests).run more := List.foldl_append

end Lineage

/-- The tables with all that decides what a change does to them, and the count of the changes. -/
def Registry.standing (r : Registry) : Names × Policy × UInt64 := (r.names, r.policy, r.revision)

/-- What stays apart from the memories and trackers keeps the tables and the count of the changes.
-/
theorem map_standing_of_map_bare {l l' : Lineage} (h : l'.map Registry.bare = l.map Registry.bare) :
    l'.map Registry.standing = l.map Registry.standing := by
  have through : ∀ l : Lineage,
      l.map Registry.standing = (l.map Registry.bare).map Registry.standing := by
    intro l
    rw [List.map_map]
    rfl
  rw [through, h, ← through]

/-- A request that is no change leaves the tables of all registries alone. -/
theorem Request.map_standing_run {q : Request} (hq : ∀ c, q ≠ .change c) (l : Lineage) :
    (q.run l).map Registry.standing = l.map Registry.standing := by
  cases q with
  | change c => exact absurd rfl (hq c)
  | upkeep u =>
    cases l with
    | nil => rfl
    | cons r ancestors =>
      obtain ⟨scopes, h⟩ := u.exists_run_eq r
      obtain ⟨tracker, h⟩ := h r.memory r.tracker
      have hr : (u.run r).standing = r.standing := by rw [h]; rfl
      simp [run, hr]
  | merge name => exact map_standing_of_map_bare (Lineage.map_bare_merge l name)
  | teardown => exact map_standing_of_map_bare (Lineage.map_bare_teardown l)

/-! ## Soundness along a run -/

namespace Lineage

/-- What holds of every registry of a lineage and is kept by the requests holds after them. -/
theorem forall_mem_run {P : Registry → Prop} : ∀ {requests : List (Nat × Request)} {l : Lineage},
    (∀ q ∈ requests, ∀ l : Lineage, (∀ r ∈ l, P r) → ∀ r ∈ q.2.run l, P r) → (∀ r ∈ l, P r) →
      ∀ r ∈ l.run requests, P r
  | [], _, _, hl => hl
  | q :: requests, l, hq, hl => by
    rw [run_cons]
    refine forall_mem_run (fun q' hq' => hq q' (List.mem_cons_of_mem q hq')) fun r hr => ?_
    rcases List.mem_append.mp hr with hr | hr
    · exact hl r (List.mem_of_mem_take hr)
    · exact hq q List.mem_cons_self _ (fun s hs => hl s (List.mem_of_mem_drop hs)) r hr

/-- The registries of a new lineage hold nothing. -/
theorem exists_eq_of_mem_founded : ∀ {policies : List Policy}, ∀ r ∈ founded policies,
    ∃ policy depth, r = { policy, depth }
  | [], r, hr => by simp [founded] at hr
  | policy :: ancestors, r, hr => by
    have ih : ∀ r ∈ founded ancestors, _ := exists_eq_of_mem_founded
    rw [founded] at hr
    split at hr
    · exact ⟨policy, 0, List.mem_singleton.mp hr⟩
    · rename_i parent others h
      rcases List.mem_cons.mp hr with rfl | hr
      · exact ⟨policy, parent.depth + 1, rfl⟩
      · exact ih r (h ▸ hr)

theorem fresh_of_mem_founded {policies : List Policy} (r : Registry) (hr : r ∈ founded policies) :
    r.names = {} ∧ r.revision = 0 ∧ r.memory = {} := by
  obtain ⟨policy, depth, rfl⟩ := exists_eq_of_mem_founded r hr
  exact ⟨rfl, rfl, rfl⟩

/-- Every request keeps the registries of a lineage sound. -/
theorem sound_request (q : Request) (l : Lineage) (hl : ∀ r ∈ l, r.names.Sound) :
    ∀ r ∈ q.run l, r.names.Sound := by
  by_cases hq : ∃ c, q = .change c
  · obtain ⟨c, rfl⟩ := hq
    cases l with
    | nil => exact hl
    | cons r ancestors =>
      intro s hs
      rcases List.mem_cons.mp hs with rfl | hs
      · exact c.sound_run (hl r List.mem_cons_self)
      · exact hl s (List.mem_cons_of_mem r hs)
  · intro r' hr'
    have h := q.map_standing_run (fun c h => hq ⟨c, h⟩) l
    obtain ⟨r, hr, hs⟩ := List.mem_map.mp (h ▸ List.mem_map_of_mem hr' :
      r'.standing ∈ l.map Registry.standing)
    have hn : r.names = r'.names := congrArg Prod.fst hs
    exact hn ▸ hl r hr

/-- The registries of every run are sound. -/
theorem sound_of_mem_run (policies : List Policy) (requests : List (Nat × Request)) {r : Registry}
    (hr : r ∈ (founded policies).run requests) : r.names.Sound :=
  have founded : ∀ r ∈ founded policies, r.names.Sound :=
    fun r hr => (fresh_of_mem_founded r hr).1 ▸ Names.sound_empty
  forall_mem_run (fun q _ => sound_request q.2) founded r hr

/-- Whatever was asked before, no name of a registry is both defined and an alias, no name in its
tables is blank, its aliases have no cycle, and the walk to a canonical name ends at a name that is
no alias. It would end there with any number of steps more. -/
theorem sound_and_canonical_of_mem_run (policies : List Policy) (requests : List (Nat × Request))
    {r : Registry} (hr : r ∈ (founded policies).run requests) :
    (∀ name, r.names.definitions.contains name = true →
      r.names.aliases.contains name = false ∧ Text.trim name ≠ "") ∧
    (∀ aliasName target, r.names.aliases.get? aliasName = some target →
      Text.trim aliasName ≠ "" ∧ Text.trim target ≠ "") ∧
    Names.Acyclic r.names.aliases ∧
    ∀ start, r.names.aliases.contains (r.names.canonical start) = false ∧
      ∀ more, Names.follow r.names.aliases (r.names.aliases.size + 1 + more) start =
        r.names.canonical start := by
  have hs := sound_of_mem_run policies requests hr
  have not_blank : ∀ {name}, Text.isBlank name = false → Text.trim name ≠ "" := by
    intro name hb ht
    simp [Text.trim_eq_empty_iff.mp ht] at hb
  refine ⟨fun name hd => ⟨hs.disjoint name hd, not_blank (hs.defined_not_blank name hd)⟩,
    fun a t ha => ?_, hs.acyclic, fun start => ?_⟩
  · obtain ⟨ha, ht⟩ := hs.alias_not_blank a t ha
    exact ⟨not_blank ha, not_blank ht⟩
  · have hend := hs.canonical_not_alias start
    exact ⟨hend, Names.follow_add hend⟩

/-- Two aliases in a row, of which the first is displaced by a definition that is taken back. -/
def displacedAlias : List (Nat × Request) := [
  (0, .change (.registerAlias "store" "cache")), (0, .change (.registerAlias "cache" "fast")),
  (0, .change (.declare ⟨"cache", ["quick", " "], {}⟩))]

theorem canonical_of_displacedAlias :
    ∃ r ∈ (founded [{}]).run displacedAlias,
      r.names.aliases.keys = ["fast", "cache"] ∧ r.names.canonical "fast" = "store" ∧
        r.names.aliases.contains (r.names.canonical "fast") = false := by
  have h : ((founded [{}]).run displacedAlias).map
      (fun r => (r.names.aliases.keys, r.names.canonical "fast")) =
        [(["fast", "cache"], "store")] := by decide +kernel
  obtain ⟨r, hrun, hr⟩ := List.map_eq_singleton_iff.mp h
  obtain ⟨hkeys, hcanonical⟩ := Prod.mk.inj hr
  have hmem : r ∈ (founded [{}]).run displacedAlias := hrun ▸ List.mem_singleton_self r
  exact ⟨r, hmem, hkeys, hcanonical,
    ((sound_and_canonical_of_mem_run _ _ hmem).2.2.2 "fast").1⟩

end Lineage

end Blueprint
