import Blueprint.Proofs.Lineage.Run

/-!
# Mutations

A mutation is one writing of the names of a registry, which is what its revision counts. A change
can be no mutation, or several : a declaration writes its definition, each of its aliases and, if
one of them is refused, the names it restores. `Change.rewritten_run` says what a change with a
given number of mutations leaves. Without any it leaves the registry itself, otherwise an empty
memory.

What a change does to a registry does not depend on its memory and its tracker
(`Change.bare_run`).
-/

namespace Blueprint

/-! ## Counting -/

/-- How often the names are written when aliases are pointed at a name. -/
def Registry.aliasMutations (name : String) : (aliases : List String) → Registry → Nat
  | [], _ => 0
  | aliasName :: rest, r =>
    match (r.names.pointAlias r.policy name aliasName).value with
    | .error _ => 0
    | .ok none => aliasMutations name rest r
    | .ok (some names) => 1 + aliasMutations name rest (r.withNames names)

/-- How often a change writes the names of a registry. -/
def Change.mutations : Change → Registry → Nat
  | .register name d, r =>
    match (r.names.define r.policy name d).value with
    | .error _ => 0
    | .ok _ => 1
  | .declare d, r =>
    match (r.names.define r.policy d.name d.definition).value with
    | .error _ => 0
    | .ok names =>
      let defined := r.withNames names
      let undone := (defined.registerAliases d.name d.aliases).value.1.isSome
      1 + Registry.aliasMutations d.name d.aliases defined + if undone then 1 else 0
  | .remove name, r => if r.names.definitions.contains name then 1 else 0
  | .registerAlias name aliasName, r => r.aliasMutations name [aliasName]
  | .removeAlias aliasName, r => if r.names.aliases.contains aliasName then 1 else 0
  | .clear, _ => 1

/-- How often a request to a lineage writes the names of a registry. -/
def Request.mutations : Request → Lineage → Nat
  | .change c, r :: _ => c.mutations r
  | _, _ => 0

/-- How often requests write the names of a registry. -/
def Lineage.mutations : Lineage → (requests : List (Nat × Request)) → Nat
  | _, [] => 0
  | l, q :: requests => q.2.mutations (l.drop q.1) + mutations (l.onLevel q.1 q.2.run) requests

/-- The mutations of a run are those of its parts, the second counted from where the first ends. -/
theorem Lineage.mutations_append : ∀ (l : Lineage) (requests more : List (Nat × Request)),
    l.mutations (requests ++ more) = l.mutations requests + (l.run requests).mutations more
  | l, [], more => by simp [mutations]
  | l, q :: requests, more => by
    rw [List.cons_append, mutations, mutations, mutations_append, run_cons, Nat.add_assoc]

/-! ## What mutations leave -/

/-- The second registry is what a number of mutations left of the first. -/
structure Registry.Rewritten (mutations : Nat) (r r' : Registry) : Prop where
  same : mutations = 0 → r' = r
  memory : 0 < mutations → r'.memory = {}
  revision : r'.revision = r.revision + UInt64.ofNat mutations

namespace Registry

variable {r r' r'' : Registry} {j k : Nat}

theorem Rewritten.refl (r : Registry) : Rewritten 0 r r where
  same _ := rfl
  memory h := absurd h (Nat.lt_irrefl 0)
  revision := by simp

/-- Mutations add up. -/
theorem Rewritten.trans (h : Rewritten j r r') (h' : Rewritten k r' r'') :
    Rewritten (j + k) r r'' where
  same hs := by rw [h'.same (by omega), h.same (by omega)]
  memory hs := by
    rcases Nat.eq_zero_or_pos k with hk | hk
    · rw [h'.same hk, h.memory (by omega)]
    · exact h'.memory hk
  revision := by rw [h'.revision, h.revision, UInt64.ofNat_add, UInt64.add_assoc]

/-- Writing the names once is one mutation. -/
theorem rewritten_withNames (r : Registry) (names : Names) : Rewritten 1 r (r.withNames names) where
  same h := absurd h Nat.one_ne_zero
  memory _ := rfl
  revision := rfl

/-- The mutations of `registerAliases` are those that `aliasMutations` counts. -/
theorem rewritten_registerAliases (name : String) : ∀ (aliases : List String) (r : Registry),
    Rewritten (r.aliasMutations name aliases) r (r.registerAliases name aliases).value.2
  | [], r => .refl r
  | aliasName :: rest, r => by
    rw [value_registerAliases, aliasMutations]
    cases (r.names.pointAlias r.policy name aliasName).value with
    | error e => exact .refl r
    | ok names =>
      cases names with
      | none => exact rewritten_registerAliases name rest r
      | some names =>
        exact (rewritten_withNames r names).trans (rewritten_registerAliases name rest _)

end Registry

/-- A change leaves what as many mutations as it counts leave. -/
theorem Change.rewritten_run (c : Change) (r : Registry) :
    Registry.Rewritten (c.mutations r) r (c.run r) := by
  cases c with
  | register name d =>
    rw [run, Registry.value_register, mutations]
    cases (r.names.define r.policy name d).value with
    | error e => exact .refl r
    | ok names => exact Registry.rewritten_withNames r names
  | declare d =>
    rw [run, Registry.value_declare, mutations]
    cases (r.names.define r.policy d.name d.definition).value with
    | error e => exact .refl r
    | ok names =>
      have h := (Registry.rewritten_withNames r names).trans
        (Registry.rewritten_registerAliases d.name d.aliases _)
      dsimp only
      rcases hv : ((r.withNames names).registerAliases d.name d.aliases).value with
        ⟨_ | ⟨aliasName, e⟩, partly⟩
      · rw [hv] at h
        exact h
      · rw [hv] at h
        exact h.trans (Registry.rewritten_withNames partly _)
  | remove name =>
    rw [run, Registry.value_remove, mutations]
    cases h : r.names.definitions.get? name with
    | none =>
      rw [Table.get?_eq_none_iff.mp h]
      exact .refl r
    | some d =>
      rw [Table.contains_of_get? h]
      exact ⟨fun h => absurd h Nat.one_ne_zero, fun _ => rfl, rfl⟩
  | registerAlias name aliasName =>
    rw [run, Registry.registerAlias_eq_registerAliases]
    exact Registry.rewritten_registerAliases name [aliasName] r
  | removeAlias aliasName =>
    rw [run, Registry.removeAlias, mutations]
    cases r.names.aliases.contains aliasName with
    | false => exact .refl r
    | true => exact Registry.rewritten_withNames r _
  | clear => exact ⟨fun h => absurd h Nat.one_ne_zero, fun _ => rfl, rfl⟩

/-! ## What changes do not depend on -/

theorem Registry.bare_withNames (r : Registry) (names : Names) :
    (r.withNames names).bare = r.bare.withNames names := rfl

/-- Which aliases are accepted, and what their names become, does not depend on the memory and the
tracker. -/
theorem Registry.bare_registerAliases (name : String) : ∀ (aliases : List String) (r : Registry)
    (memory : Table String Memory) (tracker : Tracker),
    (registerAliases { r with memory, tracker } name aliases).value.1 =
        (r.registerAliases name aliases).value.1 ∧
      (registerAliases { r with memory, tracker } name aliases).value.2.bare =
        (r.registerAliases name aliases).value.2.bare
  | [], _, _, _ => ⟨rfl, rfl⟩
  | aliasName :: rest, r, memory, tracker => by
    rw [value_registerAliases, value_registerAliases]
    dsimp only
    cases (r.names.pointAlias r.policy name aliasName).value with
    | error e => exact ⟨rfl, rfl⟩
    | ok names =>
      cases names with
      | none => exact bare_registerAliases name rest r memory tracker
      | some names => exact bare_registerAliases name rest (r.withNames names) {} tracker

/-- What a change leaves apart from the memory and the tracker does not depend on them. -/
theorem Change.bare_run (c : Change) (r : Registry) (memory : Table String Memory)
    (tracker : Tracker) : (c.run { r with memory, tracker }).bare = (c.run r).bare := by
  cases c with
  | register name d =>
    simp only [run, Registry.value_register]
    cases (r.names.define r.policy name d).value <;> rfl
  | declare d =>
    simp only [run, Registry.value_declare]
    cases (r.names.define r.policy d.name d.definition).value with
    | error e => rfl
    | ok names =>
      obtain ⟨hanswer, hbare⟩ :=
        Registry.bare_registerAliases d.name d.aliases (r.withNames names) {} tracker
      have hdefined : Registry.withNames { r with memory, tracker } names =
          { r.withNames names with memory := {}, tracker } := rfl
      dsimp only
      rw [hdefined]
      rcases hv : ((r.withNames names).registerAliases d.name d.aliases).value with ⟨told, partly⟩
      rcases hv' : (Registry.registerAliases { r.withNames names with memory := {}, tracker }
        d.name d.aliases).value with ⟨told', partly'⟩
      simp only [hv, hv'] at hanswer hbare
      subst hanswer
      have hnames : partly'.bare.names = partly.bare.names := by rw [hbare]
      change partly'.names = partly.names at hnames
      cases told' with
      | none => exact hbare
      | some told =>
        simp only [hnames]
        rw [Registry.bare_withNames, hbare, ← Registry.bare_withNames]
  | remove name =>
    simp only [run, Registry.value_remove]
    cases r.names.definitions.get? name <;> rfl
  | registerAlias name aliasName =>
    simp only [run, Registry.registerAlias_eq_registerAliases]
    exact (Registry.bare_registerAliases name [aliasName] r memory tracker).2
  | removeAlias aliasName =>
    simp only [run, Registry.removeAlias]
    cases r.names.aliases.contains aliasName <;> rfl
  | clear => rfl

/-- What upkeep leaves apart from the memory and the tracker does not depend on them. -/
theorem Upkeep.bare_run (u : Upkeep) (r : Registry) : (u.run r).bare = (u.run r.bare).bare := by
  obtain ⟨scopes, h⟩ := u.exists_run_eq r
  obtain ⟨tracker, hr⟩ := h r.memory r.tracker
  obtain ⟨tracker', hbare⟩ := h {} {}
  rw [show u.run r = _ from hr, show u.run r.bare = _ from hbare]
  rfl

/-! ## Runs without merging -/

/-- The request merges definitions. -/
def Request.merges : Request → Bool
  | .merge _ | .teardown => true
  | .change _ | .upkeep _ => false

/-- A request that merges leaves everything in place that merging does not write. -/
theorem Request.map_bare_run_of_merges {q : Request} (hq : q.merges = true) (l : Lineage) :
    (q.run l).map Registry.bare = l.map Registry.bare := by
  cases q with
  | change c => cases hq
  | upkeep u => cases hq
  | merge name => exact Lineage.map_bare_merge l name
  | teardown => exact Lineage.map_bare_teardown l

namespace Lineage

variable {l l' : Lineage}

theorem map_bare_modifyHead {f : Registry → Registry} (hf : ∀ r, (f r).bare = (f r.bare).bare)
    (h : l'.map Registry.bare = l.map Registry.bare) :
    (l'.modifyHead f).map Registry.bare = (l.modifyHead f).map Registry.bare := by
  cases l with
  | nil => rw [List.map_eq_nil_iff.mp h]
  | cons r ancestors =>
    cases l' with
    | nil => cases h
    | cons r' ancestors' =>
      obtain ⟨hr, hancestors⟩ := List.cons.inj h
      simp only [List.modifyHead, List.map_cons, hancestors]
      rw [hf r', hr, ← hf r]

/-- A request does the same to lineages that differ in what merging writes. -/
theorem map_bare_request (q : Request) (h : l'.map Registry.bare = l.map Registry.bare) :
    (q.run l').map Registry.bare = (q.run l).map Registry.bare := by
  cases hq : q.merges with
  | true => rw [q.map_bare_run_of_merges hq, q.map_bare_run_of_merges hq, h]
  | false =>
    cases q with
    | change c => exact map_bare_modifyHead (fun r => (c.bare_run r {} {}).symm) h
    | upkeep u => exact map_bare_modifyHead u.bare_run h
    | merge name => cases hq
    | teardown => cases hq

/-- A request at a level does the same to lineages that differ in what merging writes. -/
theorem map_bare_onLevel (q : Request) (level : Nat)
    (h : l'.map Registry.bare = l.map Registry.bare) :
    (l'.onLevel level q.run).map Registry.bare = (l.onLevel level q.run).map Registry.bare := by
  have hdrop : (l'.drop level).map Registry.bare = (l.drop level).map Registry.bare := by
    rw [List.map_drop, h, List.map_drop]
  rw [onLevel, onLevel, List.map_append, List.map_append, List.map_take, List.map_take, h,
    map_bare_request q hdrop]

/-- A request that merges leaves everything in place at any level, apart from what merging writes.
-/
theorem map_bare_onLevel_of_merges {q : Request} (hq : q.merges = true) (level : Nat)
    (l : Lineage) : (l.onLevel level q.run).map Registry.bare = l.map Registry.bare := by
  rw [onLevel, List.map_append, q.map_bare_run_of_merges hq, ← List.map_append,
    List.take_append_drop]

/-- The requests that merge leave no trace but in the memories and the trackers. -/
theorem map_bare_run_filter : ∀ (requests : List (Nat × Request)) {l l' : Lineage},
    l'.map Registry.bare = l.map Registry.bare →
      (l'.run (requests.filter fun q => !q.2.merges)).map Registry.bare =
        (l.run requests).map Registry.bare
  | [], _, _, h => h
  | q :: requests, l, l', h => by
    rw [List.filter_cons, run_cons]
    cases hq : q.2.merges with
    | true =>
      exact map_bare_run_filter requests (h.trans (map_bare_onLevel_of_merges hq q.1 l).symm)
    | false => exact map_bare_run_filter requests (map_bare_onLevel q.2 q.1 h)

end Lineage

end Blueprint
