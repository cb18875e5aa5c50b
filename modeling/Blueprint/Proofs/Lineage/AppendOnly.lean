import Blueprint.Proofs.Lineage.Lookup
import Blueprint.Proofs.Names.Extension

/-!
# Strict registries only grow

A registry in which nothing may be overridden keeps what is in it as long as nobody takes it away.
A request adds if it is no removal and points no alias at itself (`Request.adds`), and every such
change extends the names of a strict registry, whether it is accepted or refused
(`Change.extends_run`). A declaration that is refused halfway leaves a strict registry as it was.

So do whole runs, whatever is asked of the ancestors and the children meanwhile
(`extends_names_run`), and a name that leads to a definition of the registry is found there for
good, with the same content and under the same canonical name (`append_only_of_strict`).
-/

namespace Blueprint

/-! ## Changes that add -/

/-- The change takes nothing away : it is no removal, and no alias pointed at itself. -/
def Change.adds : Change → Bool
  | .register _ _ | .declare _ => true
  | .registerAlias name aliasName => aliasName ≠ name
  | .remove _ | .removeAlias _ | .clear => false

/-- The request takes no names away. -/
def Request.adds : Request → Bool
  | .change c => c.adds
  | .upkeep _ | .merge _ | .teardown => true

variable {r : Registry} {c : Change}

theorem Change.policy_run (c : Change) (r : Registry) : (c.run r).policy = r.policy :=
  congrArg Prod.fst (c.setup_run r)

/-- A list of aliases that is pointed at a name extends the names, up to the first that is
refused. If the name is among them it must be no alias. -/
theorem Registry.extends_registerAliases (name : String) (aliases : List String)
    (ho : r.policy.overrideAliases = false)
    (hself : name ∈ aliases → r.names.aliases.contains name = false) :
    r.names.Extends (r.registerAliases name aliases).value.2.names := by
  induction aliases generalizing r with
  | nil => exact .refl r.names
  | cons aliasName rest ih =>
    have hrest : name ∈ rest → r.names.aliases.contains name = false :=
      fun h => hself (List.mem_cons_of_mem aliasName h)
    rw [value_registerAliases]
    cases hp : (r.names.pointAlias r.policy name aliasName).value with
    | error e => exact .refl r.names
    | ok after =>
      have hadded := Names.extends_pointAlias ho
        (fun h => h ▸ hself (h ▸ List.mem_cons_self)) hp
      cases after with
      | none => exact ih ho hrest
      | some names =>
        refine hadded.trans (ih (r := r.withNames names) ho fun h => ?_)
        have htarget := (Names.tables_of_pointAlias hp).2.1 name
        refine Table.get?_eq_none_iff.mp (htarget.trans ?_)
        by_cases hname : name = aliasName
        · rw [if_pos hname, if_pos hname.symm]
        · rw [if_neg hname, Table.get?_eq_none_iff.mpr (hrest h)]

/-- A declaration extends the names of a strict registry, or is taken back. -/
theorem Registry.extends_declare (hr : r.names.Sound) (hstrict : r.policy = .strict)
    (d : Declaration) : r.names.Extends (r.declare d).value.2.names := by
  have hdefinitions : r.policy.overrideDefinitions = false := by rw [hstrict]; rfl
  have haliases : r.policy.overrideAliases = false := by rw [hstrict]; rfl
  rcases h : (r.declare d).value with ⟨e | u, r'⟩
  · rw [names_declare_of_error hr h, hdefinitions]
    exact .refl r.names
  · rw [value_declare] at h
    cases hdef : (r.names.define r.policy d.name d.definition).value with
    | error e => simp [hdef] at h
    | ok names =>
      -- A name that was just defined is no alias, so it may well be among the aliases.
      have hfree : names.aliases.contains d.name = false := by
        simp [hr.aliases_of_define hdef, Table.contains_erase]
      have hadded := extends_registerAliases (r := r.withNames names) d.name d.aliases haliases
        fun _ => hfree
      rcases hv : ((r.withNames names).registerAliases d.name d.aliases).value with ⟨_ | _, done⟩
      · simp only [hdef, hv, Prod.mk.injEq, true_and] at h
        rw [hv] at hadded
        exact h ▸ (Names.extends_define hdefinitions hdef).trans hadded
      · simp [hdef, hv] at h

/-- A change that takes nothing away extends the names of a strict registry. -/
theorem Change.extends_run (hr : r.names.Sound) (hstrict : r.policy = .strict)
    (hadds : c.adds = true) : r.names.Extends (c.run r).names := by
  cases c with
  | register name d =>
    rw [run, Registry.value_register]
    cases hdef : (r.names.define r.policy name d).value with
    | error e => exact .refl r.names
    | ok names => exact Names.extends_define (by rw [hstrict]; rfl) hdef
  | declare d => exact Registry.extends_declare hr hstrict d
  | registerAlias name aliasName =>
    have hne : aliasName ≠ name := by simpa [adds] using hadds
    rw [run, Registry.registerAlias_eq_registerAliases]
    exact Registry.extends_registerAliases name [aliasName] (by rw [hstrict]; rfl)
      fun h => absurd (List.mem_singleton.mp h).symm hne
  | remove name => cases hadds
  | removeAlias aliasName => cases hadds
  | clear => cases hadds

/-! ## Runs that add -/

namespace Lineage

variable {l : Lineage} {level : Nat} {more : List (Nat × Request)}

/-- One request, to whichever registry, extends the names of a strict one if it does not take from
them. -/
theorem extends_names_onLevel (q : Nat × Request) (hr : r.names.Sound) (hlevel : l[level]? = some r)
    (hstrict : r.policy = .strict) (hadds : q.1 = level → q.2.adds = true) :
    ∃ r', (l.onLevel q.1 q.2.run)[level]? = some r' ∧ r.names.Extends r'.names ∧
      r'.policy = .strict := by
  by_cases hq : ∃ c, q = (level, .change c)
  · obtain ⟨c, rfl⟩ := hq
    refine ⟨c.run r, ?_, Change.extends_run hr hstrict (hadds rfl),
      (c.policy_run r).trans hstrict⟩
    rw [getElem?_onLevel_change, hlevel]
    rfl
  · have hstanding := standing_getElem?_onLevel (fun c hc => hq ⟨c, hc⟩) l
    rw [hlevel] at hstanding
    obtain ⟨r', hlater, hsame⟩ := Option.map_eq_some_iff.mp hstanding
    have hnames : r'.names = r.names := congrArg Prod.fst hsame
    have hpolicy : r'.policy = r.policy := congrArg (·.2.1) hsame
    exact ⟨r', hlater, hnames ▸ .refl r'.names, hpolicy.trans hstrict⟩

/-- The names of a strict registry grow along a run that takes nothing away from it. -/
theorem extends_names_run (hl : ∀ r ∈ l, r.names.Sound) (hlevel : l[level]? = some r)
    (hstrict : r.policy = .strict) (hadds : ∀ q ∈ more, q.1 = level → q.2.adds = true) :
    ∃ r', (l.run more)[level]? = some r' ∧ r.names.Extends r'.names := by
  induction more generalizing l r with
  | nil => exact ⟨r, hlevel, .refl r.names⟩
  | cons q more ih =>
    obtain ⟨hq, hmore⟩ := List.forall_mem_cons.mp hadds
    obtain ⟨s, hnext, hstep, hstrict'⟩ :=
      extends_names_onLevel q (hl r (List.mem_of_getElem? hlevel)) hlevel hstrict hq
    obtain ⟨r', hlast, hrest⟩ := ih (sound_onLevel q hl) hnext hstrict' hmore
    exact ⟨r', hlast, hstep.trans hrest⟩

/-- The registry at a level of a run, found by its place. -/
theorem getElem?_run_of_after {policies : List Policy} {requests : List (Nat × Request)}
    {ancestors : Lineage} (h : after policies requests level = r :: ancestors) :
    ((founded policies).run requests)[level]? = some r := by
  rw [← List.head?_drop, ← after, h]
  rfl

/-- A registry that is found in a run stands at the head of its lineage there. -/
theorem after_of_getElem?_run {policies : List Policy} {requests : List (Nat × Request)}
    (h : ((founded policies).run requests)[level]? = some r) :
    ∃ ancestors, after policies requests level = r :: ancestors := by
  obtain ⟨hlt, rfl⟩ := List.getElem?_eq_some_iff.mp h
  exact ⟨_, List.drop_eq_getElem_cons hlt⟩

/-- A strict registry, in whatever state and with whatever ancestors and children, keeps its
definitions up to restating them, its aliases with their targets, and the order of both, as long as
nothing is taken from it. A name that leads to one of its definitions keeps its canonical name and
is looked up with the same content. -/
theorem append_only_of_strict (policies : List Policy) (requests more : List (Nat × Request))
    (level : Nat) {ancestors : Lineage} (h : after policies requests level = r :: ancestors)
    (hstrict : r.policy = .strict) (hadds : ∀ q ∈ more, q.1 = level → q.2.adds = true) :
    ∃ r' ancestors', after policies (requests ++ more) level = r' :: ancestors' ∧
      r.names.Extends r'.names ∧
      ∀ name d, r.names.find? name = some d →
        r'.names.denoted name = r.names.denoted name ∧
        (get (r :: ancestors) name).value = .ok d ∧
        ∃ d', (get (r' :: ancestors') name).value = .ok d' ∧ d.sameContent d' = true := by
  obtain ⟨r', hlast, hextends⟩ := extends_names_run
    (fun s hs => sound_of_mem_run policies requests hs) (getElem?_run_of_after h) hstrict hadds
  rw [← run_append] at hlast
  obtain ⟨ancestors', hlater⟩ := after_of_getElem?_run hlast
  refine ⟨r', ancestors', hlater, hextends, fun name d hd => ?_⟩
  obtain ⟨hdenoted, d', hd', hsame⟩ :=
    hextends.find? (sound_of_mem_run _ _ (List.mem_of_getElem? hlast)) hd
  exact ⟨hdenoted, get_of_find? hd, d', get_of_find? hd', hsame⟩

/-- A component with an alias that does not lead to it yet. -/
def strictStore : List (Nat × Request) := [
  (0, .change (.declare ⟨"store", ["cache"], .ofClass "Disk"⟩)),
  (0, .change (.registerAlias "cold" "archive"))]

/-- The component is stated by another document and given another class, another one is declared
with an alias that is taken, and the open end of an alias is pointed at the component. -/
def strictStoreKept : List (Nat × Request) := [
  (0, .change (.register "store" { Definition.ofClass "Disk" with resource := some "b.xml" })),
  (0, .change (.declare ⟨"store", ["fast"], .ofClass "Memory"⟩)),
  (0, .change (.declare ⟨"log", ["text", "cache"], .ofClass "File"⟩)),
  (0, .change (.registerAlias "cache" "cold")), (1, .change (.registerAlias "log" "cold")),
  (0, .merge "archive")]

theorem append_only_strictStore : ∃ (r r' : Registry) (ancestors' : Lineage),
    after [.strict, {}] (strictStore ++ strictStoreKept) 0 = r' :: ancestors' ∧
      r.names.Extends r'.names ∧ r.names.denoted "cache" = "store" ∧
      r'.names.denoted "cache" = "store" ∧ r'.names.denoted "archive" = "store" ∧
      r'.definedNames = ["store"] ∧
      ∃ d', (get (r' :: ancestors') "cache").value = .ok d' ∧
        (Definition.ofClass "Disk").sameContent d' = true ∧ d'.resource = some "b.xml" := by
  have hbefore : (after [.strict, {}] strictStore 0).map
      (fun r => (r.policy, r.names.denoted "cache", r.names.find? "cache")) =
    [(.strict, "store", some (.ofClass "Disk")), ({}, "cache", none)] := by rfl
  obtain ⟨r, ancestors, hrun, hr, -⟩ := List.map_eq_cons_iff.mp hbefore
  simp only [Prod.mk.injEq] at hr
  obtain ⟨hstrict, hcanonical, hfind⟩ := hr
  obtain ⟨r', ancestors', hlater, hextends, hfound⟩ :=
    append_only_of_strict [.strict, {}] strictStore strictStoreKept 0 hrun hstrict (by decide)
  obtain ⟨hsame, -, d', hget, hcontent⟩ := hfound "cache" _ hfind
  have hafter : (after [.strict, {}] (strictStore ++ strictStoreKept) 0).head?.map
      (fun r => (r.names.denoted "archive", r.definedNames)) =
    some ("store", ["store"]) := by decide +kernel
  have hresource : (get (after [.strict, {}] (strictStore ++ strictStoreKept) 0) "cache").value.map
      (·.resource) = .ok (some "b.xml") := by rfl
  simp only [hlater, List.head?_cons, Option.map_some, Option.some.injEq, Prod.mk.injEq] at hafter
  simp only [hlater, hget, Except.map, Except.ok.injEq] at hresource
  exact ⟨r, r', ancestors', hlater, hextends, hcanonical, hsame.trans hcanonical, hafter.1,
    hafter.2, d', hget, hcontent, hresource⟩

end Lineage

end Blueprint
