import Blueprint.Proofs.Names.Acceptance
import Blueprint.Proofs.Registry.Declare

/-!
# Introducing names

An `Introduction` gives a name a meaning, as a definition or as an alias. One that is accepted
settles what the name stands for and leaves all other names alone (`Introduction.Accepted`).
`Introduced` are registries before and after a list of introductions that are all accepted.

What is in the tables after a list was introduced by it or was there before, and what a name of the
list stands for in the end was settled by the last introduction of that name
(`Introduced.target_eq`, `Introduced.definition_eq`).

Introductions are `Consistent` if no alias has two targets or a definition and the aliases have no
cycle. As long as nothing but such introductions is in the tables each of them is accepted
(`Consistent.accepts`), whichever are there already.
-/

namespace Blueprint

open Relation

/-- Gives a name a meaning. -/
inductive Introduction where
  | definition (name : String) (d : Definition)
  | aliasing (name target : String)

namespace Introduction

/-- The name that is given a meaning. -/
def name : Introduction → String
  | .definition name _ | .aliasing name _ => name

/-- The introduction as an operation on a registry. -/
def run : Introduction → Registry → Traced (Except Error Unit × Registry)
  | .definition name d, r => r.register name d
  | .aliasing name target, r => r.registerAlias target name

/-- What the name points at afterwards. A definition is no alias, and neither is an alias that was
pointed at itself. -/
def target? : Introduction → Option String
  | .definition _ _ => none
  | .aliasing name target => if name = target then none else some target

/-- The definitions afterwards. -/
def define : Introduction → Table String Definition → Table String Definition
  | .definition name d, t => t.insert name d
  | .aliasing _ _, t => t

/-- No name that it mentions is blank. -/
def Spelled : Introduction → Prop
  | .definition name _ => Text.isBlank name = false
  | .aliasing name target => Text.isBlank name = false ∧ Text.isBlank target = false

end Introduction

/-- The registry after introductions that are accepted one after the other. -/
inductive Introduced : Registry → List Introduction → Registry → Prop
  | nil (r : Registry) : Introduced r [] r
  | cons {r r' s : Registry} {i : Introduction} {is : List Introduction}
    (accepted : (i.run r).value = (.ok (), r')) (rest : Introduced r' is s) :
    Introduced r (i :: is) s

variable {r r' s s' : Registry} {i : Introduction} {is js : List Introduction}
  {n : Names} {name aliasName target : String} {d : Definition}

@[simp] theorem introduced_nil_iff : Introduced r [] s ↔ r = s :=
  ⟨fun h => by cases h; rfl, fun h => h ▸ .nil r⟩

theorem introduced_cons_iff : Introduced r (i :: is) s ↔
    ∃ r', (i.run r).value = (.ok (), r') ∧ Introduced r' is s :=
  ⟨fun | .cons accepted rest => ⟨_, accepted, rest⟩, fun ⟨_, accepted, rest⟩ => .cons accepted rest⟩

/-- Introductions are accepted in two parts, the second from where the first ends. -/
theorem Introduced.append_iff :
    Introduced r (is ++ js) s ↔ ∃ r', Introduced r is r' ∧ Introduced r' js s := by
  induction is generalizing r with
  | nil => simp
  | cons i is ih =>
    simp only [List.cons_append, introduced_cons_iff, ih]
    constructor
    · rintro ⟨u, accepted, r', his, hjs⟩
      exact ⟨r', ⟨u, accepted, his⟩, hjs⟩
    · rintro ⟨r', ⟨u, accepted, his⟩, hjs⟩
      exact ⟨u, accepted, r', his, hjs⟩

/-! ## Declarations -/

/-- What a declaration introduces : its definition, and then its aliases. -/
def Declaration.introductions (d : Declaration) : List Introduction :=
  .definition d.name d.definition :: d.aliases.map (.aliasing · d.name)

/-- All aliases of a list are registered just if their introductions are accepted. -/
theorem registerAliases_eq_none_iff : ∀ {aliases : List String} {r : Registry},
    (r.registerAliases name aliases).value = (none, s) ↔
      Introduced r (aliases.map (.aliasing · name)) s
  | [], r => by simp [Registry.registerAliases]
  | aliasName :: rest, r => by
    rw [List.map_cons, introduced_cons_iff, Registry.value_registerAliases, Introduction.run,
      Registry.value_registerAlias]
    cases (r.names.pointAlias r.policy name aliasName).value with
    | error e => simp
    | ok after => cases after <;> simp [registerAliases_eq_none_iff]

/-- A declaration is accepted just if everything that it introduces is. -/
theorem declare_eq_ok_iff {d : Declaration} :
    (r.declare d).value = (.ok (), s) ↔ Introduced r d.introductions s := by
  rw [Declaration.introductions, introduced_cons_iff, Registry.value_declare, Introduction.run,
    Registry.value_register]
  cases (r.names.define r.policy d.name d.definition).value with
  | error e => simp
  | ok names =>
    simp only [Prod.mk.injEq, true_and, exists_eq_left', ← registerAliases_eq_none_iff]
    rcases ((r.withNames names).registerAliases d.name d.aliases).value with ⟨_ | _, _⟩ <;> simp

/-! ## One introduction -/

/-- What an introduction that is accepted leaves. -/
structure Introduction.Accepted (i : Introduction) (r r' : Registry) : Prop where
  spelled : i.Spelled
  sound : r'.names.Sound
  definitions : r'.names.definitions = i.define r.names.definitions
  target : ∀ x, r'.names.aliases.get? x =
    if x = i.name then i.target? else r.names.aliases.get? x
  /-- A name that is pointed at another one has no definition. -/
  undefined : ∀ target, i.target? = some target → r.names.definitions.contains i.name = false
  /-- A name that is pointed at another one does not point elsewhere, unless that may change. -/
  same_target : ∀ target, i.target? = some target → r.policy.overrideAliases = false →
    ∀ before, r.names.aliases.get? i.name = some before → before = target
  /-- A name that has its target already keeps its place, too. -/
  aliases : r.names.aliases.get? i.name = i.target? → r'.names.aliases = r.names.aliases
  policy : r'.policy = r.policy
  scopes : r'.scopes = r.scopes
  memory : r.memory = {} → r'.memory = {}

/-- An introduction is about one name. -/
theorem Introduction.Accepted.inUse_eq (h : i.Accepted r r') {x : String} (hx : x ≠ i.name) :
    r'.names.inUse x = r.names.inUse x := by
  have hdefs : r'.names.definitions.contains x = r.names.definitions.contains x := by
    rw [h.definitions]
    cases i with
    | definition name d =>
      have hne : x ≠ name := hx
      simp [define, Table.contains_insert, hne]
    | aliasing aliasName target => rfl
  have haliases : r'.names.aliases.contains x = r.names.aliases.contains x :=
    Table.contains_eq_of_get? ((h.target x).trans (if_neg hx))
  rw [Names.inUse, Names.inUse, hdefs, haliases]

theorem Introduction.target?_eq_some {a : String} :
    (Introduction.aliasing aliasName name).target? = some a ↔ aliasName ≠ name ∧ a = name := by
  by_cases h : aliasName = name <;> simp [target?, h, eq_comm]

/-- A definition that is registered is an accepted introduction. -/
theorem Introduction.accepted_of_register (hr : r.names.Sound)
    (h : (r.register name d).value = (.ok (), r')) : (definition name d).Accepted r r' := by
  rw [Registry.value_register] at h
  cases hdef : (r.names.define r.policy name d).value with
  | error e => simp [hdef] at h
  | ok names =>
    simp only [hdef, Prod.mk.injEq, true_and] at h
    subst h
    have haliases := hr.aliases_of_define hdef
    refine ⟨(Names.define_eq_ok hdef).1, hr.define hdef, (Names.define_eq_ok hdef).2.1,
      fun x => ?_, fun _ => nofun, fun _ => nofun, fun hnone => ?_, rfl, rfl, fun _ => rfl⟩
    · rw [Registry.withNames, haliases, Table.get?_erase]
      rfl
    · rw [Registry.withNames, haliases]
      exact Table.erase_of_not_contains (Table.get?_eq_none_iff.mp hnone)

/-- An alias that is registered is an accepted introduction, also one that was there already. -/
theorem Introduction.accepted_of_registerAlias (hr : r.names.Sound)
    (h : (r.registerAlias name aliasName).value = (.ok (), r')) :
    (aliasing aliasName name).Accepted r r' := by
  rw [Registry.value_registerAlias] at h
  cases hpoint : (r.names.pointAlias r.policy name aliasName).value with
  | error e => simp [hpoint] at h
  | ok after =>
    have hp := Names.pointable_of_pointAlias hpoint
    have htable := Names.tables_of_pointAlias hpoint
    have hsound : (after.getD r.names).Sound := by
      cases after with
      | none => exact hr
      | some n => exact hr.pointed (Names.pointAlias_eq_some hpoint)
    have hnames : r'.names = after.getD r.names ∧ r'.policy = r.policy ∧ r'.scopes = r.scopes ∧
        (r.memory = {} → r'.memory = {}) := by
      cases after <;> simp only [hpoint, Prod.mk.injEq, true_and] at h <;> subst h
      · exact ⟨rfl, rfl, rfl, id⟩
      · exact ⟨rfl, rfl, rfl, fun _ => rfl⟩
    obtain ⟨hnames, hpolicy, hscopes, hmemory⟩ := hnames
    exact {
      spelled := ⟨hp.alias_not_blank, hp.name_not_blank⟩
      sound := hnames ▸ hsound
      definitions := by rw [hnames, htable.1]; rfl
      target := fun x => by rw [hnames, htable.2.1]; rfl
      undefined := fun _ ht => hp.undefined (target?_eq_some.mp ht).1
      same_target := fun _ ht ho before hb =>
        (hp.same_target (target?_eq_some.mp ht).1 ho before hb).trans (target?_eq_some.mp ht).2.symm
      aliases := fun hsame => by rw [hnames]; exact htable.2.2 hsame
      policy := hpolicy
      scopes := hscopes
      memory := hmemory }

/-- Whatever succeeds as an operation is accepted as an introduction. -/
theorem Introduction.accepted_of_run (hr : r.names.Sound) (h : (i.run r).value = (.ok (), r')) :
    i.Accepted r r' := by
  cases i with
  | definition name d => exact accepted_of_register hr h
  | aliasing aliasName name => exact accepted_of_registerAlias hr h

/-! ## A list of introductions -/

/-- What holds of a registry and is kept by every introduction of a list that is accepted. -/
theorem Introduced.induction {P : Registry → Prop}
    (step : ∀ r i r', i ∈ is → i.Accepted r r' → P r → P r') (h : Introduced r is s)
    (hr : r.names.Sound) (hp : P r) : s.names.Sound ∧ P s := by
  induction h with
  | nil r => exact ⟨hr, hp⟩
  | cons accepted rest ih =>
    have hi := Introduction.accepted_of_run hr accepted
    exact ih (fun r i r' hmem => step r i r' (List.mem_cons_of_mem _ hmem)) hi.sound
      (step _ _ _ List.mem_cons_self hi hp)

theorem Introduced.sound (h : Introduced r is s) (hr : r.names.Sound) : s.names.Sound :=
  (h.induction (P := fun _ => True) (fun _ _ _ _ _ => id) hr trivial).1

theorem Introduced.policy (h : Introduced r is s) (hr : r.names.Sound) : s.policy = r.policy :=
  (h.induction (P := fun s => s.policy = r.policy) (fun _ _ _ _ ha => ha.policy.trans) hr rfl).2

theorem Introduced.scopes (h : Introduced r is s) (hr : r.names.Sound) : s.scopes = r.scopes :=
  (h.induction (P := fun s => s.scopes = r.scopes) (fun _ _ _ _ ha => ha.scopes.trans) hr rfl).2

theorem Introduced.memory (h : Introduced r is s) (hr : r.names.Sound) (hm : r.memory = {}) :
    s.memory = {} :=
  (h.induction (P := fun s => s.memory = {}) (fun _ _ _ _ ha => ha.memory) hr hm).2

/-- Where in a list an introduction was accepted. -/
theorem Introduced.exists_accepted (h : Introduced r is s) (hr : r.names.Sound) (hi : i ∈ is) :
    ∃ front back u u', is = front ++ i :: back ∧ Introduced r front u ∧ i.Accepted u u' ∧
      Introduced u' back s := by
  obtain ⟨front, back, rfl⟩ := List.append_of_mem hi
  obtain ⟨u, hfront, hback⟩ := append_iff.mp h
  obtain ⟨u', accepted, hrest⟩ := introduced_cons_iff.mp hback
  exact ⟨front, back, u, u', rfl, hfront,
    Introduction.accepted_of_run (hfront.sound hr) accepted, hrest⟩

theorem Introduced.spelled (h : Introduced r is s) (hr : r.names.Sound) :
    ∀ i ∈ is, i.Spelled := by
  intro i hi
  obtain ⟨_, _, u, u', -, -, ha, -⟩ := h.exists_accepted hr hi
  exact ha.spelled

/-! ## What a list leaves under a name -/

/-- What an introduction makes of the target of a name, if it is about that name. -/
def Introduction.targetOf? (x : String) (i : Introduction) : Option (Option String) :=
  if i.name = x then some i.target? else none

/-- The definition that an introduction gives to a name. -/
def Introduction.definitionOf? (x : String) : Introduction → Option Definition
  | .definition name d => if name = x then some d else none
  | .aliasing _ _ => none

/-- The last introduction of a name in a list decides what it points at. -/
theorem Introduced.target_eq (h : Introduced r is s) (hr : r.names.Sound) (x : String) :
    s.names.aliases.get? x =
      (is.filterMap (·.targetOf? x)).getLast?.getD (r.names.aliases.get? x) := by
  induction h with
  | nil r => rfl
  | @cons r r' s i is accepted rest ih =>
    have hi := Introduction.accepted_of_run hr accepted
    rw [ih hi.sound, hi.target, List.filterMap_cons, Introduction.targetOf?]
    by_cases hx : i.name = x
    · simp [hx, List.getLast?_cons]
    · simp [hx, Ne.symm hx]

/-- The last definition of a name in a list is the one it has. -/
theorem Introduced.definition_eq (h : Introduced r is s) (hr : r.names.Sound) (x : String) :
    s.names.definitions.get? x =
      (is.filterMap (·.definitionOf? x)).getLast?.or (r.names.definitions.get? x) := by
  induction h with
  | nil r => rfl
  | @cons r r' s i is accepted rest ih =>
    have hi := Introduction.accepted_of_run hr accepted
    rw [ih hi.sound, hi.definitions, List.filterMap_cons]
    cases i with
    | definition name d =>
      rw [Introduction.define, Introduction.definitionOf?, Table.get?_insert]
      by_cases hx : name = x
      · cases h : (is.filterMap (·.definitionOf? x)).getLast? <;>
          simp [hx, List.getLast?_cons, h]
      · simp [hx, Ne.symm hx]
    | aliasing aliasName target => rfl

/-! ## Introductions that do not contradict each other -/

/-- Some introduction points an alias at another name. -/
def States (is : List Introduction) (aliasName target : String) : Prop :=
  aliasName ≠ target ∧ .aliasing aliasName target ∈ is

/-- No alias has two targets or a definition, and the aliases have no cycle. -/
structure Consistent (is : List Introduction) : Prop where
  single : ∀ {aliasName target target'}, States is aliasName target →
    States is aliasName target' → target = target'
  undefined : ∀ {aliasName target}, States is aliasName target → ∀ d, .definition aliasName d ∉ is
  acyclic : ∀ name, ¬TransGen (States is) name name

/-- What the introductions say about targets holds. -/
def Standing (is : List Introduction) (n : Names) : Prop :=
  ∀ i ∈ is, n.aliases.get? i.name = i.target?

theorem Standing.pointsAt (h : Standing is n) {a t : String} (hat : States is a t) :
    Names.PointsAt n.aliases a t :=
  (h _ hat.2).trans (Introduction.target?_eq_some.mpr ⟨hat.1, rfl⟩)

/-- Introductions of which all still hold do not contradict each other. -/
theorem Standing.consistent (h : Standing is n) (hn : n.Sound) : Consistent is where
  single hat hat' := (h.pointsAt hat).unique (h.pointsAt hat')
  undefined hat d hd := by
    have hnone : n.aliases.get? _ = none := h _ hd
    cases hnone.symm.trans (h.pointsAt hat)
  acyclic x hx := hn.acyclic x (TransGen.mono (fun _ _ => h.pointsAt) x x hx)

/-- All that is in the tables was introduced. -/
structure Within (is : List Introduction) (n : Names) : Prop where
  defined : ∀ name, n.definitions.contains name = true → ∃ d, .definition name d ∈ is
  pointed : ∀ {aliasName target}, Names.PointsAt n.aliases aliasName target →
    States is aliasName target

theorem within_empty (is : List Introduction) : Within is {} where
  defined _ h := by cases h
  pointed h := by cases h

/-- An accepted introduction adds nothing to the tables but what it introduces. -/
theorem Introduction.Accepted.within (h : i.Accepted r r') (hi : i ∈ is)
    (hw : Within is r.names) : Within is r'.names where
  defined x hx := by
    rw [h.definitions] at hx
    cases i with
    | definition name d =>
      rw [define, Table.contains_insert] at hx
      by_cases hname : x = name
      · exact ⟨d, hname ▸ hi⟩
      · exact hw.defined x (by simpa [hname] using hx)
    | aliasing aliasName target => exact hw.defined x hx
  pointed {a t} hat := by
    rw [Names.PointsAt, h.target] at hat
    split at hat
    · rename_i ha
      cases i with
      | definition name d => cases hat
      | aliasing aliasName target =>
        obtain ⟨hne, rfl⟩ := target?_eq_some.mp hat
        obtain rfl : a = aliasName := ha
        exact ⟨hne, hi⟩
    · exact hw.pointed hat

/-- Among introductions that do not contradict each other, each is accepted when nothing else is
in the tables. What may not be overridden is not there yet. -/
theorem Consistent.accepts (hc : Consistent is) (hi : i ∈ is) (hspelled : i.Spelled)
    (hw : Within is r.names)
    (hfree : r.policy.overrideDefinitions = true ∨ r.names.inUse i.name = false) :
    ∃ r', (i.run r).value = (.ok (), r') := by
  cases i with
  | definition name d =>
    obtain ⟨names, hdef⟩ := Names.exists_define_eq_ok (n := r.names) hspelled hfree d
    exact ⟨_, by rw [Introduction.run, Registry.value_register, hdef]⟩
  | aliasing aliasName target =>
    have stated : aliasName ≠ target → States is aliasName target := fun hne => ⟨hne, hi⟩
    have hpointable : Names.Pointable r.policy r.names target aliasName := {
      name_not_blank := hspelled.2
      alias_not_blank := hspelled.1
      undefined := fun hne => eq_false_of_ne_true fun hdef =>
        (hw.defined aliasName hdef).elim (hc.undefined (stated hne))
      same_target := fun hne _ _ ht => hc.single (hw.pointed ht) (stated hne) }
    have haway : aliasName ≠ target →
        ¬TransGen (Names.PointsAt r.names.aliases) target aliasName := fun hne hwalk =>
      hc.acyclic aliasName (.head (stated hne) (TransGen.mono (fun _ _ => hw.pointed) _ _ hwalk))
    obtain ⟨after, hpoint⟩ := hpointable.exists_eq_ok haway
    rw [Introduction.run, Registry.value_registerAlias, hpoint]
    cases after with
    | none => exact ⟨_, rfl⟩
    | some names => exact ⟨_, rfl⟩

/-- Introductions that do not contradict each other are accepted one after the other. -/
theorem Consistent.exists_introduced (hc : Consistent is) (hspelled : ∀ i ∈ is, i.Spelled) :
    ∀ {js : List Introduction} {r : Registry}, js ⊆ is → r.names.Sound → Within is r.names →
      (r.policy.overrideDefinitions = true ∨
        (js.map Introduction.name).Nodup ∧ ∀ j ∈ js, r.names.inUse j.name = false) →
      ∃ s, Introduced r js s
  | [], r, _, _, _, _ => ⟨r, .nil r⟩
  | j :: js, r, hsub, hr, hw, hfree => by
    obtain ⟨hj, hjs⟩ := List.cons_subset.mp hsub
    obtain ⟨r', accepted⟩ := hc.accepts hj (hspelled j hj) hw
      (hfree.imp_right fun h => h.2 j List.mem_cons_self)
    have ha := Introduction.accepted_of_run hr accepted
    obtain ⟨s, rest⟩ := exists_introduced hc hspelled (r := r') hjs ha.sound
      (ha.within hj hw) <| by
        refine hfree.imp (ha.policy ▸ ·) fun ⟨hnodup, hfree⟩ => ?_
        obtain ⟨hnotin, hnodup⟩ := List.nodup_cons.mp hnodup
        refine ⟨hnodup, fun k hk => ?_⟩
        have hne : k.name ≠ j.name := fun e => hnotin (e ▸ List.mem_map_of_mem hk)
        rw [← hfree k (List.mem_cons_of_mem j hk)]
        exact ha.inUse_eq hne
    exact ⟨s, .cons accepted rest⟩

end Blueprint
