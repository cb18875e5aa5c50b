import Blueprint.Proofs.Declaration.Unnamed
import Blueprint.Proofs.Registry.Introduction

/-!
# Declarations for an empty registry

In an empty registry nothing is in the way of a declaration. Under every policy it is accepted just
if none of its names is blank, even if an alias is given twice or is the name itself
(`Registry.declare_of_filled`, `Registry.declare_of_blank`).

What is read from an element has no blank name if it is an `id`, or if the component is unnamed. The
values of the `name` attribute end at a few separators only, so that other white space can be left
between them, and be taken for a name. That is the one way to a declaration that cannot be
registered (`registrable_of_readComponent_iff`), and it is closed if the only white space in the
attribute are separators (`registrable_of_separated`).
-/

namespace Blueprint

/-! ## Blank tokens -/

namespace Text

variable {isSeparator : Char → Bool} {cs f : List Char} {c : Char} {s token : String}

theorem mem_of_mem_fields (hf : f ∈ fields isSeparator cs) (hc : c ∈ f) : c ∈ cs := by
  induction cs generalizing f with
  | nil => simp_all [fields]
  | cons first cs ih =>
    simp only [fields] at hf
    split at hf
    · rcases List.mem_cons.mp hf with rfl | hf
      · cases hc
      · exact List.mem_cons_of_mem _ (ih hf hc)
    · cases hfields : fields isSeparator cs with
      | nil => exact absurd hfields (fields_ne_nil _ _)
      | cons g gs =>
        rw [hfields, extendFirst] at hf
        rcases List.mem_cons.mp hf with rfl | hf
        · rcases List.mem_cons.mp hc with rfl | hc
          · exact List.mem_cons_self
          · exact List.mem_cons_of_mem _ (ih (hfields ▸ List.mem_cons_self) hc)
        · exact List.mem_cons_of_mem _ (ih (hfields ▸ List.mem_cons_of_mem _ hf) hc)

/-- A value has a character, and none of its characters is a separator. -/
theorem isBlank_of_mem_tokenize
    (separated : ∀ c ∈ s.toList, isBlankChar c = true → isDelimiter c = true)
    (h : token ∈ tokenize s) : isBlank token = false := by
  obtain ⟨f, hf, rfl⟩ := List.mem_map.mp h
  have hfield : f ∈ fields isDelimiter s.toList := List.mem_of_mem_filter hf
  obtain ⟨c, hc⟩ := List.exists_mem_of_ne_nil f (ne_nil_of_mem_tokens hf)
  refine Bool.eq_false_iff.mpr fun hblank => ?_
  have hcblank : isBlankChar c = true := by
    simp only [isBlank, String.toList_ofList, List.all_eq_true] at hblank
    exact hblank c hc
  have hdelimiter := separated c (mem_of_mem_fields hfield hc) hcblank
  rw [not_isSeparator_of_mem_fields hfield c hc] at hdelimiter
  cases hdelimiter

end Text

/-! ## Nothing but one declaration -/

namespace Names

variable {policy : Policy} {n : Names} {name aliasName : String}

/-- The one name that is defined is the name, and all aliases point at it. -/
structure Lone (name : String) (n : Names) : Prop where
  defined : ∀ x, n.definitions.contains x = true → x = name
  aliases : ∀ a target, n.aliases.get? a = some target → target = name ∧ a ≠ name

/-- One more alias for the only name is accepted, if it is not blank. -/
theorem Lone.exists_pointAlias_eq_ok (h : n.Lone name) (policy : Policy)
    (hname : Text.isBlank name = false) (halias : Text.isBlank aliasName = false) :
    ∃ after, (n.pointAlias policy name aliasName).value = .ok after ∧
      (after.getD n).Lone name := by
  have hend (target : String) : ¬PointsAt n.aliases name target :=
    fun hpoints => (h.aliases name target hpoints).2 rfl
  have hpointable : Pointable policy n name aliasName :=
    { name_not_blank := hname
      alias_not_blank := halias
      undefined := fun hne => Bool.eq_false_iff.mpr fun hd => hne (h.defined aliasName hd)
      same_target := fun _ _ target ht => (h.aliases aliasName target ht).1 }
  obtain ⟨after, hafter⟩ := hpointable.exists_eq_ok fun _ hwalk => by
    obtain ⟨target, hpoints, -⟩ := Relation.TransGen.head'_iff.mp hwalk
    exact hend target hpoints
  obtain ⟨hdefinitions, haliases, -⟩ := tables_of_pointAlias hafter
  refine ⟨after, hafter, fun x hx => h.defined x (hdefinitions ▸ hx), fun a target ht => ?_⟩
  rw [haliases] at ht
  by_cases ha : a = aliasName
  · by_cases hself : aliasName = name
    · simp [ha, hself] at ht
    · rw [if_pos ha, if_neg hself] at ht
      exact ⟨(Option.some.inj ht).symm, ha ▸ hself⟩
  · rw [if_neg ha] at ht
    exact h.aliases a target ht

/-- A blank alias is refused. -/
theorem value_pointAlias_of_blank (policy : Policy) (n : Names)
    (hname : Text.isBlank name = false) (halias : Text.isBlank aliasName = true) :
    (n.pointAlias policy name aliasName).value =
      .error (.invalidAlias name aliasName .blankAlias) := by
  simp [pointAlias, hname, halias]

end Names

/-- What is wrong with the first name of a declaration that is blank. -/
def Declaration.blankFault? (d : Declaration) : Option Error :=
  if Text.isBlank d.name then some (.invalidName d.name .blank)
  else (d.aliases.find? Text.isBlank).map fun a => .invalidAlias d.name a .blankAlias

theorem Declaration.blankFault?_eq_none_iff {d : Declaration} :
    d.blankFault? = none ↔ ∀ x ∈ d.name :: d.aliases, Text.isBlank x = false := by
  rw [blankFault?, List.forall_mem_cons]
  cases Text.isBlank d.name <;> simp

/-- Nothing is there but a declaration. -/
structure Declaration.Alone (d : Declaration) (n : Names) : Prop where
  definitions : n.definitions.entries = [(d.name, d.definition)]
  aliases : ∀ x, n.aliases.get? x = if x ∈ d.aliases ∧ x ≠ d.name then some d.name else none

namespace Registry

variable {r : Registry} {name : String} {aliases : List String} {d : Declaration} {cause : Error}

/-- Aliases of the only name are accepted one after the other, up to the first that is blank. -/
theorem registerAliases_of_lone (h : r.names.Lone name) (aliases : List String)
    (hname : Text.isBlank name = false) :
    ∃ r', (r.registerAliases name aliases).value =
        ((aliases.find? Text.isBlank).map fun a => (a, .invalidAlias name a .blankAlias), r') ∧
      (aliases.find? Text.isBlank = none → ∀ x, r'.names.aliases.get? x =
        if x ∈ aliases ∧ x ≠ name then some name else r.names.aliases.get? x) := by
  induction aliases generalizing r with
  | nil => exact ⟨r, rfl, by simp⟩
  | cons aliasName rest ih =>
    rw [value_registerAliases, List.find?_cons]
    cases halias : Text.isBlank aliasName with
    | true =>
      rw [Names.value_pointAlias_of_blank _ _ hname halias]
      exact ⟨r, rfl, fun h => by cases h⟩
    | false =>
      obtain ⟨after, hafter, hlone⟩ := h.exists_pointAlias_eq_ok r.policy hname halias
      obtain ⟨-, htables, -⟩ := Names.tables_of_pointAlias hafter
      -- The alias that is left out by the rest is the one that was pointed at the name.
      have together (x : String) : (if x ∈ rest ∧ x ≠ name then some name
            else (after.getD r.names).aliases.get? x) =
          if x ∈ aliasName :: rest ∧ x ≠ name then some name else r.names.aliases.get? x := by
        have hplain : r.names.aliases.get? name = none :=
          Option.eq_none_iff_forall_ne_some.mpr fun target ht => (h.aliases name target ht).2 rfl
        rw [htables]
        by_cases hx : x = name
        · subst hx
          by_cases ha : x = aliasName
          · subst ha
            simp [hplain]
          · simp [ha, hplain]
        · by_cases ha : x = aliasName
          · subst ha
            simp [hx]
          · simp [hx, ha]
      rw [hafter]
      cases after with
      | none =>
        obtain ⟨r', hrest, hfound⟩ := ih h
        exact ⟨r', hrest, fun hnone x => (hfound hnone x).trans (together x)⟩
      | some names =>
        obtain ⟨r', hrest, hfound⟩ := ih (r := r.withNames names) hlone
        exact ⟨r', hrest, fun hnone x => (hfound hnone x).trans (together x)⟩

/-- In empty names any name can be defined that is not blank. -/
theorem value_define_of_empty (hempty : r.names = {}) (hname : Text.isBlank d.name = false) :
    (r.names.define r.policy d.name d.definition).value =
      .ok { definitions := Table.empty.insert d.name d.definition } := by
  rw [Names.value_define_of_free r.policy hname (by rw [hempty]; rfl), hempty]
  rfl

theorem lone_of_empty (d : Declaration) :
    Names.Lone d.name { definitions := Table.empty.insert d.name d.definition } where
  defined x hx := by simpa [Table.contains_insert] using hx
  aliases a target ht := nomatch ht

/-- A declaration with a blank name is refused for the first of them, and nothing of it stays. -/
theorem declare_of_blank (hempty : r.names = {}) (h : d.blankFault? = some cause) :
    ∃ r', (r.declare d).value = (.error cause, r') ∧ r'.names = {} := by
  have hanswer : (r.declare d).value.1 = .error cause := by
    rw [Declaration.blankFault?] at h
    rw [value_declare]
    cases hname : Text.isBlank d.name with
    | true =>
      rw [if_pos hname] at h
      simp [Names.define, hname, Option.some.inj h]
    | false =>
      rw [if_neg (by simp [hname])] at h
      obtain ⟨a, hfind, hcause⟩ := Option.map_eq_some_iff.mp h
      obtain ⟨r', haliases, -⟩ := registerAliases_of_lone
        (r := r.withNames { definitions := Table.empty.insert d.name d.definition })
        (lone_of_empty d) d.aliases hname
      simp only [value_define_of_empty hempty hname, haliases, hfind, Option.map_some, hcause]
  have hvalue : (r.declare d).value = (.error cause, (r.declare d).value.2) :=
    Prod.ext hanswer rfl
  refine ⟨_, hvalue, ?_⟩
  rw [names_declare_of_error (hempty ▸ Names.sound_empty) hvalue, hempty]
  split <;> rfl

/-- A declaration without a blank name is accepted, and is all that is there then. -/
theorem declare_of_filled (hempty : r.names = {}) (h : d.blankFault? = none) :
    ∃ r', (r.declare d).value = (.ok (), r') ∧ d.Alone r'.names := by
  obtain ⟨hname, hfilled⟩ := List.forall_mem_cons.mp (Declaration.blankFault?_eq_none_iff.mp h)
  have hfind : d.aliases.find? Text.isBlank = none :=
    List.find?_eq_none.mpr fun a ha => by simp [hfilled a ha]
  obtain ⟨r', haliases, hfound⟩ := registerAliases_of_lone
    (r := r.withNames { definitions := Table.empty.insert d.name d.definition })
    (lone_of_empty d) d.aliases hname
  have hvalue : (r.declare d).value = (.ok (), r') := by
    rw [value_declare]
    simp only [value_define_of_empty hempty hname, haliases, hfind, Option.map_none]
  refine ⟨r', hvalue, ?_, hfound hfind⟩
  rw [definitions_declare_of_ok hvalue, hempty]
  rfl

end Registry

/-! ## Declarations that were read -/

section Reading

variable {declared : Declared} {registered : Names} {location : String} {defaults : Defaults}
  {e : Element} {d : Declaration}

/-- An `id` is never blank, and neither is what an unnamed component is given. -/
theorem not_blank_iff_of_readComponent
    (hread : (declared.readComponent registered location defaults e).value.1 = .ok d) :
    (∀ x ∈ d.name :: d.aliases, Text.isBlank x = false) ↔
      ∀ token ∈ e.tokensOf "name", Text.isBlank token = false := by
  obtain ⟨hrecipe, hstated | ⟨hstated, hnamed⟩⟩ := Declared.readComponent_eq_ok hread
  · rw [Declared.statedNames] at hstated
    split at hstated
    · rename_i id hid
      obtain ⟨hname, haliases⟩ := Prod.mk.inj hstated
      rw [← Option.some.inj hname, haliases]
      simp [Element.isBlank_of_given hid]
    · rename_i htokens
      obtain ⟨hname, haliases⟩ := Prod.mk.inj hstated
      rw [htokens, Option.some.inj hname, haliases]
    · cases hstated
  · have htokens : e.tokensOf "name" = [] := by
      rw [Declared.statedNames] at hstated
      split at hstated <;> first | assumption | cases hstated
    obtain ⟨base, hsource, hd⟩ := Declared.nameRecipe_eq_ok_iff.mp hnamed
    have hclass := (Element.namingAttributes_of_toDefinition hrecipe).1
    have hfresh : d.Fresh registered := hd ▸ Declared.fresh_unnamedDeclaration hsource
      fun className h => Element.isBlank_of_given (hclass ▸ h)
    exact iff_of_true hfresh.not_blank (by simp [htokens])

/-- A declaration that was read is accepted by an empty registry just if no value of the `name`
attribute is blank, which is to say that none of its names is. Then nothing but the declaration is
there, and otherwise nothing at all. -/
theorem registrable_of_readComponent_iff (declared : Declared) {r : Registry}
    (hempty : r.names = {}) (location : String) (defaults : Defaults) (e : Element)
    {d : Declaration}
    (hread : (declared.readComponent r.names location defaults e).value.1 = .ok d) :
    ((∀ x ∈ d.name :: d.aliases, Text.isBlank x = false) ↔
      ∀ token ∈ e.tokensOf "name", Text.isBlank token = false) ∧
    ((r.declare d).value.1 = .ok () ↔
      ∀ token ∈ e.tokensOf "name", Text.isBlank token = false) ∧
    (∀ r', (r.declare d).value = (.ok (), r') → d.Alone r'.names) ∧
    ∀ cause r', (r.declare d).value = (.error cause, r') →
      d.blankFault? = some cause ∧ r'.names = {} := by
  have hblank := not_blank_iff_of_readComponent hread
  refine ⟨hblank, ?_⟩
  cases hfault : d.blankFault? with
  | none =>
    obtain ⟨r', hvalue, halone⟩ := Registry.declare_of_filled hempty hfault
    have hfilled := hblank.mp (Declaration.blankFault?_eq_none_iff.mp hfault)
    rw [hvalue]
    exact ⟨iff_of_true rfl hfilled, fun r'' h => (Prod.mk.inj h).2 ▸ halone,
      fun cause r'' h => nomatch h⟩
  | some cause =>
    obtain ⟨r', hvalue, hnames⟩ := Registry.declare_of_blank hempty hfault
    have hnot : ¬∀ token ∈ e.tokensOf "name", Text.isBlank token = false := fun h => by
      simp [Declaration.blankFault?_eq_none_iff.mpr (hblank.mpr h)] at hfault
    rw [hvalue]
    refine ⟨iff_of_false nofun hnot, nofun, fun cause' r'' h => ?_⟩
    obtain ⟨hcause, hr⟩ := Prod.mk.inj h
    exact ⟨congrArg some (Except.error.inj hcause), hr ▸ hnames⟩

/-- A component whose id comes back among its names, twice. -/
def Element.repetitive : Element where
  name := "component"
  attributes := .ofList
    [("id", " store "), ("name", "cache,store;; cache\tstore"), ("class", "Disk")]

theorem registrable_repetitive :
    ∃ d r', (({} : Declared).readComponent {} "a.xml" {} .repetitive).value.1 = .ok d ∧
      (({} : Registry).declare d).value = (.ok (), r') ∧ d.Alone r'.names ∧
      d.name = "store" ∧ d.aliases = ["cache", "store", "cache", "store"] := by
  have hstated : Declared.statedNames .repetitive =
      (some "store", ["cache", "store", "cache", "store"]) := by decide
  have hread : (({} : Declared).readComponent {} "a.xml" {} .repetitive).value.1 =
      .ok ⟨"store", ["cache", "store", "cache", "store"],
        { className := some "Disk", resource := some "a.xml" }⟩ := by
    rw [Declared.value_readComponent_of_stated hstated]
    rfl
  obtain ⟨-, haccepted, halone, -⟩ :=
    registrable_of_readComponent_iff {} (r := {}) rfl "a.xml" {} .repetitive hread
  have hvalue := Prod.ext (haccepted.mpr (by decide)) rfl
  exact ⟨_, _, hread, hvalue, halone _ hvalue, rfl, rfl⟩

/-- A component whose only name is a space that separates nothing. -/
def Element.spaceNamed : Element where
  name := "component"
  attributes := .ofList [("name", "\u00a0"), ("class", "Disk")]

theorem unregistrable_spaceNamed :
    ∃ d, (({} : Declared).readComponent {} "a.xml" {} .spaceNamed).value.1 = .ok d ∧
      Text.isBlank d.name = true ∧
      (({} : Registry).declare d).value.1 = .error (.invalidName "\u00a0" .blank) := by
  have hstated : Declared.statedNames .spaceNamed = (some "\u00a0", []) := by decide
  refine ⟨⟨"\u00a0", [], { className := some "Disk", resource := some "a.xml" }⟩, ?_, rfl, rfl⟩
  rw [Declared.value_readComponent_of_stated hstated]
  rfl

/-- Where all white space in the `name` attribute separates names, what was read is accepted. -/
theorem registrable_of_separated {r : Registry} (hempty : r.names = {})
    (hread : (declared.readComponent r.names location defaults e).value.1 = .ok d)
    (separated : ∀ text, e.attr "name" = some text →
      ∀ c ∈ text.toList, Text.isBlankChar c = true → Text.isDelimiter c = true) :
    ∃ r', (r.declare d).value = (.ok (), r') ∧ d.Alone r'.names := by
  have hfilled : ∀ token ∈ e.tokensOf "name", Text.isBlank token = false := by
    intro token htoken
    rw [Element.tokensOf] at htoken
    cases htext : e.attr "name" with
    | none => simp [htext] at htoken
    | some text =>
      rw [htext] at htoken
      exact Text.isBlank_of_mem_tokenize (separated text htext) htoken
  exact Registry.declare_of_filled hempty
    (Declaration.blankFault?_eq_none_iff.mpr ((not_blank_iff_of_readComponent hread).mpr hfilled))

end Reading

end Blueprint
