import Blueprint.Proofs.Declaration.Recipe
import Blueprint.Proofs.Definition.MatchedArguments
import Mathlib.Data.List.Induction

/-!
# Constructor arguments of a component

A `constructor-arg` child of a component has a position (`Element.position?`), or it is matched by a
type or a name, or it is bare. `Arguments.Holds` says what the arguments of a recipe are after some
of these children were read : those with a position are found there, and the bare ones are among the
others with their values, each value where it came first. One more child keeps that up
(`Holds.readArgument`), since a matched argument replaces none but a matched one.

So a component that was read has lost no argument with a position, and of the bare ones it has lost
those whose value came before (`arguments_of_readComponent`).
-/

namespace Blueprint

/-! ## Values that come again -/

section Repetition

variable {α : Type} [DecidableEq α] {as : List α} {a : α}

theorem eraseDups_concat (as : List α) (a : α) :
    (as ++ [a]).eraseDups = if a ∈ as then as.eraseDups else as.eraseDups ++ [a] := by
  rw [List.eraseDups_append]
  by_cases h : a ∈ as <;> simp [List.removeAll, h, List.eraseDups_cons]

/-- What is left without repetition holds nothing twice. -/
theorem nodup_eraseDups (as : List α) : as.eraseDups.Nodup := by
  induction as using List.reverseRecOn with
  | nil => simp
  | append_singleton as a ih =>
    rw [eraseDups_concat]
    split
    · exact ih
    · rename_i hnew
      refine List.nodup_append.mpr ⟨ih, by simp, fun x hx y hy hxy => hnew ?_⟩
      rw [← List.mem_singleton.mp hy, ← hxy]
      exact List.mem_eraseDups.mp hx

/-- Nothing is dropped just if nothing comes again. -/
theorem eraseDups_eq_self_iff : as.eraseDups = as ↔ as.Nodup := by
  refine ⟨fun h => h ▸ nodup_eraseDups as, fun h => ?_⟩
  induction as using List.reverseRecOn with
  | nil => rfl
  | append_singleton as a ih =>
    obtain ⟨has, -, hnew⟩ := List.nodup_append.mp h
    rw [eraseDups_concat, if_neg fun ha => hnew a ha a (List.mem_singleton_self a) rfl, ih has]

end Repetition

/-! ## Children that are arguments -/

namespace Element

/-- The position that an argument is given. -/
def position? (e : Element) : Option Nat := (e.given "index").bind readIndex?

/-- The argument has neither a position nor a type nor a name. -/
def isBare (e : Element) : Bool :=
  (e.given "index").isNone && (e.given "type").isNone && (e.given "name").isNone

/-- The argument that a `constructor-arg` element says. -/
def toArgument (e : Element) (defaults : Defaults) : Except Error Argument :=
  (e.carriedValue .argument defaults).map fun value => ⟨value, e.given "type", e.given "name"⟩

/-- The arguments of a component element, in document order. -/
def constructorArguments (e : Element) : List Element := e.childrenNamed "constructor-arg"

end Element

variable {defaults : Defaults} {location : String} {d d' : Definition} {e child : Element}
  {children : List Element} {args : Arguments} {a : Argument}

/-- What reading an argument does : it has a position that is free and is set there, or it has none
and is added to the others. -/
theorem Definition.readArgument_eq_ok (h : d.readArgument defaults e = .ok d') :
    ∃ a, e.toArgument defaults = .ok a ∧
      ((e.given "index" = none ∧ d'.arguments = d.arguments.addGeneric a) ∨
        ∃ text index, e.given "index" = some text ∧ readIndex? text = some index ∧
          d.arguments.hasIndex index = false ∧ d'.arguments = d.arguments.addIndexed index a) := by
  obtain ⟨value, hvalue, h⟩ := exists_of_bind_eq_ok h
  refine ⟨⟨value, e.given "type", e.given "name"⟩, by rw [Element.toArgument, hvalue]; rfl, ?_⟩
  cases htext : e.given "index" with
  | none =>
    simp only [htext] at h
    exact .inl ⟨rfl, (congrArg Definition.arguments (Except.ok.inj h)).symm⟩
  | some text =>
    simp only [htext] at h
    cases hindex : readIndex? text with
    | none => simp [hindex] at h
    | some index =>
      cases hfree : d.arguments.hasIndex index with
      | true => simp [hindex, hfree] at h
      | false =>
        simp only [hindex, hfree, Bool.false_eq_true, if_false] at h
        exact .inr ⟨text, index, rfl, hindex, hfree,
          (congrArg Definition.arguments (Except.ok.inj h)).symm⟩

/-- Other children add no argument. -/
theorem Definition.arguments_of_readChild (hname : child.name ≠ "constructor-arg")
    (h : d.readChild defaults child = .ok d') : d'.arguments = d.arguments := by
  rw [readChild] at h
  split at h
  · exact absurd ‹_› hname
  · rw [readProperty] at h
    split at h
    · cases h
    · split at h
      · cases h
      · obtain ⟨value, -, h⟩ := exists_of_bind_eq_ok h
        cases h
        rfl
  · rw [readLookup] at h
    split at h <;> cases h
    rfl
  · cases h
    rfl
  · cases h
    rfl

namespace Arguments

/-- The arguments that are matched by nothing. -/
def unhinted (args : Arguments) : List Argument := args.generic.filter fun a => !a.hasHint

/-! ## Adding an argument -/

/-- To replace an argument with a hint changes none without. -/
theorem filter_replaceHinted (ha : a.hasHint = true) (bs : List Argument) :
    (replaceHinted a bs).filter (fun b => !b.hasHint) = bs.filter fun b => !b.hasHint := by
  induction bs with
  | nil => rfl
  | cons b bs ih =>
    rw [replaceHinted]
    split
    · rename_i hsame
      have hb : b.hasHint = true := by
        simp only [Argument.sameHint, Bool.and_eq_true] at hsame
        exact hsame.1.1
      simp [ha, hb]
    · rw [List.filter_cons, List.filter_cons, ih]

/-- A matched argument leaves those that are matched by nothing as they are. -/
theorem unhinted_addGeneric_of_hint (ha : a.hasHint = true) :
    (args.addGeneric a).unhinted = args.unhinted := by
  rw [addGeneric]
  split
  · exact filter_replaceHinted ha args.generic
  · split
    · rfl
    · simp [unhinted, ha]

/-- An argument that is matched by nothing is added unless it is there. -/
theorem unhinted_addGeneric_of_bare (ha : a.hasHint = false) :
    (args.addGeneric a).unhinted =
      if a ∈ args.unhinted then args.unhinted else args.unhinted ++ [a] := by
  have hnone : args.generic.any (·.sameHint a) = false := by
    refine List.any_eq_false.mpr fun b _ hb => ?_
    simp only [Argument.sameHint, Argument.hasHint, Bool.and_eq_true, beq_iff_eq] at hb ha
    rw [hb.1.2, hb.2] at hb
    simp [ha] at hb
  have hmem : a ∈ args.unhinted ↔ args.generic.contains a = true := by
    simp [unhinted, ha]
  rw [addGeneric, hnone, if_neg (by simp)]
  by_cases h : args.generic.contains a = true
  · rw [if_pos h, if_pos (hmem.mpr h)]
  · rw [if_neg h, if_neg fun hm => h (hmem.mp hm)]
    simp [unhinted, ha]

theorem at?_eq_none_of_hasIndex {index : Nat} (h : args.hasIndex index = false) :
    args.at? index = none := by
  rw [at?, Option.map_eq_none_iff, List.find?_eq_none]
  exact List.any_eq_false.mp h

/-! ## Arguments that were read -/

/-- The arguments are those that some elements say, in order. -/
structure Holds (defaults : Defaults) (children : List Element) (args : Arguments) : Prop where
  /-- Every value of a bare argument is there, at the place where it came first. -/
  bare : ∃ values : List Value,
    (children.filter Element.isBare).map (·.carriedValue .argument defaults) = values.map .ok ∧
      args.unhinted = values.eraseDups.map .ofValue
  /-- Whatever has an index has a position, and is found there. -/
  placed : ∀ child ∈ children, ∀ text, child.given "index" = some text →
    ∃ index a, readIndex? text = some index ∧ child.toArgument defaults = .ok a ∧
      args.at? index = some a
  /-- What is found at a position was given it. -/
  found : ∀ index a, args.at? index = some a →
    ∃ child ∈ children, child.position? = some index ∧ child.toArgument defaults = .ok a
  distinct : (children.filterMap Element.position?).Nodup

theorem holds_nil (defaults : Defaults) : Holds defaults [] empty where
  bare := ⟨[], rfl, rfl⟩
  placed := by simp
  found := nofun
  distinct := by simp

theorem ofValue_injective : Function.Injective Argument.ofValue :=
  fun _ _ h => congrArg Argument.value h

/-- An argument without a position. -/
theorem Holds.addGeneric (h : Holds defaults children args) (hindex : child.given "index" = none)
    (ha : child.toArgument defaults = .ok a) :
    Holds defaults (children ++ [child]) (args.addGeneric a) where
  bare := by
    obtain ⟨values, hread, hunhinted⟩ := h.bare
    obtain ⟨value, hvalue, rfl⟩ := exists_of_map_eq_ok ha
    have hhint : Argument.hasHint ⟨value, child.given "type", child.given "name"⟩ =
        !child.isBare := by
      simp [Argument.hasHint, Element.isBare, hindex]
    rw [List.filter_append, List.filter_singleton]
    cases hbare : child.isBare with
    | false =>
      refine ⟨values, by simpa using hread, ?_⟩
      rw [unhinted_addGeneric_of_hint (by rw [hhint, hbare]; rfl), hunhinted]
    | true =>
      have hplain :
          (⟨value, child.given "type", child.given "name"⟩ : Argument) = .ofValue value := by
        simp only [Element.isBare, Bool.and_eq_true, Option.isNone_iff_eq_none] at hbare
        rw [hbare.1.2, hbare.2]
        rfl
      refine ⟨values ++ [value], by simp [hread, hvalue], ?_⟩
      rw [unhinted_addGeneric_of_bare (by rw [hhint, hbare]; rfl), hplain, hunhinted,
        eraseDups_concat]
      simp only [List.mem_map_of_injective ofValue_injective, List.mem_eraseDups]
      split <;> simp
  placed child' hchild' text htext := by
    rcases List.mem_append.mp hchild' with hold | hnew
    · obtain ⟨index, a', hposition, ha', hat⟩ := h.placed child' hold text htext
      exact ⟨index, a', hposition, ha', (at?_addGeneric args a index).trans hat⟩
    · rw [List.mem_singleton.mp hnew, hindex] at htext
      cases htext
  found index a' hat := by
    obtain ⟨child', hchild', hfound⟩ := h.found index a' ((at?_addGeneric args a index) ▸ hat)
    exact ⟨child', List.mem_append_left _ hchild', hfound⟩
  distinct := by
    simpa [Element.position?, hindex] using h.distinct

/-- An argument with a position that is free. -/
theorem Holds.addIndexed (h : Holds defaults children args) {text : String} {index : Nat}
    (htext : child.given "index" = some text) (hindex : readIndex? text = some index)
    (hfree : args.hasIndex index = false) (ha : child.toArgument defaults = .ok a) :
    Holds defaults (children ++ [child]) (args.addIndexed index a) := by
  have hposition : child.position? = some index := by
    rw [Element.position?, htext]
    exact hindex
  have hnone := at?_eq_none_of_hasIndex hfree
  -- A child with this position would have filled it.
  have hnew : index ∉ children.filterMap Element.position? := fun hmem => by
    obtain ⟨child', hchild', hposition'⟩ := List.mem_filterMap.mp hmem
    obtain ⟨text', htext', hindex'⟩ := Option.bind_eq_some_iff.mp hposition'
    obtain ⟨index', a', hread, -, hat⟩ := h.placed child' hchild' text' htext'
    rw [Option.some.inj (hread.symm.trans hindex'), hnone] at hat
    cases hat
  exact
  { bare := by
      obtain ⟨values, hread, hunhinted⟩ := h.bare
      exact ⟨values, by simpa [Element.isBare, htext] using hread, hunhinted⟩
    placed := fun child' hchild' text' htext' => by
      rcases List.mem_append.mp hchild' with hold | hlast
      · obtain ⟨index', a', hread, ha', hat⟩ := h.placed child' hold text' htext'
        refine ⟨index', a', hread, ha', ?_⟩
        rw [at?_addIndexed, if_neg, hat]
        rintro rfl
        rw [hnone] at hat
        cases hat
      · rw [List.mem_singleton.mp hlast] at htext' ⊢
        obtain rfl := Option.some.inj (htext.symm.trans htext')
        exact ⟨index, a, hindex, ha, by rw [at?_addIndexed, if_pos rfl]⟩
    found := fun index' a' hat => by
      rw [at?_addIndexed] at hat
      split at hat
      · rename_i heq
        exact ⟨child, by simp, heq ▸ hposition, Option.some.inj hat ▸ ha⟩
      · obtain ⟨child', hchild', hfound⟩ := h.found index' a' hat
        exact ⟨child', List.mem_append_left _ hchild', hfound⟩
    distinct := by
      rw [List.filterMap_append]
      refine List.nodup_append.mpr ⟨h.distinct, by simp [hposition], fun x hx y hy hxy => ?_⟩
      simp only [List.filterMap_cons, hposition, List.filterMap_nil, List.mem_singleton] at hy
      exact hnew (hy ▸ hxy ▸ hx) }

/-- One more child is read : it has a position that was free, or it is added to the others. -/
theorem Holds.readArgument (h : Holds defaults children d.arguments)
    (hread : d.readArgument defaults child = .ok d') :
    Holds defaults (children ++ [child]) d'.arguments := by
  obtain ⟨a, ha, ⟨hindex, hadded⟩ | ⟨text, index, htext, hindex, hfree, hadded⟩⟩ :=
    Definition.readArgument_eq_ok hread
  · exact hadded ▸ h.addGeneric hindex ha
  · exact hadded ▸ h.addIndexed htext hindex hfree ha

/-- Children are read one after the other, and only `constructor-arg` children say arguments. -/
theorem Holds.foldlM_readChild {others : List Element} (h : Holds defaults children d.arguments)
    (hread : others.foldlM (Definition.readChild defaults) d = .ok d') :
    Holds defaults (children ++ others.filter (·.name = "constructor-arg")) d'.arguments := by
  induction others generalizing children d with
  | nil =>
    cases hread
    simpa using h
  | cons child rest ih =>
    obtain ⟨next, hchild, hrest⟩ := exists_of_bind_eq_ok hread
    by_cases hname : child.name = "constructor-arg"
    · have hargument : d.readArgument defaults child = .ok next := by
        rw [Definition.readChild, hname] at hchild
        exact hchild
      have hall := ih (h.readArgument hargument) hrest
      rw [List.append_assoc] at hall
      simpa [hname] using hall
    · have hsame := Definition.arguments_of_readChild hname hchild
      have hall := ih (hsame ▸ h) hrest
      simpa [hname] using hall

/-- A child adds an argument, or leaves the arguments alone. -/
theorem Built.readChild (h : d.arguments.Built) (hread : d.readChild defaults child = .ok d') :
    d'.arguments.Built := by
  by_cases hname : child.name = "constructor-arg"
  · rw [Definition.readChild, hname] at hread
    obtain ⟨a, -, ⟨-, hadded⟩ | ⟨_, index, -, -, -, hadded⟩⟩ := Definition.readArgument_eq_ok hread
    · exact hadded ▸ h.addGeneric a
    · exact hadded ▸ h.addIndexed index a
  · exact Definition.arguments_of_readChild hname hread ▸ h

theorem Built.foldlM_readChild (h : d.arguments.Built)
    (hread : children.foldlM (Definition.readChild defaults) d = .ok d') : d'.arguments.Built := by
  induction children generalizing d with
  | nil =>
    cases hread
    exact h
  | cons child rest ih =>
    obtain ⟨next, hchild, hrest⟩ := exists_of_bind_eq_ok hread
    exact ih (h.readChild hchild) hrest

end Arguments

/-- The arguments of a recipe are those that its element says. -/
theorem Element.holds_of_toDefinition (h : e.toDefinition defaults location = .ok d) :
    Arguments.Holds defaults e.constructorArguments d.arguments := by
  obtain ⟨start, hstart, hchildren⟩ := exists_of_bind_eq_ok h
  have hempty : start.arguments = .empty :=
    (congrArg Definition.arguments (attributePart_of_recipeAttributes hstart)).symm
  exact (hempty ▸ Arguments.holds_nil defaults).foldlM_readChild hchildren

/-- The arguments of a component that was read were added one after the other. -/
theorem Element.built_of_toDefinition (h : e.toDefinition defaults location = .ok d) :
    d.arguments.Built := by
  obtain ⟨start, hstart, hchildren⟩ := exists_of_bind_eq_ok h
  have hempty : start.arguments = .empty :=
    (congrArg Definition.arguments (attributePart_of_recipeAttributes hstart)).symm
  exact (hempty ▸ Arguments.Built.empty : start.arguments.Built).foldlM_readChild hchildren

/-- Of the bare arguments of a component that was read every value is there, where it came first, so
that none is lost just if no two carry the same. Every argument with an index is found at its
position, no two have the same one, and nothing else has a position. -/
theorem arguments_of_readComponent (declared : Declared) (registered : Names) (location : String)
    (defaults : Defaults) (e : Element) {d : Declaration}
    (hread : (declared.readComponent registered location defaults e).value.1 = .ok d) :
    (∃ values : List Value, (e.constructorArguments.filter Element.isBare).map
        (·.carriedValue .argument defaults) = values.map .ok ∧
      d.definition.arguments.unhinted = values.eraseDups.map .ofValue ∧
      (d.definition.arguments.unhinted = values.map .ofValue ↔ values.Nodup)) ∧
    (∀ child ∈ e.constructorArguments, ∀ text, child.given "index" = some text →
      ∃ index a, readIndex? text = some index ∧ child.toArgument defaults = .ok a ∧
        d.definition.arguments.at? index = some a) ∧
    (∀ index a, d.definition.arguments.at? index = some a →
      ∃ child ∈ e.constructorArguments, child.position? = some index ∧
        child.toArgument defaults = .ok a) ∧
    (e.constructorArguments.filterMap Element.position?).Nodup := by
  have hholds := Element.holds_of_toDefinition (Declared.readComponent_eq_ok hread).1
  obtain ⟨values, hvalues, hunhinted⟩ := hholds.bare
  refine ⟨⟨values, hvalues, hunhinted, ?_⟩, hholds.placed, hholds.found, hholds.distinct⟩
  rw [hunhinted, Arguments.ofValue_injective.list_map.eq_iff, eraseDups_eq_self_iff]

/-- An argument with a text, and with other attributes. -/
def Element.argument (text : String) (others : List (String × String)) : Element :=
  { name := "constructor-arg", attributes := .ofList (("value", text) :: others) }

/-- A component with arguments of all kinds. -/
def Element.mixed : Element :=
  { name := "component", attributes := .ofList [("id", "pool"), ("class", "Pool")]
    children := [.argument "disk" [], .argument "8" [("index", "+1")],
      .argument "1" [("type", "int")], .argument "memory" [], .argument "2" [("type", "int")],
      .argument "disk" [("index", " 0 ")]] }

theorem arguments_of_mixed :
    ∃ d, (({} : Declared).readComponent {} "a.xml" {} .mixed).value.1 = .ok d ∧
      d.definition.arguments.unhinted = [.ofValue (.literal "disk"), .ofValue (.literal "memory")] ∧
      d.definition.arguments.generic.length = 3 ∧
      d.definition.arguments.at? 0 = some (.ofValue (.literal "disk")) := by
  obtain ⟨d, hread, hlength⟩ : ∃ d,
      (({} : Declared).readComponent {} "a.xml" {} .mixed).value.1 = .ok d ∧
        d.definition.arguments.generic.length = 3 := ⟨_, rfl, rfl⟩
  obtain ⟨⟨values, hvalues, -, hkept⟩, hplaced, -⟩ :=
    arguments_of_readComponent {} {} "a.xml" {} .mixed hread
  have hsaid : values.map (Except.ok (ε := Error)) = [.literal "disk", .literal "memory"].map .ok :=
    hvalues.symm
  obtain rfl := (List.map_injective_iff.mpr fun _ _ => Except.ok.inj) hsaid
  obtain ⟨index, a, hindex, ha, hat⟩ := hplaced (.argument "disk" [("index", " 0 ")])
    (by simp [Element.constructorArguments, Element.childrenNamed, Element.mixed, Element.argument])
    "0" (by decide)
  have hzero : readIndex? "0" = some 0 := by decide
  obtain rfl : 0 = index := Option.some.inj (hzero.symm.trans hindex)
  refine ⟨d, hread, hkept.mpr (by decide), hlength, hat.trans ?_⟩
  exact congrArg some (Except.ok.inj ha).symm

/-- A component that is given the same value twice. -/
def Element.twins : Element :=
  { name := "component", attributes := .ofList [("id", "area"), ("class", "Area")]
    children := [.argument "1" [], .argument "1" []] }

theorem lostArgument_of_twins :
    ∃ d, (({} : Declared).readComponent {} "a.xml" {} .twins).value.1 = .ok d ∧
      (Element.twins.constructorArguments.filter Element.isBare).map
        (·.carriedValue .argument {}) = [.literal "1", .literal "1"].map .ok ∧
      d.definition.arguments.unhinted = [.ofValue (.literal "1")] :=
  ⟨_, rfl, rfl, rfl⟩

end Blueprint
