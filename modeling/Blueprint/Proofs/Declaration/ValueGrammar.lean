import Blueprint.Proofs.Declaration.Recipe
import Mathlib.Data.List.Forall2

/-!
# The grammar of values

What an element may carry is a grammar over trees of elements. `Element.IsValue` are the trees that
stand for a value, with lists to any depth, and `Element.SaysValue` are the elements that carry one.
Neither refers to the reading of values. `Element.Mirrors` tells which value a tree stands for : a
list has an item for every child that is no description, in order.

Reading a tree gives the value that mirrors it, and fails if there is none
(`toValue_eq_ok_iff`, `carriedValue_eq_ok_iff`). A tree has such a value just if it is well formed
(`isValue_iff`), and the value refers to the components that the tree names, in document order
(`references_of_mirrors`). Together that is `carriedValue_grammar`.
-/

namespace Blueprint

/-! ## Lists that go together -/

section Pairs

variable {α β : Type} {R : α → β → Prop} {as : List α} {bs : List β}

/-- A relation has a partner for a whole list if it has one for every member. -/
theorem exists_forall₂_iff : (∃ bs, List.Forall₂ R as bs) ↔ ∀ a ∈ as, ∃ b, R a b := by
  induction as with
  | nil => exact ⟨by simp, fun _ => ⟨[], .nil⟩⟩
  | cons a as ih =>
    rw [List.forall_mem_cons, ← ih]
    constructor
    · rintro ⟨_, _ | ⟨hab, hrest⟩⟩
      exact ⟨⟨_, hab⟩, ⟨_, hrest⟩⟩
    · rintro ⟨⟨b, hab⟩, ⟨bs, hrest⟩⟩
      exact ⟨b :: bs, .cons hab hrest⟩

/-- Lists that are put together from partners are the same if the parts are. -/
theorem flatMap_eq_of_forall₂ {γ : Type} {f : α → List γ} {g : β → List γ}
    (h : List.Forall₂ R as bs) (same : ∀ a ∈ as, ∀ b, R a b → g b = f a) :
    bs.flatMap g = as.flatMap f := by
  induction h with
  | nil => rfl
  | cons hab hrest ih =>
    obtain ⟨hfirst, hothers⟩ := List.forall_mem_cons.mp same
    rw [List.flatMap_cons, List.flatMap_cons, hfirst _ hab, ih hothers]

end Pairs

namespace Element

/-- The children that count as values, which are all but descriptions. -/
def items (e : Element) : List Element := e.children.filter fun child => !child.isDescription

/-! ## Trees of values -/

/-- The element and what is in it stand for a value. -/
inductive IsValue : Element → Prop
  | text {e : Element} (name : e.name = "value") : IsValue e
  | null {e : Element} (name : e.name = "null") : IsValue e
  | reference {e : Element} {component : String} (name : e.name = "ref")
      (bean : e.given "bean" = some component) : IsValue e
  | list {e : Element} (name : e.name = "list") (items : ∀ item ∈ e.items, IsValue item) :
      IsValue e

/-- The value has the shape of the tree. A list that does not say itself whether it is merged takes
that from elsewhere. -/
inductive Mirrors (merge : Option Bool) : Element → Value → Prop
  | text {e : Element} (name : e.name = "value") : Mirrors merge e (.literal (e.text.getD ""))
  | null {e : Element} (name : e.name = "null") : Mirrors merge e .null
  | reference {e : Element} {component : String} (name : e.name = "ref")
      (bean : e.given "bean" = some component) : Mirrors merge e (.reference component)
  | list {e : Element} {values : List Value} (name : e.name = "list")
      (items : List.Forall₂ (Mirrors merge) e.items values) :
      Mirrors merge e (.list values (((e.explicit "merge").map Defaults.isTrue).or merge))

mutual

/-- The components that a tree of values names, in document order. -/
def namedComponents : Element → List String
  | ⟨name, attributes, children, text⟩ =>
    match name with
    | "ref" => (given ⟨name, attributes, [], text⟩ "bean").toList
    | "list" => namedComponentsAll children
    | _ => []

/-- The components that trees of values name, in document order. Descriptions name none. -/
def namedComponentsAll : List Element → List String
  | [] => []
  | e :: es => (if e.isDescription then [] else namedComponents e) ++ namedComponentsAll es

end

variable {defaults : Defaults} {merge : Option Bool} {e : Element} {es : List Element} {v : Value}
  {vs : List Value}

theorem namedComponentsAll_eq_flatMap (es : List Element) :
    namedComponentsAll es = (es.filter fun e => !e.isDescription).flatMap namedComponents := by
  induction es with
  | nil => simp [namedComponentsAll]
  | cons e es ih =>
    rw [namedComponentsAll, ih]
    cases he : e.isDescription <;> simp [he]

theorem namedComponents_of_ref (name : e.name = "ref") :
    e.namedComponents = (e.given "bean").toList := by
  obtain ⟨_, attributes, children, text⟩ := e
  obtain rfl : _ = "ref" := name
  rw [namedComponents]
  rfl

theorem namedComponents_of_list (name : e.name = "list") :
    e.namedComponents = e.items.flatMap namedComponents := by
  obtain ⟨_, attributes, children, text⟩ := e
  obtain rfl : _ = "list" := name
  rw [namedComponents]
  exact namedComponentsAll_eq_flatMap children

theorem namedComponents_of_leaf (name : e.name = "value" ∨ e.name = "null") :
    e.namedComponents = [] := by
  obtain ⟨_, attributes, children, text⟩ := e
  obtain rfl | rfl : _ = "value" ∨ _ = "null" := name <;> rfl

/-! ## What a tree stands for -/

theorem mem_children_of_mem_items {item : Element} (h : item ∈ e.items) : item ∈ e.children :=
  List.mem_of_mem_filter h

/-- A tree has a value of its shape just if it is well formed. -/
theorem isValue_iff (merge : Option Bool) (e : Element) : e.IsValue ↔ ∃ v, e.Mirrors merge v := by
  induction e using children_induction with
  | step e ih =>
  have hitems : (∀ item ∈ e.items, item.IsValue) ↔ ∃ values, List.Forall₂ (Mirrors merge) e.items
      values := by
    rw [exists_forall₂_iff]
    exact forall₂_congr fun item hitem => ih item (mem_children_of_mem_items hitem)
  constructor
  · intro h
    cases h with
    | text name => exact ⟨_, .text name⟩
    | null name => exact ⟨_, .null name⟩
    | reference name bean => exact ⟨_, .reference name bean⟩
    | list name items =>
      obtain ⟨values, hvalues⟩ := hitems.mp items
      exact ⟨_, .list name hvalues⟩
  · rintro ⟨v, h⟩
    cases h with
    | text name => exact .text name
    | null name => exact .null name
    | reference name bean => exact .reference name bean
    | list name items => exact .list name (hitems.mpr ⟨_, items⟩)

/-- The value that mirrors a tree refers to the components that the tree names. -/
theorem references_of_mirrors (h : e.Mirrors merge v) : v.references = e.namedComponents := by
  induction e using children_induction generalizing v with
  | step e ih =>
  cases h with
  | text name =>
    rw [namedComponents_of_leaf (.inl name)]
    rfl
  | null name =>
    rw [namedComponents_of_leaf (.inr name)]
    rfl
  | reference name bean =>
    rw [namedComponents_of_ref name, bean]
    rfl
  | @list _ values name items =>
    rw [namedComponents_of_list name, Value.references, Value.referencesList_eq_flatMap]
    exact flatMap_eq_of_forall₂ items fun item hitem v hmirrors =>
      ih item (mem_children_of_mem_items hitem) hmirrors

/-! ## Reading -/

/-- The items of a list are read one after the other, without the descriptions. -/
theorem toValues_eq_ok_iff
    (h : ∀ e ∈ es, ∀ v, e.toValue defaults = .ok v ↔ e.Mirrors merge v) :
    toValues defaults es = .ok vs ↔
      List.Forall₂ (Mirrors merge) (es.filter fun e => !e.isDescription) vs := by
  induction es generalizing vs with
  | nil =>
    rw [toValues, List.filter_nil, List.forall₂_nil_left_iff, Except.ok.injEq, eq_comm]
  | cons e es ih =>
    obtain ⟨he, hes⟩ := List.forall_mem_cons.mp h
    cases hdescription : e.isDescription with
    | true => simp [toValues, hdescription, ih hes]
    | false =>
      simp only [toValues, hdescription, List.filter_cons, Bool.not_false, if_true,
        Bool.false_eq_true, if_false, List.forall₂_cons_left_iff]
      constructor
      · intro hread
        obtain ⟨value, hvalue, hread⟩ := exists_of_bind_eq_ok hread
        obtain ⟨values, hvalues, hread⟩ := exists_of_bind_eq_ok hread
        cases hread
        exact ⟨value, values, (he value).mp hvalue, (ih hes).mp hvalues, rfl⟩
      · rintro ⟨value, values, hvalue, hvalues, rfl⟩
        rw [(he value).mpr hvalue, (ih hes).mpr hvalues]
        rfl

/-- Reading does not look at the children of anything but a list. -/
theorem toValue_eq (defaults : Defaults) (e : Element) : e.toValue defaults =
    match e.name with
    | "value" => .ok (.literal (e.text.getD ""))
    | "ref" =>
      match e.given "bean" with
      | some component => .ok (.reference component)
      | none => .error (.invalidDeclaration .referenceUnnamed)
    | "null" => .ok .null
    | "list" => (toValues defaults e.children).map fun values =>
        .list values (((e.explicit "merge").map Defaults.isTrue).or defaults.mergeLists)
    | other => .error (.invalidDeclaration (.unknownValue other)) := by
  obtain ⟨name, attributes, children, text⟩ := e
  unfold toValue
  rfl

/-- Reading a tree gives just the value of its shape. -/
theorem toValue_eq_ok_iff : e.toValue defaults = .ok v ↔ e.Mirrors defaults.mergeLists v := by
  induction e using children_induction generalizing v with
  | step e ih =>
  have hitems {values : List Value} : toValues defaults e.children = .ok values ↔
      List.Forall₂ (Mirrors defaults.mergeLists) e.items values :=
    toValues_eq_ok_iff fun child hchild v => ih child hchild
  rw [toValue_eq]
  constructor
  · intro hread
    split at hread
    · cases hread
      exact .text ‹_›
    · split at hread
      · cases hread
        exact .reference ‹_› ‹_›
      · cases hread
    · cases hread
      exact .null ‹_›
    · obtain ⟨values, hvalues, rfl⟩ := exists_of_map_eq_ok hread
      exact .list ‹_› (hitems.mp hvalues)
    · cases hread
  · intro h
    cases h with
    | text name => simp only [name]
    | null name => simp only [name]
    | reference name bean => simp only [name, bean]
    | list name items =>
      simp only [name, hitems.mpr items]
      rfl

/-! ## What an element carries -/

/-- The element carries the value in one of the three ways that there are. -/
inductive Carries (merge : Option Bool) (e : Element) : Value → Prop
  | text {text : String} (value : e.attr "value" = some text) (no_ref : e.attr "ref" = none)
      (no_item : e.items = []) : Carries merge e (.literal text)
  | reference {name : String} (no_value : e.attr "value" = none) (ref : e.attr "ref" = some name)
      (no_item : e.items = []) (not_blank : Text.trim name ≠ "") :
      Carries merge e (.reference (Text.trim name))
  | item {item : Element} {v : Value} (no_value : e.attr "value" = none)
      (no_ref : e.attr "ref" = none) (only : e.items = [item]) (mirrors : item.Mirrors merge v) :
      Carries merge e v

/-- The element says one value, in one way, and a way that is allowed. -/
structure SaysValue (e : Element) : Prop where
  at_most_one_item : e.items.length ≤ 1
  /-- An attribute that is blank is there, too. -/
  exactly_one :
    [(e.attr "value").isSome, (e.attr "ref").isSome, !e.items.isEmpty].count true = 1
  ref_not_blank : ∀ name, e.attr "ref" = some name → Text.trim name ≠ ""
  item_isValue : ∀ item ∈ e.items, item.IsValue

/-- The components that are named by what an element carries, in document order. -/
def carriedComponents (e : Element) : List String :=
  ((e.attr "ref").map Text.trim).toList ++ e.items.flatMap namedComponents

variable {carrier : Carrier}

/-- Reading what an element carries gives just the value that it carries. -/
theorem carriedValue_eq_ok_iff :
    e.carriedValue carrier defaults = .ok v ↔ e.Carries defaults.mergeLists v := by
  have hitems : (e.children.filter fun child => !child.isDescription) = e.items := rfl
  rw [carriedValue, hitems]
  constructor
  · intro h
    split at h
    · cases h
    · rename_i hlength
      split at h
      · rename_i hvalue href hhead
        cases h
        exact .text hvalue href (List.head?_eq_none_iff.mp hhead)
      · rename_i name hvalue href hhead
        dsimp only at h
        split at h
        · cases h
        · rename_i hblank
          cases h
          refine .reference hvalue href (List.head?_eq_none_iff.mp hhead) fun hempty => hblank ?_
          rw [hempty]
          rfl
      · rename_i item hvalue href hhead
        obtain ⟨rest, hall⟩ := List.head?_eq_some_iff.mp hhead
        have hrest : rest = [] := by
          rw [hall, List.length_cons] at hlength
          exact List.length_eq_zero_iff.mp (by omega)
        exact .item hvalue href (hrest ▸ hall) (toValue_eq_ok_iff.mp h)
      · cases h
      · cases h
  · intro h
    cases h with
    | text value no_ref no_item => simp [value, no_ref, no_item]
    | reference no_value ref no_item not_blank =>
      simp [no_value, ref, no_item, String.isEmpty_iff, not_blank]
    | item no_value no_ref only mirrors =>
      simp [no_value, no_ref, only, toValue_eq_ok_iff.mpr mirrors]

/-- An element carries a value just if it says one. -/
theorem saysValue_iff (merge : Option Bool) : e.SaysValue ↔ ∃ v, e.Carries merge v := by
  constructor
  · rintro ⟨hlength, hcount, href, hvalue⟩
    -- What is there of the two attributes and the items decides which of the three ways it is.
    rcases hv : e.attr "value" with _ | text <;> rcases hr : e.attr "ref" with _ | name <;>
      rcases hi : e.items with _ | ⟨item, _ | ⟨second, rest⟩⟩ <;>
      simp [hv, hr, hi] at hcount hlength
    · obtain ⟨v, hmirrors⟩ := (isValue_iff merge item).mp (hvalue item (by rw [hi]; simp))
      exact ⟨v, .item hv hr hi hmirrors⟩
    · exact ⟨_, .reference hv hr hi (href name hr)⟩
    · exact ⟨_, .text hv hr hi⟩
  · rintro ⟨v, h⟩
    cases h with
    | text value no_ref no_item =>
      exact ⟨by simp [no_item], by simp [value, no_ref, no_item], by simp [no_ref],
        by simp [no_item]⟩
    | reference no_value ref no_item not_blank =>
      exact ⟨by simp [no_item], by simp [no_value, ref, no_item], by simpa [ref] using not_blank,
        by simp [no_item]⟩
    | item no_value no_ref only mirrors =>
      refine ⟨by simp [only], by simp [no_value, no_ref, only], by simp [no_ref], ?_⟩
      rw [only]
      simpa using (isValue_iff merge _).mpr ⟨v, mirrors⟩

/-- The value refers to the components that the element names, in whichever way it carries it. -/
theorem references_of_carries (h : e.Carries merge v) : v.references = e.carriedComponents := by
  rw [carriedComponents]
  cases h with
  | text value no_ref no_item =>
    rw [no_ref, no_item]
    rfl
  | reference no_value ref no_item not_blank =>
    rw [ref, no_item]
    rfl
  | item no_value no_ref only mirrors =>
    rw [no_ref, only, references_of_mirrors mirrors]
    simp

/-- An element is read just if it says a value, in one of the ways that are allowed. What is read is
the value that it carries, which refers to the components that the element names, in document
order. -/
theorem carriedValue_grammar (e : Element) (carrier : Carrier) (defaults : Defaults) :
    ((∃ v, e.carriedValue carrier defaults = .ok v) ↔ e.SaysValue) ∧
      ∀ v, e.carriedValue carrier defaults = .ok v →
        e.Carries defaults.mergeLists v ∧ v.references = e.carriedComponents := by
  constructor
  · rw [saysValue_iff defaults.mergeLists]
    exact exists_congr fun v => carriedValue_eq_ok_iff
  · intro v hread
    have hcarries := carriedValue_eq_ok_iff.mp hread
    exact ⟨hcarries, references_of_carries hcarries⟩

end Element

end Blueprint
