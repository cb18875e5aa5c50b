import Blueprint.Definition.Basic
import Mathlib.Data.List.Nodup

/-!
# What a definition inherits

`Definition.overlay` puts one definition over another that is complete. `Blend ds d` says without
folding anything what a definition `d` is that was put together from the definitions `ds` of a
chain, the nearest first : which of them every field comes from, and which of them has the argument
at a position, a property or a lookup method.

The last definition of a chain, without its parent, blends itself (`blend_root`), and putting a
definition over a blend is the blend of the longer chain (`Blend.overlay`).
-/

namespace Blueprint

universe u v w x

/-! ## Writing entries one after the other -/

/-- Writing entries with different keys leaves under a key the value of its entry, or what was there
before. -/
theorem view_foldl {τ : Type u} {ε : Type v} {κ : Type w} {β : Type x} [DecidableEq κ]
    {write : τ → ε → τ} {key : ε → κ} {value : ε → β} (view : τ → κ → Option β)
    (hwrite : ∀ t e k, view (write t e) k = if k = key e then some (value e) else view t k) :
    ∀ {entries : List ε} (t : τ) (k : κ), (entries.map key).Nodup →
      view (entries.foldl write t) k =
        ((entries.find? fun e => key e = k).map value).or (view t k)
  | [], _, _, _ => rfl
  | e :: entries, t, k, hnodup => by
    obtain ⟨hnew, hnodup⟩ := List.nodup_cons.mp hnodup
    rw [List.foldl_cons, view_foldl view hwrite _ k hnodup, hwrite, List.find?_cons]
    by_cases hk : key e = k
    · -- No later entry has the key, so this one stays.
      have hnone : entries.find? (fun e => key e = k) = none := by
        simp only [List.find?_eq_none, decide_eq_true_eq]
        exact fun e' he' hk' => hnew (hk.trans hk'.symm ▸ List.mem_map_of_mem he')
      simp [hk, hnone]
    · have hk' : k ≠ key e := fun h => hk h.symm
      simp [hk, hk']

theorem Table.get?_insertAll {κ : Type u} {α : Type v} [DecidableEq κ] (t s : Table κ α) (k : κ) :
    (t.insertAll s).get? k = (s.get? k).or (t.get? k) :=
  view_foldl get? (fun t e k => t.get?_insert e.1 k e.2) t k s.keys_nodup

theorem Arguments.at?_addGeneric (args : Arguments) (a : Argument) (i : Nat) :
    (args.addGeneric a).at? i = args.at? i := by
  rw [addGeneric]
  split
  · rfl
  · split <;> rfl

/-- At every position there is the argument of the child, or else that of the parent. -/
theorem Arguments.at?_overlay (child parent : Arguments) (i : Nat) :
    (child.overlay parent).at? i = (child.at? i).or (parent.at? i) := by
  have hgeneric : ∀ (added : List Argument) (args : Arguments),
      (added.foldl addGeneric args).at? i = args.at? i := by
    intro added
    induction added with
    | nil => exact fun _ => rfl
    | cons a added ih => exact fun args => (ih _).trans (at?_addGeneric args a i)
  have hnodup : (child.indexed.map Prod.fst).Nodup :=
    (List.pairwise_map.mpr child.ascending).imp Nat.ne_of_lt
  rw [overlay, hgeneric]
  exact view_foldl at? (fun args e k => args.at?_addIndexed e.1 k e.2) parent i hnodup

namespace Definition

/-- The value that the property of a child has over the value that its parent has. -/
def overlayProperty (own inherited : Option Value) : Option Value :=
  match own, inherited with
  | some own, some inherited => some (own.overlay inherited)
  | some own, none => some own
  | none, inherited => inherited

/-- A property of an overlay depends on the properties under its key alone. -/
theorem get?_overlayProperties (child parent : Table String Value) (key : String) :
    (overlayProperties child parent).get? key =
      overlayProperty (child.get? key) (parent.get? key) := by
  have hchild : child.get? key = (child.entries.find? fun e => e.1 = key).map Prod.snd := rfl
  rw [overlayProperties,
    view_foldl Table.get? (fun t e k => t.get?_insert e.1 k _) parent key child.keys_nodup, hchild]
  cases hfind : child.entries.find? fun e => e.1 = key with
  | none => rfl
  | some e =>
    have hkey : e.1 = key := by simpa using List.find?_some hfind
    rw [Option.map_some, Option.map_some, hkey]
    cases parent.get? key <;> rfl

/-- The names of an overlay are those of both sides. -/
theorem mem_overlayNames : ∀ {child parent : List String} {name : String},
    name ∈ overlayNames child parent ↔ name ∈ child ∨ name ∈ parent
  | [], _, _ => by simp [overlayNames]
  | own :: child, parent, name => by
    have hstep : overlayNames (own :: child) parent =
        overlayNames child (if parent.contains own then parent else parent ++ [own]) := rfl
    rw [hstep, mem_overlayNames]
    split
    · rename_i hown
      have hown : own ∈ parent := by simpa using hown
      constructor
      · exact Or.imp_left (List.mem_cons_of_mem own)
      · rintro (hname | hname)
        · rcases List.mem_cons.mp hname with rfl | hname
          · exact .inr hown
          · exact .inl hname
        · exact .inr hname
    · simp only [List.mem_append, List.mem_cons, List.not_mem_nil, or_false]
      tauto

/-! ## Blends -/

/-- The fields that hold a text. -/
def textFields : List (Definition → Option String) :=
  [className, scope, factoryBean, factoryMethod, initMethod, destroyMethod, description, resource]

/-- The first text that is not empty, and the last entry if there is none. -/
def firstText (texts : List (Option String)) : Option String :=
  (texts.find? fun text => text.any fun s => !s.isEmpty).getD texts.getLast?.join

/-- The value of a property along a chain. The nearest definition that has it decides; a list
that asks to be merged comes behind the list that the rest of the chain makes of the property. -/
def blendedProperty (key : String) : List Definition → Option Value
  | [] => none
  | d :: ds =>
    match d.properties.get? key with
    | none => blendedProperty key ds
    | some (.list items (some true)) =>
      match blendedProperty key ds with
      | some (.list inherited _) => some (.list (inherited ++ items) none)
      | _ => some (.list items (some true))
    | some own => some own

/-- What a definition is that was put together from those of a chain, the nearest first. -/
structure Blend (ds : List Definition) (d : Definition) : Prop where
  texts : ∀ text ∈ textFields, text d = firstText (ds.map text)
  lazyInit : d.lazyInit = ds.findSome? (·.lazyInit)
  primary : d.primary = ds.findSome? (·.primary)
  autowireCandidate : d.autowireCandidate = ds.findSome? (·.autowireCandidate)
  autowireMode : d.autowireMode = ds.findSome? (·.autowireMode)
  isAbstract : ds.head?.map (·.isAbstract) = some d.isAbstract
  role : ds.head?.map (·.role) = some d.role
  parentName : d.parentName = none
  argument : ∀ index, d.arguments.at? index = ds.findSome? (·.arguments.at? index)
  propertyNames : ∀ key, d.properties.contains key = ds.any (·.properties.contains key)
  property : ∀ key, d.properties.get? key = blendedProperty key ds
  lookupNames : ∀ method, d.lookupMethods.contains method =
    ds.any (·.lookupMethods.contains method)
  lookup : ∀ method, d.lookupMethods.get? method = ds.findSome? (·.lookupMethods.get? method)
  dependsOn : ∀ name, name ∈ d.dependsOn ↔ ∃ e ∈ ds, name ∈ e.dependsOn

variable {ds : List Definition} {d inherited : Definition}

theorem firstText_singleton (text : Option String) : firstText [text] = text := by
  rw [firstText, List.find?_cons]
  split <;> rfl

theorem firstText_cons (text : Option String) {texts : List (Option String)} (h : texts ≠ []) :
    firstText (text :: texts) = nearest text (firstText texts) := by
  rw [firstText, firstText, List.find?_cons, List.getLast?_cons_of_ne_nil h]
  cases text with
  | none => rfl
  | some s => cases hs : s.isEmpty <;> simp [nearest, hs]

/-- A property along a longer chain is that of its head over that of the rest. -/
theorem blendedProperty_cons (key : String) (d : Definition) (ds : List Definition) :
    blendedProperty key (d :: ds) =
      overlayProperty (d.properties.get? key) (blendedProperty key ds) := by
  rw [blendedProperty]
  cases d.properties.get? key with
  | none => rfl
  | some own =>
    rcases own with _ | _ | ⟨items, _ | _ | _⟩ | _ <;>
      rcases blendedProperty key ds with _ | _ | _ | _ | _ <;> rfl

theorem contains_overlayProperties (child parent : Table String Value) (key : String) :
    (overlayProperties child parent).contains key =
      (child.contains key || parent.contains key) := by
  simp only [← Table.isSome_get?, get?_overlayProperties]
  cases child.get? key <;> cases parent.get? key <;> rfl

theorem findSome?_cons_eq_or {α β : Type*} (f : α → Option β) (a : α) (as : List α) :
    (a :: as).findSome? f = (f a).or (as.findSome? f) := by
  rw [List.findSome?_cons]
  cases f a <;> rfl

/-- A definition alone, without its parent, blends itself. -/
theorem blend_root (d : Definition) : Blend [d] { d with parentName := none } where
  texts text htext := by
    rw [List.map_singleton, firstText_singleton]
    simp only [textFields, List.mem_cons, List.not_mem_nil, or_false] at htext
    rcases htext with rfl | rfl | rfl | rfl | rfl | rfl | rfl | rfl <;> rfl
  lazyInit := by simp
  primary := by simp
  autowireCandidate := by simp
  autowireMode := by simp
  isAbstract := rfl
  role := rfl
  parentName := rfl
  argument index := by simp
  propertyNames key := by simp
  property key := by
    rw [blendedProperty_cons]
    cases d.properties.get? key <;> rfl
  lookupNames method := by simp
  lookup method := by simp
  dependsOn name := by simp

/-- A definition over a blend blends the longer chain. -/
theorem Blend.overlay (h : Blend ds inherited) (hds : ds ≠ []) (d : Definition) :
    Blend (d :: ds) (d.overlay inherited) where
  texts text htext := by
    have hstep : text (d.overlay inherited) = nearest (text d) (text inherited) := by
      simp only [textFields, List.mem_cons, List.not_mem_nil, or_false] at htext
      rcases htext with rfl | rfl | rfl | rfl | rfl | rfl | rfl | rfl <;> rfl
    rw [hstep, h.texts text htext, List.map_cons, firstText_cons _ (by simpa using hds)]
  lazyInit := by rw [findSome?_cons_eq_or, ← h.lazyInit]; rfl
  primary := by rw [findSome?_cons_eq_or, ← h.primary]; rfl
  autowireCandidate := by rw [findSome?_cons_eq_or, ← h.autowireCandidate]; rfl
  autowireMode := by rw [findSome?_cons_eq_or, ← h.autowireMode]; rfl
  isAbstract := rfl
  role := rfl
  parentName := rfl
  argument index := by
    rw [findSome?_cons_eq_or, ← h.argument]
    exact Arguments.at?_overlay d.arguments inherited.arguments index
  propertyNames key := by
    rw [List.any_cons, ← h.propertyNames]
    exact contains_overlayProperties d.properties inherited.properties key
  property key := by
    rw [blendedProperty_cons, ← h.property]
    exact get?_overlayProperties d.properties inherited.properties key
  lookupNames method := by
    rw [List.any_cons, ← h.lookupNames]
    simp only [← Table.isSome_get?]
    rw [← Option.isSome_or]
    exact congrArg Option.isSome (inherited.lookupMethods.get?_insertAll d.lookupMethods method)
  lookup method := by
    rw [findSome?_cons_eq_or, ← h.lookup]
    exact inherited.lookupMethods.get?_insertAll d.lookupMethods method
  dependsOn name := by
    rw [List.exists_mem_cons_iff, ← h.dependsOn]
    exact mem_overlayNames

end Definition

end Blueprint
