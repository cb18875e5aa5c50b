import Blueprint.Proofs.Definition.MatchedArguments

/-!
# What a definition mentions

A definition mentions other components in five places : `Mentions` has one constructor for each. A
definition over another one mentions what either of the two does (`Mentions.of_overlay`). It still
mentions all that it did before (`Mentions.overlay`), unless its factory is the empty name, which
gives way to the factory of the other.
-/

namespace Blueprint

variable {name : String}

/-- A value over the one it inherits refers to its own components, and behind the inherited ones if
it is appended to them. -/
theorem Value.references_overlay (own inherited : Value) :
    (own.overlay inherited).references = own.references ∨
      (own.overlay inherited).references = inherited.references ++ own.references := by
  rcases own with text | name | ⟨items, _ | _ | _⟩ | _
  · exact .inl rfl
  · exact .inl rfl
  · exact .inl rfl
  · exact .inl rfl
  · rcases inherited with text | name | ⟨first, merge⟩ | _
    · exact .inl rfl
    · exact .inl rfl
    · refine .inr ?_
      simp only [overlay, references, referencesList_eq_flatMap, List.flatMap_append]
    · exact .inl rfl
  · exact .inl rfl

theorem Table.mem_values_iff {κ α : Type} [DecidableEq κ] {t : Table κ α} {a : α} :
    a ∈ t.values ↔ ∃ k, t.get? k = some a := by
  constructor
  · intro h
    obtain ⟨e, he, rfl⟩ := List.mem_map.mp h
    exact ⟨e.1, mem_entries_iff.mp he⟩
  · rintro ⟨k, hk⟩
    exact List.mem_map_of_mem (f := Prod.snd) (mem_entries_iff.mpr hk)

/-- The factory that is nearer to a child is that of the child or that of the parent. -/
theorem or_of_nearest_eq_some {own inherited : Option String}
    (h : nearest own inherited = some name) : own = some name ∨ inherited = some name := by
  cases own with
  | none => exact .inr h
  | some text =>
    simp only [nearest] at h
    split at h
    · exact .inr h
    · exact .inl h

theorem nearest_of_ne_empty {inherited : Option String} (h : some name ≠ some "") :
    nearest (some name) inherited = some name := by
  have hname : name.isEmpty = false := by simpa using h
  simp only [nearest, hname, Bool.false_eq_true, if_false]

namespace Definition

variable {d child parent : Definition}

/-- A definition mentions a component. -/
inductive Mentions (d : Definition) (name : String) : Prop
  /-- It depends on the component. -/
  | dependsOn (h : name ∈ d.dependsOn)
  | argument {a : Argument} (ha : a ∈ d.arguments.toList) (h : name ∈ a.value.references)
  | property {key : String} {v : Value} (hv : d.properties.get? key = some v)
    (h : name ∈ v.references)
  /-- One of its methods returns the component. -/
  | lookup {method : String} (h : d.lookupMethods.get? method = some name)
  | factory (h : d.factoryBean = some name)

/-- The names that a definition lists are those that it mentions. -/
theorem mem_referencedNames_iff : name ∈ d.referencedNames ↔ d.Mentions name := by
  simp only [referencedNames, List.mem_append, List.mem_flatMap, Option.mem_toList,
    Table.mem_values_iff]
  constructor
  · rintro ((((h | ⟨a, ha, h⟩) | ⟨v, ⟨key, hv⟩, h⟩) | ⟨method, h⟩) | h)
    · exact .dependsOn h
    · exact .argument ha h
    · exact .property hv h
    · exact .lookup h
    · exact .factory h
  · intro h
    cases h with
    | dependsOn h => exact .inl (.inl (.inl (.inl h)))
    | argument ha h => exact .inl (.inl (.inl (.inr ⟨_, ha, h⟩)))
    | property hv h => exact .inl (.inl (.inr ⟨_, ⟨_, hv⟩, h⟩))
    | lookup h => exact .inl (.inr ⟨_, h⟩)
    | factory h => exact .inr h

/-- A definition over another mentions what one of the two does. -/
theorem Mentions.of_overlay (hchild : child.arguments.Built) (hparent : parent.arguments.Built)
    (h : (child.overlay parent).Mentions name) : child.Mentions name ∨ parent.Mentions name := by
  cases h with
  | dependsOn h => exact (mem_overlayNames.mp h).imp .dependsOn .dependsOn
  | argument ha h =>
    exact (Arguments.mem_toList_overlay hchild hparent ha).imp (.argument · h) (.argument · h)
  | @property key v hv h =>
    have hget := (get?_overlayProperties child.properties parent.properties key).symm.trans hv
    cases hown : child.properties.get? key with
    | none =>
      rw [hown] at hget
      exact .inr (.property hget h)
    | some own =>
      cases hinherited : parent.properties.get? key with
      | none =>
        rw [hown, hinherited] at hget
        exact .inl (.property (hown.trans hget) h)
      | some inherited =>
        rw [hown, hinherited] at hget
        obtain rfl := Option.some.inj hget
        rcases own.references_overlay inherited with heq | heq
        · exact .inl (.property hown (heq ▸ h))
        · rw [heq] at h
          exact (List.mem_append.mp h).symm.imp (.property hown) (.property hinherited)
  | @lookup method h =>
    have hget := (parent.lookupMethods.get?_insertAll child.lookupMethods method).symm.trans h
    rcases Option.or_eq_some_iff.mp hget with hown | ⟨-, hinherited⟩
    · exact .inl (.lookup hown)
    · exact .inr (.lookup hinherited)
  | factory h => exact (or_of_nearest_eq_some h).imp .factory .factory

/-- What a definition mentions, it mentions over another one as well. -/
theorem Mentions.overlay (hchild : child.arguments.Built) (hparent : parent.arguments.Built)
    (hfactory : child.factoryBean ≠ some "") (h : child.Mentions name) :
    (child.overlay parent).Mentions name := by
  cases h with
  | dependsOn h => exact .dependsOn (mem_overlayNames.mpr (.inl h))
  | argument ha h => exact .argument (Arguments.toList_subset_overlay hchild hparent ha) h
  | @property key own hown h =>
    have hget := get?_overlayProperties child.properties parent.properties key
    rw [hown] at hget
    cases hinherited : parent.properties.get? key with
    | none =>
      rw [hinherited] at hget
      exact .property hget h
    | some inherited =>
      rw [hinherited] at hget
      refine .property hget ?_
      rcases own.references_overlay inherited with heq | heq
      · exact heq ▸ h
      · exact heq ▸ List.mem_append_right _ h
  | @lookup method h =>
    have hget := parent.lookupMethods.get?_insertAll child.lookupMethods method
    rw [h, Option.some_or] at hget
    exact .lookup hget
  | factory h =>
    refine .factory ?_
    rw [h] at hfactory
    exact (congrArg (nearest · parent.factoryBean) h).trans (nearest_of_ne_empty hfactory)

/-- No name comes in that neither definition lists. -/
theorem mem_referencedNames_of_overlay (hchild : child.arguments.Built)
    (hparent : parent.arguments.Built) (h : name ∈ (child.overlay parent).referencedNames) :
    name ∈ child.referencedNames ∨ name ∈ parent.referencedNames := by
  simp only [mem_referencedNames_iff] at h ⊢
  exact h.of_overlay hchild hparent

/-- A definition keeps the names that it lists when it is put over another one. -/
theorem referencedNames_subset_overlay (hchild : child.arguments.Built)
    (hparent : parent.arguments.Built) (hfactory : child.factoryBean ≠ some "") :
    child.referencedNames ⊆ (child.overlay parent).referencedNames := by
  intro name h
  rw [mem_referencedNames_iff] at h ⊢
  exact h.overlay hchild hparent hfactory

end Definition

end Blueprint
