import Blueprint.Proofs.Declaration.ConstructorArguments
import Blueprint.Proofs.Declaration.ValueGrammar

/-!
# Where the values of a recipe come from

A child of a component element adds an argument or a property with the value that it carries, or it
adds no value (`Definition.readChild_cases`). An argument may replace another one. So all values of
a recipe that was read are carried by children of its element (`Element.injects_of_toDefinition`),
and how their lists are merged is said in them or by the defaults.
-/

namespace Blueprint

variable {defaults : Defaults} {merge : Option Bool} {location : String} {d d' : Definition}
  {e child : Element} {children : List Element}

namespace Arguments

variable {args : Arguments} {a b : Argument}

theorem mem_replaceHinted {bs : List Argument} (h : b ∈ replaceHinted a bs) : b = a ∨ b ∈ bs := by
  induction bs with
  | nil => cases h
  | cons first bs ih =>
    rw [replaceHinted] at h
    split at h
    · exact (List.mem_cons.mp h).imp_right (List.mem_cons_of_mem _)
    · rcases List.mem_cons.mp h with rfl | h
      · exact .inr List.mem_cons_self
      · exact (ih h).imp_right (List.mem_cons_of_mem _)

/-- An argument that is added replaces others and brings no other value. -/
theorem mem_toList_addGeneric (h : b ∈ (args.addGeneric a).toList) : b = a ∨ b ∈ args.toList := by
  rw [addGeneric] at h
  simp only [toList] at h ⊢
  split at h
  · rcases List.mem_append.mp h with h | h
    · exact .inr (List.mem_append_left _ h)
    · exact (mem_replaceHinted h).imp_right (List.mem_append_right _)
  · split at h
    · exact .inr h
    · rw [← List.append_assoc, List.mem_append, List.mem_singleton] at h
      exact h.symm

/-- An argument that is set at a position replaces others and brings no other value. -/
theorem mem_toList_addIndexed {index : Nat} (h : b ∈ (args.addIndexed index a).toList) :
    b = a ∨ b ∈ args.toList := by
  rcases List.mem_append.mp h with h | h
  · obtain ⟨x, hx, rfl⟩ := List.mem_map.mp h
    rcases mem_setIndexed hx with rfl | hx
    · exact .inl rfl
    · exact .inr (List.mem_append_left _ (List.mem_map_of_mem hx))
  · exact .inr (List.mem_append_right _ h)

end Arguments

namespace Definition

/-- Reading an argument changes no property. -/
theorem properties_of_readArgument (h : d.readArgument defaults child = .ok d') :
    d'.properties = d.properties := by
  obtain ⟨value, -, h⟩ := exists_of_bind_eq_ok h
  split at h
  · cases h
    rfl
  · split at h
    · cases h
    · split at h <;> cases h
      rfl

/-- What reading a child does to the values of a recipe. -/
theorem readChild_cases (h : d.readChild defaults child = .ok d') :
    (child.name = "constructor-arg" ∧ d'.properties = d.properties ∧
      ∃ a, child.Carries defaults.mergeLists a.value ∧
        ∀ b ∈ d'.arguments.toList, b = a ∨ b ∈ d.arguments.toList) ∨
    (child.name = "property" ∧ d'.arguments = d.arguments ∧
      ∃ name v, child.given "name" = some name ∧ child.Carries defaults.mergeLists v ∧
        d'.properties = d.properties.insert name v) ∨
    (d'.properties = d.properties ∧ d'.arguments = d.arguments) := by
  rw [readChild] at h
  split at h
  · rename_i hname
    obtain ⟨a, ha, hadded⟩ := readArgument_eq_ok h
    obtain ⟨value, hvalue, rfl⟩ := exists_of_map_eq_ok ha
    refine .inl ⟨hname, properties_of_readArgument h,
      ⟨value, child.given "type", child.given "name"⟩,
      Element.carriedValue_eq_ok_iff.mp hvalue, fun b hb => ?_⟩
    rcases hadded with ⟨-, hadded⟩ | ⟨_, index, -, -, -, hadded⟩
    · exact Arguments.mem_toList_addGeneric (hadded ▸ hb)
    · exact Arguments.mem_toList_addIndexed (hadded ▸ hb)
  · rename_i hname
    rw [readProperty] at h
    split at h
    · cases h
    · rename_i name hgiven
      split at h
      · cases h
      · obtain ⟨v, hv, h⟩ := exists_of_bind_eq_ok h
        cases h
        exact .inr (.inl
          ⟨hname, rfl, name, v, hgiven, Element.carriedValue_eq_ok_iff.mp hv, rfl⟩)
  · rw [readLookup] at h
    split at h <;> cases h
    exact .inr (.inr ⟨rfl, rfl⟩)
  · cases h
    exact .inr (.inr ⟨rfl, rfl⟩)
  · cases h
    exact .inr (.inr ⟨rfl, rfl⟩)

/-- All values of a recipe are carried by some elements. -/
structure Injects (merge : Option Bool) (children : List Element) (d : Definition) : Prop where
  property : ∀ name v, d.properties.get? name = some v →
    ∃ child ∈ children, child.name = "property" ∧ child.given "name" = some name ∧
      child.Carries merge v
  argument : ∀ a ∈ d.arguments.toList,
    ∃ child ∈ children, child.name = "constructor-arg" ∧ child.Carries merge a.value

/-- Values that are carried by some elements are carried by more elements. -/
theorem Injects.weaken {others : List Element} (h : d.Injects merge children)
    (hsubset : children ⊆ others) (hproperties : d'.properties = d.properties)
    (harguments : d'.arguments = d.arguments) : d'.Injects merge others where
  property name v hget := by
    obtain ⟨child, hchild, hcarried⟩ := h.property name v (hproperties ▸ hget)
    exact ⟨child, hsubset hchild, hcarried⟩
  argument a ha := by
    obtain ⟨child, hchild, hcarried⟩ := h.argument a (harguments ▸ ha)
    exact ⟨child, hsubset hchild, hcarried⟩

/-- One more child carries what it adds. -/
theorem Injects.readChild (h : d.Injects defaults.mergeLists children)
    (hread : d.readChild defaults child = .ok d') :
    d'.Injects defaults.mergeLists (children ++ [child]) := by
  have hold := h.weaken (List.subset_append_left children [child]) rfl rfl
  have hlast : child ∈ children ++ [child] := by simp
  rcases readChild_cases hread with ⟨hname, hproperties, a, ha, hadded⟩ |
    ⟨hname, harguments, name, v, hgiven, hv, hproperties⟩ | ⟨hproperties, harguments⟩
  · refine ⟨fun name v hget => hold.property name v (hproperties ▸ hget), fun b hb => ?_⟩
    rcases hadded b hb with rfl | hb
    · exact ⟨child, hlast, hname, ha⟩
    · exact hold.argument b hb
  · refine ⟨fun name' v' hget => ?_, fun a ha => hold.argument a (harguments ▸ ha)⟩
    rw [hproperties, Table.get?_insert] at hget
    split at hget
    · rename_i heq
      cases hget
      exact ⟨child, hlast, hname, heq ▸ hgiven, hv⟩
    · exact hold.property name' v' hget
  · exact hold.weaken (List.Subset.refl _) hproperties harguments

/-- What children add, one after the other, they carry. -/
theorem Injects.foldlM_readChild {others : List Element}
    (h : d.Injects defaults.mergeLists children)
    (hread : others.foldlM (Definition.readChild defaults) d = .ok d') :
    d'.Injects defaults.mergeLists (children ++ others) := by
  induction others generalizing children d with
  | nil =>
    cases hread
    simpa using h
  | cons child rest ih =>
    obtain ⟨next, hchild, hrest⟩ := exists_of_bind_eq_ok hread
    simpa using ih (h.readChild hchild) hrest

end Definition

/-- All values of a recipe that was read are carried by children of its element. -/
theorem Element.injects_of_toDefinition (h : e.toDefinition defaults location = .ok d) :
    d.Injects defaults.mergeLists e.children := by
  obtain ⟨start, hstart, hchildren⟩ := exists_of_bind_eq_ok h
  rw [← attributePart_of_recipeAttributes hstart] at hchildren
  have hempty : start.attributePart.Injects defaults.mergeLists [] := ⟨nofun, nofun⟩
  exact hempty.foldlM_readChild hchildren

end Blueprint
