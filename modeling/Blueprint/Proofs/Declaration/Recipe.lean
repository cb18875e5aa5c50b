import Blueprint.Declaration.Component

/-!
# What a component element says

The recipe of a component element starts from its attributes, and every child adds an argument, a
property, a lookup method or the description to it. The rest of the recipe
(`Definition.attributePart`) is what the attributes say, whatever the children are
(`Element.recipeAttributes_of_toDefinition`).

A component that was read has this recipe, under the names that the element states, or else under
those that are found for the recipe (`Declared.readComponent_eq_ok`).
-/

namespace Blueprint

variable {defaults : Defaults} {location : String} {d d' : Definition} {e : Element}

/-- Where two steps have an answer, the first has one, too. -/
theorem exists_of_bind_eq_ok {α β ε : Type} {x : Except ε α} {f : α → Except ε β} {b : β}
    (h : x >>= f = .ok b) : ∃ a, x = .ok a ∧ f a = .ok b := by
  cases x with
  | error cause => cases h
  | ok a => exact ⟨a, rfl, h⟩

theorem exists_of_map_eq_ok {α β ε : Type} {x : Except ε α} {f : α → β} {b : β}
    (h : x.map f = .ok b) : ∃ a, x = .ok a ∧ f a = b := by
  cases x with
  | error cause => cases h
  | ok a => exact ⟨a, rfl, Except.ok.inj h⟩

namespace Definition

/-- The part of a recipe that no child of a component element adds to. -/
def attributePart (d : Definition) : Definition :=
  { d with arguments := .empty, properties := {}, lookupMethods := {}, description := none }

/-- An argument adds nothing to the part that attributes say. -/
theorem attributePart_of_readArgument (h : d.readArgument defaults e = .ok d') :
    d'.attributePart = d.attributePart := by
  obtain ⟨value, -, h⟩ := exists_of_bind_eq_ok h
  split at h
  · cases h
    rfl
  · split at h
    · cases h
    · split at h <;> cases h
      rfl

/-- A property adds nothing to the part that attributes say. -/
theorem attributePart_of_readProperty (h : d.readProperty defaults e = .ok d') :
    d'.attributePart = d.attributePart := by
  rw [readProperty] at h
  split at h
  · cases h
  · split at h
    · cases h
    · obtain ⟨value, -, h⟩ := exists_of_bind_eq_ok h
      cases h
      rfl

theorem attributePart_of_readLookup (h : d.readLookup e = .ok d') :
    d'.attributePart = d.attributePart := by
  rw [readLookup] at h
  split at h <;> cases h
  rfl

/-- No child adds to the part that attributes say. -/
theorem attributePart_of_readChild (h : d.readChild defaults e = .ok d') :
    d'.attributePart = d.attributePart := by
  rw [readChild] at h
  split at h
  · exact attributePart_of_readArgument h
  · exact attributePart_of_readProperty h
  · exact attributePart_of_readLookup h
  · cases h
    rfl
  · cases h
    rfl

/-- However many children are read, the attributes say the rest. -/
theorem attributePart_of_foldlM_readChild {children : List Element}
    (h : children.foldlM (readChild defaults) d = .ok d') :
    d'.attributePart = d.attributePart := by
  induction children generalizing d with
  | nil =>
    cases h
    rfl
  | cons child rest ih =>
    obtain ⟨next, hchild, hrest⟩ := exists_of_bind_eq_ok h
    exact (ih hrest).trans (attributePart_of_readChild hchild)

end Definition

namespace Element

open Definition

/-- Attributes leave to the children what only those say. -/
theorem attributePart_of_recipeAttributes (h : e.recipeAttributes defaults location = .ok d) :
    d.attributePart = d := by
  obtain ⟨mode, -, h⟩ := exists_of_bind_eq_ok h
  cases h
  rfl

/-- The attributes of a component element make the part of its recipe that the children leave. -/
theorem recipeAttributes_of_toDefinition (h : e.toDefinition defaults location = .ok d) :
    e.recipeAttributes defaults location = .ok d.attributePart := by
  obtain ⟨start, hstart, hchildren⟩ := exists_of_bind_eq_ok h
  rw [hstart, attributePart_of_foldlM_readChild hchildren,
    attributePart_of_recipeAttributes hstart]

end Element

namespace Declared

variable {declared : Declared} {registered : Names} {declaration : Declaration}

/-- A component with a name is read in the same way beside all registries. -/
theorem value_readComponent_of_stated {name : String} {aliases : List String}
    (h : statedNames e = (some name, aliases)) (registered : Names) :
    (declared.readComponent registered location defaults e).value =
      ((e.toDefinition defaults location).map fun d => ⟨name, aliases, d⟩,
        ⟨declared.names ++ name :: aliases⟩) := by
  rw [readComponent, h]
  simp only [note, Traced.value_bind, Traced.value_pure]
  split <;> rfl

theorem definition_of_nameRecipe (h : declared.nameRecipe registered d = .ok declaration) :
    declaration.definition = d := by
  rw [nameRecipe] at h
  split at h <;> cases h
  rfl

/-- A declaration that was read has the recipe of its element, under the names that the element
states or under those found for the recipe. -/
theorem readComponent_eq_ok
    (h : (declared.readComponent registered location defaults e).value.1 = .ok declaration) :
    e.toDefinition defaults location = .ok declaration.definition ∧
      (statedNames e = (some declaration.name, declaration.aliases) ∨
        statedNames e = (none, []) ∧
          declared.nameRecipe registered declaration.definition = .ok declaration) := by
  rcases hstated : statedNames e with ⟨_ | name, aliases⟩
  · have hnone : aliases = [] := by
      rw [statedNames] at hstated
      split at hstated <;> cases hstated
      rfl
    have hvalue : (declared.readComponent registered location defaults e).value =
        ((e.toDefinition defaults location).bind (declared.nameRecipe registered), declared) := by
      rw [readComponent, hstated]
      rfl
    rw [hvalue] at h
    obtain ⟨recipe, hrecipe, hnamed⟩ := exists_of_bind_eq_ok h
    rw [definition_of_nameRecipe hnamed]
    exact ⟨hrecipe, .inr ⟨by rw [hnone], hnamed⟩⟩
  · rw [value_readComponent_of_stated hstated] at h
    obtain ⟨recipe, hrecipe, rfl⟩ := exists_of_map_eq_ok h
    exact ⟨hrecipe, .inl rfl⟩

end Declared

end Blueprint
