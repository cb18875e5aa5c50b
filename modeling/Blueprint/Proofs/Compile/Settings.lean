import Blueprint.Proofs.Compile.Places
import Blueprint.Proofs.Declaration.InjectedValues

/-!
# Settings of components

A component says itself how it is to be treated, or leaves that to the scopes that it stands in.
What counts then is the nearest scope that says anything (`Element.nearest?`), where a scope with
invalid defaults says nothing. The defaults that compiling hands down from scope to scope come to
just that (`Defaults.within_eq`).

`Element.StandsAt` are the components of a document with the scopes that they stand in. It refers to
no defaults. `Definition.Settled` says of a recipe that everything that scopes can set, lists
included, is as the component and these scopes say. A component that is read with the defaults of
its scopes has such a recipe (`Element.settled_of_toDefinition`), and in a document it is read with
those (`Element.standsAt_iff`).
-/

namespace Blueprint

namespace Element

/-- The scope says nothing about autowiring, or says a mode that there is. -/
def hasValidDefaults (scope : Element) : Bool :=
  (scope.explicit "default-autowire").all fun mode => (Autowire.ofSpelling? mode).isSome

/-- What the nearest scope says that says anything and has valid defaults. The nearest one comes
first. -/
def nearest? (setting : Element → Option String) (scopes : List Element) : Option String :=
  (scopes.filter hasValidDefaults).findSome? setting

/-- A component stands at a place of a document, in scopes that are all entered. The innermost one
comes first and the document last. -/
inductive StandsAt (env : Environment) :
    (document : Element) → (place : List Nat) → (scopes : List Element) → (e : Element) → Prop
  | child {scope e : Element} {i : Nat} (accepted : scope.unmetProfiles? env = none)
      (child : scope.children[i]? = some e) (kind : e.kind = .component) :
      StandsAt env scope [i] [scope] e
  | inside {scope group e : Element} {i : Nat} {place : List Nat} {scopes : List Element}
      (accepted : scope.unmetProfiles? env = none) (child : scope.children[i]? = some group)
      (kind : group.kind = .group) (stands : StandsAt env group place scopes e) :
      StandsAt env scope (i :: place) (scopes ++ [scope]) e

end Element

namespace Defaults

/-- The defaults that hold in scopes that stand in each other, the innermost one first. -/
def within (enclosing : Defaults) (scopes : List Element) : Defaults :=
  scopes.foldr (fun scope around => around.inside scope) enclosing

variable {enclosing : Defaults} {scope : Element}

/-- The outermost scope comes last. -/
theorem within_concat (enclosing : Defaults) (scopes : List Element) (scope : Element) :
    enclosing.within (scopes ++ [scope]) = (enclosing.inside scope).within scopes :=
  List.foldr_append

/-- A scope with invalid defaults hands on those around it. -/
theorem inside_of_invalid (h : scope.hasValidDefaults = false) (enclosing : Defaults) :
    enclosing.inside scope = enclosing := by
  rw [Element.hasValidDefaults] at h
  rw [inside, derive, autowireOr]
  cases hmode : scope.explicit "default-autowire" with
  | none => simp [hmode] at h
  | some text =>
    have hunknown : Autowire.ofSpelling? text = none := by simpa [hmode] using h
    simp only [readAutowire, hunknown]
    rfl

/-- A scope with valid defaults says all that it can at once. -/
theorem inside_of_valid (h : scope.hasValidDefaults = true) (enclosing : Defaults) :
    ∃ autowire : Option Autowire, autowire.map Autowire.spelling =
        (scope.explicit "default-autowire").or (enclosing.autowire.map Autowire.spelling) ∧
      enclosing.inside scope = {
        lazyInit := ((scope.explicit "default-lazy-init").map isTrue).or enclosing.lazyInit
        autowire
        mergeLists := ((scope.explicit "default-merge").map isTrue).or enclosing.mergeLists
        initMethod := (scope.given "default-init-method").or enclosing.initMethod
        destroyMethod := (scope.given "default-destroy-method").or enclosing.destroyMethod } := by
  rw [Element.hasValidDefaults] at h
  rw [inside, derive, autowireOr]
  cases hmode : scope.explicit "default-autowire" with
  | none => exact ⟨enclosing.autowire, rfl, rfl⟩
  | some text =>
    obtain ⟨mode, hmode⟩ : ∃ mode, Autowire.ofSpelling? text = some mode :=
      Option.isSome_iff_exists.mp (by simpa [hmode] using h)
    refine ⟨some mode, ?_, by simp only [readAutowire, hmode]; rfl⟩
    rw [Autowire.ofSpelling?] at hmode
    simpa using List.find?_some hmode

/-- If every scope with valid defaults says a part of the defaults, or leaves it as it was around
it, then the nearest of some scopes says it. -/
theorem within_eq {α : Type} (part : Defaults → Option α) (read : String → α)
    {setting : Element → Option String}
    (said : ∀ enclosing scope, scope.hasValidDefaults = true →
      part (inside enclosing scope) = ((setting scope).map read).or (part enclosing))
    (enclosing : Defaults) (scopes : List Element) :
    part (enclosing.within scopes) =
      ((Element.nearest? setting scopes).map read).or (part enclosing) := by
  -- The head is the innermost scope. It is applied last, and so it is asked first.
  induction scopes with
  | nil => rfl
  | cons scope scopes ih =>
    have hcons : enclosing.within (scope :: scopes) = (enclosing.within scopes).inside scope := rfl
    rw [hcons, Element.nearest?]
    cases hvalid : scope.hasValidDefaults with
    | false =>
      rw [inside_of_invalid hvalid, ih, List.filter_cons_of_neg (by simp [hvalid])]
      rfl
    | true =>
      rw [said _ _ hvalid, ih, List.filter_cons_of_pos hvalid, List.findSome?_cons,
        ← Option.or_assoc, Element.nearest?]
      cases setting scope <;> rfl

variable (scopes : List Element)

theorem lazyInit_within : (({} : Defaults).within scopes).lazyInit =
    (Element.nearest? (·.explicit "default-lazy-init") scopes).map isTrue := by
  rw [within_eq lazyInit isTrue fun enclosing scope hvalid => ?_, Option.or_none]
  obtain ⟨autowire, -, hinside⟩ := inside_of_valid hvalid enclosing
  rw [hinside]

theorem mergeLists_within : (({} : Defaults).within scopes).mergeLists =
    (Element.nearest? (·.explicit "default-merge") scopes).map isTrue := by
  rw [within_eq mergeLists isTrue fun enclosing scope hvalid => ?_, Option.or_none]
  obtain ⟨autowire, -, hinside⟩ := inside_of_valid hvalid enclosing
  rw [hinside]

theorem initMethod_within : (({} : Defaults).within scopes).initMethod =
    Element.nearest? (·.given "default-init-method") scopes := by
  rw [within_eq initMethod id fun enclosing scope hvalid => ?_,
    Option.or_none, Option.map_id, id]
  obtain ⟨autowire, -, hinside⟩ := inside_of_valid hvalid enclosing
  rw [hinside, Option.map_id, id]

theorem destroyMethod_within : (({} : Defaults).within scopes).destroyMethod =
    Element.nearest? (·.given "default-destroy-method") scopes := by
  rw [within_eq destroyMethod id fun enclosing scope hvalid => ?_,
    Option.or_none, Option.map_id, id]
  obtain ⟨autowire, -, hinside⟩ := inside_of_valid hvalid enclosing
  rw [hinside, Option.map_id, id]

/-- The mode is that of the nearest scope which says a mode that there is. -/
theorem autowire_within : (({} : Defaults).within scopes).autowire.map Autowire.spelling =
    Element.nearest? (·.explicit "default-autowire") scopes := by
  rw [within_eq (fun d => d.autowire.map Autowire.spelling) id
    fun enclosing scope hvalid => ?_]
  · rw [Option.map_id, id]
    exact Option.or_none
  · obtain ⟨autowire, hautowire, hinside⟩ := inside_of_valid hvalid enclosing
    rw [hinside, Option.map_id, id]
    exact hautowire

end Defaults

/-- Whatever scopes can set is in a recipe as the component says, or else as the nearest of the
scopes around it does. In the recipe that goes for every list. -/
structure Definition.Settled (scopes : List Element) (e : Element) (d : Definition) : Prop where
  lazyInit : d.lazyInit = ((e.explicit "lazy-init").or
    (Element.nearest? (·.explicit "default-lazy-init") scopes)).map Defaults.isTrue
  autowireMode : d.autowireMode.map Autowire.spelling = (e.explicit "autowire").or
    (Element.nearest? (·.explicit "default-autowire") scopes)
  initMethod : d.initMethod = (e.given "init-method").or
    (Element.nearest? (·.given "default-init-method") scopes)
  destroyMethod : d.destroyMethod = (e.given "destroy-method").or
    (Element.nearest? (·.given "default-destroy-method") scopes)
  values : d.Injects
    ((Element.nearest? (·.explicit "default-merge") scopes).map Defaults.isTrue) e.children

namespace Element

variable {env : Environment} {enclosing defaults : Defaults} {scope document e : Element}
  {place : List Nat} {scopes : List Element} {location : String} {d : Definition}

/-- The mode of a recipe is what the component says, or else what its defaults say. -/
theorem autowireMode_of_recipeAttributes (h : e.recipeAttributes defaults location = .ok d) :
    d.autowireMode.map Autowire.spelling =
      (e.explicit "autowire").or (defaults.autowire.map Autowire.spelling) := by
  obtain ⟨mode, hmode, h⟩ := exists_of_bind_eq_ok h
  cases h
  rw [Defaults.autowireOr] at hmode
  split at hmode
  · rename_i text htext
    obtain ⟨mode, hread, rfl⟩ := exists_of_map_eq_ok hmode
    rw [Defaults.readAutowire] at hread
    split at hread <;> cases hread
    rename_i hspelling
    rw [Autowire.ofSpelling?] at hspelling
    rw [htext]
    simpa using List.find?_some hspelling
  · rename_i hnone
    cases hmode
    rw [hnone]
    rfl

/-- A component that is read with the defaults of some scopes is settled by them. -/
theorem settled_of_toDefinition
    (h : e.toDefinition (({} : Defaults).within scopes) location = .ok d) :
    d.Settled scopes e := by
  have hread := recipeAttributes_of_toDefinition h
  have hmode := autowireMode_of_recipeAttributes hread
  obtain ⟨mode, -, hattributes⟩ := exists_of_bind_eq_ok hread
  have hpart := Except.ok.inj hattributes
  have hlazyInit := congrArg Definition.lazyInit hpart
  have hinitMethod := congrArg Definition.initMethod hpart
  have hdestroyMethod := congrArg Definition.destroyMethod hpart
  simp only [Definition.attributePart] at hlazyInit hinitMethod hdestroyMethod hmode
  exact
  { lazyInit := by
      rw [← hlazyInit, Defaults.lazyInit_within, ← Option.map_or]
    autowireMode := by rw [hmode, Defaults.autowire_within]
    initMethod := by rw [← hinitMethod, Defaults.initMethod_within]
    destroyMethod := by rw [← hdestroyMethod, Defaults.destroyMethod_within]
    values := Defaults.mergeLists_within scopes ▸ injects_of_toDefinition h }

theorem said?_eq_component_iff {e' : Element} {defaults' : Defaults} :
    e'.said? defaults' = some (.component e defaults) ↔
      e'.kind = .component ∧ e' = e ∧ defaults = defaults' := by
  rw [said?]
  cases e'.kind <;> simp [eq_comm]

/-- A component that stands in some scopes is said with the defaults within them. -/
theorem StandsAt.saysAt (h : StandsAt env document place scopes e) (enclosing : Defaults) :
    SaysAt env enclosing document place (.component e (enclosing.within scopes)) := by
  induction h generalizing enclosing with
  | child accepted child kind =>
    exact .child accepted child (said?_eq_component_iff.mpr ⟨kind, rfl, rfl⟩)
  | inside accepted child kind stands ih =>
    rw [Defaults.within_concat]
    exact .inside accepted child kind (ih _)

/-- A component is listed at its place with the defaults of the scopes that it stands in. -/
theorem saysAt_component_iff : SaysAt env enclosing document place (.component e defaults) ↔
    ∃ scopes, StandsAt env document place scopes e ∧ defaults = enclosing.within scopes := by
  constructor
  · intro h
    generalize hentry : OutlineEntry.component e defaults = entry at h
    induction h with
    | complaint accepted invalid => cases hentry
    | child accepted child said =>
      rw [← hentry] at said
      obtain ⟨kind, rfl, rfl⟩ := said?_eq_component_iff.mp said
      exact ⟨_, .child accepted child kind, rfl⟩
    | inside accepted child kind said ih =>
      obtain ⟨scopes, hstands, rfl⟩ := ih hentry
      exact ⟨_, .inside accepted child kind hstands, (Defaults.within_concat _ _ _).symm⟩
  · rintro ⟨scopes, hstands, rfl⟩
    exact hstands.saysAt enclosing

/-- The place tells the scopes and the component. -/
theorem StandsAt.unique {scopes' : List Element} {e' : Element}
    (h : StandsAt env document place scopes e) (h' : StandsAt env document place scopes' e') :
    scopes' = scopes ∧ e' = e := by
  induction h generalizing scopes' with
  | child accepted child kind =>
    cases h' with
    | child _ child' _ =>
      obtain rfl := Option.some.inj (child'.symm.trans child)
      exact ⟨rfl, rfl⟩
    | inside _ child' kind' stands' => cases stands'
  | inside accepted child kind stands ih =>
    cases h' with
    | child _ child' _ => cases stands
    | inside _ child' _ stands' =>
      obtain rfl := Option.some.inj (child'.symm.trans child)
      obtain ⟨rfl, rfl⟩ := ih stands'
      exact ⟨rfl, rfl⟩

end Element

end Blueprint
