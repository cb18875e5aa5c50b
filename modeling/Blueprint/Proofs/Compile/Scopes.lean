import Blueprint.Proofs.Compile.Import

/-!
# Scopes of documents

The scopes of a document are its root and the groups in its scopes. `Entered` are the scopes of a
document, and of all the documents that are imported from them, whose profiles are accepted. What a
scope says by itself, without the groups in it (`Element.Says`), is what the outline of its document
lists for it : what a scope says is in its outline (`mem_outline_of_said`), and an entry of the
outline that takes a number is said by an entered scope (`exists_says_of_mem_outline`).
-/

namespace Blueprint

/-- The defaults that hold in a scope. Invalid ones do not count. -/
def Defaults.inside (enclosing : Defaults) (scope : Element) : Defaults :=
  (derive scope enclosing).toOption.getD enclosing

namespace Element

variable {env : Environment} {enclosing defaults : Defaults} {scope group : Element}
  {es : List Element} {entry : OutlineEntry}

/-- What a scope says by itself, with some defaults around it. -/
def Says (enclosing : Defaults) (scope : Element) : OutlineEntry → Prop
  | .invalidDefaults cause => Defaults.derive scope enclosing = .error cause
  | .component e defaults =>
    e ∈ scope.children ∧ e.kind = .component ∧ defaults = enclosing.inside scope
  | .aliasing e => e ∈ scope.children ∧ e.kind = .aliasing
  | .importing e => e ∈ scope.children ∧ e.kind = .importing
  | .custom e => e ∈ scope.children ∧ e.kind = .custom
  | .skipped _ | .enter _ | .leave _ => False

/-- The entry for defaults that are invalid. -/
def complaints (enclosing : Defaults) (scope : Element) : List OutlineEntry :=
  match Defaults.derive scope enclosing with
  | .ok _ => []
  | .error cause => [.invalidDefaults cause]

/-- The outline of a scope that is entered. -/
theorem outline_of_accepted (accepted : scope.unmetProfiles? env = none) (enclosing : Defaults) :
    scope.outline env enclosing = scope.complaints enclosing ++ .enter scope ::
      outlineAll env (enclosing.inside scope) scope.children ++ [.leave scope] := by
  obtain ⟨name, attributes, children, text⟩ := scope
  rw [outline, accepted, complaints, Defaults.inside]
  cases Defaults.derive ⟨name, attributes, children, text⟩ enclosing <;> rfl

/-- A scope that is not entered is in the outline as skipped. -/
theorem outline_of_unmet {profiles : String} (unmet : scope.unmetProfiles? env = some profiles)
    (enclosing : Defaults) : scope.outline env enclosing = [.skipped profiles] := by
  obtain ⟨name, attributes, children, text⟩ := scope
  rw [outline, unmet]

/-- The entries for an element in a scope. -/
def entries (env : Environment) (defaults : Defaults) (e : Element) : List OutlineEntry :=
  match e.kind with
  | .importing => [.importing e]
  | .aliasing => [.aliasing e]
  | .component => [.component e defaults]
  | .group => outline env defaults e
  | .custom => [.custom e]

/-- The entries of the children are put one behind the other. -/
theorem outlineAll_eq_flatMap (env : Environment) (defaults : Defaults) :
    ∀ es : List Element, outlineAll env defaults es = es.flatMap (entries env defaults)
  | [] => rfl
  | e :: es => by
    rw [outlineAll, outlineAll_eq_flatMap env defaults es]
    rfl

/-- What an accepted scope says is in its outline. -/
theorem mem_outline_of_said (accepted : scope.unmetProfiles? env = none)
    (h : scope.Says enclosing entry) : entry ∈ scope.outline env enclosing := by
  have child {e : Element} (he : e ∈ scope.children)
      (hentry : entry ∈ entries env (enclosing.inside scope) e) :
      entry ∈ scope.outline env enclosing := by
    rw [outline_of_accepted accepted, outlineAll_eq_flatMap]
    simp only [List.mem_append, List.mem_cons, List.mem_flatMap]
    exact .inl (.inr (.inr ⟨e, he, hentry⟩))
  cases entry with
  | invalidDefaults cause =>
    have hcause : Defaults.derive scope enclosing = .error cause := h
    rw [outline_of_accepted accepted, complaints, hcause]
    simp
  | component e defaults => exact child h.1 (by simp [entries, h.2.1, h.2.2])
  | aliasing e => exact child h.1 (by simp [entries, h.2])
  | importing e => exact child h.1 (by simp [entries, h.2])
  | custom e => exact child h.1 (by simp [entries, h.2])
  | skipped profiles => exact h.elim
  | enter group => exact h.elim
  | leave group => exact h.elim

/-- The outline of a group is part of the outline of the scope that it stands in. -/
theorem mem_outline_of_group (accepted : scope.unmetProfiles? env = none)
    (child : group ∈ scope.children) (kind : group.kind = .group)
    (h : entry ∈ group.outline env (enclosing.inside scope)) :
    entry ∈ scope.outline env enclosing := by
  rw [outline_of_accepted accepted, outlineAll_eq_flatMap]
  simp only [List.mem_append, List.mem_cons, List.mem_flatMap]
  exact .inl (.inr (.inr ⟨group, child, by rwa [entries, kind]⟩))

/-- An entry for an accepted scope is said by the scope, or stands for a group in it, or takes no
number. -/
theorem says_or_of_mem_outline (accepted : scope.unmetProfiles? env = none)
    (h : entry ∈ scope.outline env enclosing) (numbered : entry.takesNumber = true) :
    scope.Says enclosing entry ∨ ∃ group ∈ scope.children, group.kind = .group ∧
      entry ∈ group.outline env (enclosing.inside scope) := by
  rw [outline_of_accepted accepted, outlineAll_eq_flatMap] at h
  simp only [List.mem_append, List.mem_cons, List.mem_flatMap, List.not_mem_nil, or_false] at h
  rcases h with (hcomplaint | rfl | ⟨e, he, hentry⟩) | rfl
  · rw [complaints] at hcomplaint
    cases hderive : Defaults.derive scope enclosing with
    | ok defaults => simp [hderive] at hcomplaint
    | error cause =>
      rw [hderive] at hcomplaint
      rw [List.mem_singleton.mp hcomplaint]
      exact .inl hderive
  · cases numbered
  · rw [entries] at hentry
    cases hkind : e.kind with
    | group =>
      rw [hkind] at hentry
      exact .inr ⟨e, he, hkind, hentry⟩
    | component =>
      rw [hkind] at hentry
      rw [List.mem_singleton.mp hentry]
      exact .inl ⟨he, hkind, rfl⟩
    | aliasing | importing | custom =>
      rw [hkind] at hentry
      rw [List.mem_singleton.mp hentry]
      exact .inl ⟨he, hkind⟩
  · cases numbered

end Element

namespace Compiler

/-- The scopes that are entered when the root of a document is compiled, with the documents that are
open meanwhile, the document of the scope, and the defaults around the scope. -/
inductive Entered (c : Compiler) (l : Library) (base : String) (root : Element) :
    (opened : List String) → (location : String) → (enclosing : Defaults) → (scope : Element) → Prop
  | root (accepted : root.unmetProfiles? c.environment = none) :
      Entered c l base root [base] base {} root
  | group {opened : List String} {location : String} {enclosing : Defaults} {scope group : Element}
      (outer : Entered c l base root opened location enclosing scope)
      (child : group ∈ scope.children) (kind : group.kind = .group)
      (accepted : group.unmetProfiles? c.environment = none) :
      Entered c l base root opened location (enclosing.inside scope) group
  | imported {opened : List String} {location : String} {enclosing : Defaults}
      {scope e : Element} {i : Import}
      (outer : Entered c l base root opened location enclosing scope)
      (child : e ∈ scope.children) (kind : e.kind = .importing)
      (found : c.findImport l base location opened e = .ok i)
      (accepted : i.root.unmetProfiles? c.environment = none) :
      Entered c l base root (opened ++ [i.target]) i.target {} i.root

/-- Every import of a scope that is entered finds a document to compile. -/
def ImportsFound (c : Compiler) (l : Library) (base : String) (root : Element) : Prop :=
  ∀ {opened location enclosing scope e}, c.Entered l base root opened location enclosing scope →
    e ∈ scope.children → e.kind = .importing → ∃ i, c.findImport l base location opened e = .ok i

variable {c : Compiler} {l : Library} {base location : String} {root : Element}
  {opened : List String} {entry : OutlineEntry}

/-- The scopes that are entered are those whose profiles are accepted. -/
theorem Entered.accepted {enclosing : Defaults} {scope : Element}
    (h : c.Entered l base root opened location enclosing scope) :
    scope.unmetProfiles? c.environment = none := by
  cases h <;> assumption

/-- What is listed for a scope is said by it or by a scope in it. -/
theorem exists_says_of_mem_outline {enclosing : Defaults} {scope : Element}
    (hscope : scope.unmetProfiles? c.environment = none →
      c.Entered l base root opened location enclosing scope)
    (h : entry ∈ scope.outline c.environment enclosing) (numbered : entry.takesNumber = true) :
    ∃ enclosing' scope', c.Entered l base root opened location enclosing' scope' ∧
      scope'.Says enclosing' entry := by
  cases hunmet : scope.unmetProfiles? c.environment with
  | some profiles =>
    rw [Element.outline_of_unmet hunmet, List.mem_singleton] at h
    rw [h] at numbered
    cases numbered
  | none =>
    obtain hsaid | ⟨group, child, kind, hgroup⟩ := Element.says_or_of_mem_outline hunmet h numbered
    · exact ⟨enclosing, scope, hscope hunmet, hsaid⟩
    · have smaller := Element.smaller_of_mem_children child
      exact exists_says_of_mem_outline (.group (hscope hunmet) child kind) hgroup numbered
termination_by sizeOf scope

end Compiler

end Blueprint
