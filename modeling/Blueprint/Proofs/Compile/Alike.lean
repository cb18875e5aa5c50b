import Blueprint.Proofs.Compile.Walk

/-!
# Computations that differ in what is watched

What a compilation leaves is its registry, its rejections, and what the observer was told of
components, aliases and imports. `Session.bare` keeps that of a session, with the documents that are
open, and drops the events and what was told of groups. Two computations are the `Same` if they end
alike in this sense wherever they begin alike. Events can be left out then (`same_emit_pure`), and
computations that are the same can be put into each other's places (`Same.bind`).
-/

namespace Blueprint

/-- The observer is told of a group. -/
def Notice.ofGroup : Notice → Bool
  | .entered _ _ | .left _ _ => true
  | _ => false

/-- A session without the events and without what was told of groups. -/
def Session.bare (s : Session) : Session :=
  { s with notices := s.notices.filter fun n => !n.ofGroup, events := [] }

/-- Sessions are the same without what is dropped if they agree in all that is kept. -/
theorem Session.bare_eq_iff {s t : Session} : t.bare = s.bare ↔
    t.registry = s.registry ∧ t.opened = s.opened ∧ t.rejections = s.rejections ∧
      (t.notices.filter fun n => !n.ofGroup) = s.notices.filter fun n => !n.ofGroup := by
  simp [bare]

namespace Walk

variable {α β : Type} {x y z : Walk α} {f g : α → Walk β} {s t : Session}

/-- How a computation ends, apart from the events and from what is told of groups. -/
def bareRun (x : Walk α) (s : Session) : Except Error α × Session :=
  match x s with
  | .ok a t => (.ok a, t.bare)
  | .error e t => (.error e, t.bare)

/-- The computations end alike wherever they begin alike. -/
def Same (x y : Walk α) : Prop := ∀ s t, t.bare = s.bare → bareRun y t = bareRun x s

theorem Same.symm (h : Same x y) : Same y x := fun s t hst => (h t s hst.symm).symm

theorem Same.trans (h : Same x y) (h' : Same y z) : Same x z :=
  fun s t hst => (h' t t rfl).trans (h s t hst)

theorem same_pure (a : α) : Same (pure a) (pure a) := fun _ _ h => congrArg (Prod.mk _) h

theorem same_throw (e : Error) : Same (throw e : Walk α) (throw e) :=
  fun _ _ h => congrArg (Prod.mk _) h

/-- Both end with the same value or with the same error. -/
theorem Same.ends (h : Same x y) (hst : t.bare = s.bare) :
    (∃ a s' t', x s = .ok a s' ∧ y t = .ok a t' ∧ t'.bare = s'.bare) ∨
      ∃ e s' t', x s = .error e s' ∧ y t = .error e t' ∧ t'.bare = s'.bare := by
  have hends := h s t hst
  cases hx : x s with
  | ok a s' =>
    cases hy : y t with
    | ok b t' =>
      simp only [bareRun, hx, hy, Prod.mk.injEq, Except.ok.injEq] at hends
      exact .inl ⟨a, s', t', rfl, by rw [hends.1], hends.2⟩
    | error e t' => simp [bareRun, hx, hy] at hends
  | error e s' =>
    cases hy : y t with
    | ok b t' => simp [bareRun, hx, hy] at hends
    | error e' t' =>
      simp only [bareRun, hx, hy, Prod.mk.injEq, Except.error.injEq] at hends
      exact .inr ⟨e, s', t', rfl, by rw [hends.1], hends.2⟩

/-- Computations that are the same can be put into each other's places, in front and behind. -/
theorem Same.bind (h : Same x y) (hf : ∀ a, Same (f a) (g a)) : Same (x >>= f) (y >>= g) := by
  intro s t hst
  rcases h.ends hst with ⟨a, s', t', hx, hy, hst'⟩ | ⟨e, s', t', hx, hy, hst'⟩
  · rw [bareRun, bareRun, bind_of_ok hx, bind_of_ok hy]
    exact hf a s' t' hst'
  · rw [bareRun, bareRun, bind_of_error hx, bind_of_error hy]
    exact congrArg (Prod.mk _) hst'

/-- What is done with the session may depend on all that `bare` keeps. -/
theorem same_get_bind {f g : Session → Walk α}
    (h : ∀ s t, t.bare = s.bare → Same (f s) (g t)) : Same (get >>= f) (get >>= g) :=
  fun s t hst => h s t hst s t hst

/-! ## Steps -/

/-- Events are not watched. -/
theorem same_emit_pure (e : Event) : Same (emit e) (pure ()) :=
  fun _ _ h => congrArg (Prod.mk _) h

theorem same_emit (e e' : Event) : Same (emit e) (emit e') := fun _ _ h => congrArg (Prod.mk _) h

theorem same_trace (x : Traced α) : Same (trace x) (trace x) := fun _ _ h => congrArg (Prod.mk _) h

/-- Neither is what is told of groups. -/
theorem same_notify_of_group {n : Notice} (hn : n.ofGroup = true) : Same (notify n) (pure ()) := by
  intro s t hst
  refine congrArg (Prod.mk _) ?_
  obtain ⟨hregistry, hopened, hrejections, hnotices⟩ := Session.bare_eq_iff.mp hst
  exact Session.bare_eq_iff.mpr
    ⟨hregistry, hopened, hrejections, by simp [List.filter_append, hn, hnotices]⟩

theorem same_notify (n : Notice) : Same (notify n) (notify n) := by
  intro s t hst
  refine congrArg (Prod.mk _) ?_
  obtain ⟨hregistry, hopened, hrejections, hnotices⟩ := Session.bare_eq_iff.mp hst
  exact Session.bare_eq_iff.mpr
    ⟨hregistry, hopened, hrejections, by simp [List.filter_append, hnotices]⟩

/-- An operation on the registry is the same wherever the registry is. -/
theorem same_onRegistry (operation : Registry → Traced (α × Registry)) :
    Same (onRegistry operation) (onRegistry operation) := by
  intro s t hst
  obtain ⟨hregistry, hopened, hrejections, hnotices⟩ := Session.bare_eq_iff.mp hst
  simp only [bareRun, onRegistry_eq, Prod.mk.injEq, hregistry, true_and]
  exact Session.bare_eq_iff.mpr ⟨rfl, hopened, hrejections, hnotices⟩

theorem same_reject (location : String) (index : Nat) (name : Option String) (cause : Error) :
    Same (reject location index name cause) (reject location index name cause) := by
  intro s t hst
  refine congrArg (Prod.mk _) ?_
  obtain ⟨hregistry, hopened, hrejections, hnotices⟩ := Session.bare_eq_iff.mp hst
  exact Session.bare_eq_iff.mpr ⟨hregistry, hopened, by simp [hrejections], hnotices⟩

/-- To open a document around computations that are the same keeps them the same. -/
theorem Same.opening (h : Same x y) (location : String) :
    Same (opening location x) (opening location y) := by
  have reopened : ∀ (change : List String → List String) {s t : Session}, t.bare = s.bare →
      Session.bare { t with opened := change t.opened } =
        Session.bare { s with opened := change s.opened } := by
    intro change s t hst
    obtain ⟨hregistry, hopened, hrejections, hnotices⟩ := Session.bare_eq_iff.mp hst
    exact Session.bare_eq_iff.mpr ⟨hregistry, congrArg change hopened, hrejections, hnotices⟩
  intro s t hst
  have hopen := reopened (· ++ [location]) hst
  rcases h.ends hopen with ⟨a, s', t', hx, hy, hst'⟩ | ⟨e, s', t', hx, hy, hst'⟩
  · rw [bareRun, bareRun, opening_of_ok location hx, opening_of_ok location hy]
    exact congrArg (Prod.mk _) (reopened List.dropLast hst')
  · rw [bareRun, bareRun, opening_of_error location hx, opening_of_error location hy]
    exact congrArg (Prod.mk _) (reopened List.dropLast hst')

end Walk

end Blueprint
