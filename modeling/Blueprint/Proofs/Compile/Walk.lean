import Blueprint.Compile.Basic
import Mathlib.Data.List.Infix

/-!
# What the entries of a document do to a session

A computation on a session is `Tame` if it never fails, and `Steady` if it goes `Onward` whether it
fails or not : the same documents are open after it, and the rejections there were before are
still noted. An entry that is no import is tame (`tame_compileEntry`).
-/

namespace Blueprint

namespace Walk

variable {α β : Type} {x x' : Walk α} {f f' : α → Walk β} {s t : Session} {a : α} {b : β}
  {e : Error}

/-! ## Binding -/

theorem bind_of_ok (h : x s = .ok a t) : (x >>= f) s = f a t := by
  show EStateM.bind x f s = _
  rw [EStateM.bind, h]

theorem bind_of_error (h : x s = .error e t) : (x >>= f) s = .error e t := by
  show EStateM.bind x f s = _
  rw [EStateM.bind, h]

theorem bind_eq_ok_iff :
    (x >>= f) s = .ok b t ↔ ∃ a s', x s = .ok a s' ∧ f a s' = .ok b t := by
  cases h : x s with
  | ok a s' => simp [bind_of_ok h]
  | error e s' => simp [bind_of_error h]

theorem bind_congr (hx : x s = x' s) (hf : ∀ a t, x s = .ok a t → f a t = f' a t) :
    (x >>= f) s = (x' >>= f') s := by
  cases h : x s with
  | ok a t => rw [bind_of_ok h, bind_of_ok (hx.symm.trans h), hf a t h]
  | error e t => rw [bind_of_error h, bind_of_error (hx.symm.trans h)]

/-- The error that a computation fails with. -/
def failure? (x : Walk α) (s : Session) : Option Error :=
  match x s with
  | .ok _ _ => none
  | .error e _ => some e

theorem failure?_of_ok (h : x s = .ok a t) : failure? x s = none := by
  rw [failure?, h]

theorem failure?_of_error (h : x s = .error e t) : failure? x s = some e := by
  rw [failure?, h]

theorem failure?_bind_of_ok (h : x s = .ok a t) : failure? (x >>= f) s = failure? (f a) t := by
  rw [failure?, bind_of_ok h, failure?]

theorem failure?_bind_of_some (h : failure? x s = some e) : failure? (x >>= f) s = some e := by
  cases hx : x s with
  | ok a t => simp [failure?_of_ok hx] at h
  | error e' t => rw [failure?_of_error (bind_of_error hx), ← h, failure?_of_error hx]

/-- An answer that is made of another one changes nothing about failing. -/
theorem failure?_bind_pure (x : Walk α) (b : α → β) (s : Session) :
    failure? (x >>= fun a => pure (b a)) s = failure? x s := by
  cases h : x s with
  | ok a t => rw [failure?_bind_of_ok h, failure?_of_ok h]; rfl
  | error e t => rw [failure?_bind_of_some (failure?_of_error h), failure?_of_error h]

/-- An operation on the registry answers, and leaves its registry and events. -/
theorem onRegistry_eq (operation : Registry → Traced (α × Registry)) (s : Session) :
    onRegistry operation s = .ok (operation s.registry).value.1
      { s with
        registry := (operation s.registry).value.2
        events := s.events ++ (operation s.registry).events } :=
  rfl

/-! ## Opening a document -/

theorem opening_of_ok (location : String)
    (h : x { s with opened := s.opened ++ [location] } = .ok a t) :
    opening location x s = .ok a { t with opened := t.opened.dropLast } := by
  simp only [opening, h]

theorem opening_of_error (location : String)
    (h : x { s with opened := s.opened ++ [location] } = .error e t) :
    opening location x s = .error e { t with opened := t.opened.dropLast } := by
  simp only [opening, h]

/-! ## Tame computations -/

/-- Going on from one session to another without leaving a document or forgetting a rejection. -/
structure Onward (s t : Session) : Prop where
  opened : t.opened = s.opened
  rejections : s.rejections <+: t.rejections

theorem Onward.refl (s : Session) : Onward s s := ⟨rfl, List.prefix_rfl⟩

theorem Onward.trans {u : Session} (h : Onward s t) (h' : Onward t u) : Onward s u :=
  ⟨h'.opened.trans h.opened, h.rejections.trans h'.rejections⟩

/-- A computation that never fails and only goes onward. -/
def Tame (x : Walk α) : Prop := ∀ s, ∃ a t, x s = .ok a t ∧ Onward s t

theorem tame_pure (a : α) : Tame (pure a) := fun s => ⟨a, s, rfl, .refl s⟩

theorem tame_get : Tame (get : Walk Session) := fun s => ⟨s, s, rfl, .refl s⟩

theorem Tame.bind (hx : Tame x) (hf : ∀ a, Tame (f a)) : Tame (x >>= f) := by
  intro s
  obtain ⟨a, t, hxs, ht⟩ := hx s
  obtain ⟨b, u, hfs, hu⟩ := hf a t
  exact ⟨b, u, (bind_of_ok hxs).trans hfs, ht.trans hu⟩

/-- The session in which a computation ends, with a value or with an error. -/
def final (x : Walk α) (s : Session) : Session :=
  match x s with
  | .ok _ t => t
  | .error _ t => t

theorem final_of_ok (h : x s = .ok a t) : final x s = t := by
  rw [final, h]

theorem final_of_error (h : x s = .error e t) : final x s = t := by
  rw [final, h]

theorem final_bind_of_ok (h : x s = .ok a t) : final (x >>= f) s = final (f a) t := by
  rw [final, bind_of_ok h, final]

theorem final_bind_of_error (h : x s = .error e t) : final (x >>= f) s = t :=
  final_of_error (bind_of_error h)

theorem final_bind_pure (x : Walk α) (b : α → β) (s : Session) :
    final (x >>= fun a => pure (b a)) s = final x s := by
  cases h : x s with
  | ok a t => rw [final_bind_of_ok h, final_of_ok h]; rfl
  | error e t => rw [final_bind_of_error h, final_of_error h]

/-- A computation that only goes onward, also when it fails. -/
def Steady (x : Walk α) : Prop := ∀ s, Onward s (final x s)

/-- What never fails and goes onward is steady. -/
theorem Tame.steady (hx : Tame x) : Steady x := by
  intro s
  obtain ⟨a, t, hxs, ht⟩ := hx s
  rwa [final_of_ok hxs]

/-- Steady computations can be put one behind the other : where the first fails, nothing follows. -/
theorem Steady.bind (hx : Steady x) (hf : ∀ a, Steady (f a)) : Steady (x >>= f) := by
  intro s
  have hs := hx s
  cases hxs : x s with
  | ok a t =>
    rw [final_of_ok hxs] at hs
    rw [final, bind_of_ok hxs]
    exact hs.trans (hf a t)
  | error e t =>
    rw [final_of_error hxs] at hs
    rwa [final_of_error (bind_of_error hxs)]

theorem tame_emit (e : Event) : Tame (emit e) := fun _ => ⟨_, _, rfl, rfl, List.prefix_rfl⟩

theorem tame_notify (n : Notice) : Tame (notify n) := fun _ => ⟨_, _, rfl, rfl, List.prefix_rfl⟩

theorem tame_trace (x : Traced α) : Tame (trace x) := fun _ => ⟨_, _, rfl, rfl, List.prefix_rfl⟩

/-- No operation on the registry leaves a document or forgets a rejection. -/
theorem tame_onRegistry (operation : Registry → Traced (α × Registry)) :
    Tame (onRegistry operation) := fun _ => ⟨_, _, rfl, rfl, List.prefix_rfl⟩

theorem tame_reject (location : String) (index : Nat) (name : Option String) (cause : Error) :
    Tame (reject location index name cause) :=
  (tame_emit _).bind fun _ _ => ⟨_, _, rfl, rfl, List.prefix_append _ _⟩

end Walk

namespace Compiler

open Walk

variable {c : Compiler} {walk : DocumentWalk} {base location : String} {index : Nat}
  {declared : Declared} {entry : OutlineEntry}

/-- To register a declaration never fails, whatever the hooks and the registry answer. -/
theorem tame_registerDeclaration (c : Compiler) (e : Element) (read : Except Error Declaration) :
    Tame (c.registerDeclaration e read) := by
  cases read with
  | error cause => exact tame_pure _
  | ok d =>
    refine (tame_notify _).bind fun _ => ?_
    cases c.hooks.decorate e d with
    | error cause => exact tame_pure _
    | ok d => exact (tame_onRegistry _).bind fun _ => tame_pure _

theorem tame_reportComponent (location : String) (index : Nat) (e : Element)
    (outcome : Except Error Declaration) : Tame (reportComponent location index e outcome) := by
  cases outcome with
  | error cause => exact tame_reject _ _ _ _
  | ok d => exact (tame_emit _).bind fun _ => tame_notify _

/-- A component never ends a compilation. -/
theorem tame_compileComponent (c : Compiler) (declared : Declared) (location : String)
    (index : Nat) (e : Element) (defaults : Defaults) :
    Tame (c.compileComponent declared location index e defaults) :=
  tame_get.bind fun _ => (tame_trace _).bind fun _ => (tame_registerDeclaration c e _).bind
    fun _ => (tame_reportComponent location index e _).bind fun _ => tame_pure _

/-- An alias never ends a compilation. -/
theorem tame_compileAlias (location : String) (index : Nat) (e : Element) :
    Tame (compileAlias location index e) := by
  rw [compileAlias]
  split
  · refine (tame_onRegistry _).bind fun outcome => ?_
    cases outcome with
    | error cause => exact tame_reject _ _ _ _
    | ok _ => exact tame_notify _
  · exact tame_reject _ _ _ _
  · exact tame_reject _ _ _ _

/-- An unknown element never ends a compilation, whatever the hooks answer. -/
theorem tame_compileCustom (c : Compiler) (location : String) (index : Nat) (e : Element) :
    Tame (c.compileCustom location index e) := by
  refine (tame_notify _).bind fun _ => (tame_onRegistry _).bind fun outcome => ?_
  cases outcome with
  | error cause => exact tame_reject _ _ _ _
  | ok _ => exact tame_pure _

/-- An entry that is no import is tame, and it is not compiled by the walk for documents. -/
theorem tame_compileEntry (c : Compiler) (walk : DocumentWalk) (base location : String)
    (index : Nat) (declared : Declared) (hentry : ∀ e, entry ≠ .importing e) :
    Tame (c.compileEntry walk base location index declared entry) := by
  cases entry with
  | skipped profiles => exact (tame_emit _).bind fun _ => tame_pure _
  | invalidDefaults cause => exact (tame_reject _ _ _ _).bind fun _ => tame_pure _
  | enter group =>
    exact (tame_emit _).bind fun _ => (tame_notify _).bind fun _ => tame_pure _
  | leave group => exact (tame_notify _).bind fun _ => tame_pure _
  | component e defaults => exact tame_compileComponent c declared location index e defaults
  | aliasing e => exact (tame_compileAlias location index e).bind fun _ => tame_pure _
  | importing e => exact absurd rfl (hentry e)
  | custom e => exact (tame_compileCustom c location index e).bind fun _ => tame_pure _

/-- Only an import fails. -/
theorem exists_import_of_failure? {cause : Error} {s : Session}
    (h : failure? (c.compileEntry walk base location index declared entry) s = some cause) :
    ∃ e, entry = .importing e ∧ failure? (c.compileImport walk base location e) s = some cause := by
  by_cases himport : ∃ e, entry = .importing e
  · obtain ⟨e, rfl⟩ := himport
    exact ⟨e, rfl, (failure?_bind_pure _ _ _).symm.trans h⟩
  · obtain ⟨declared', t, hdone, -⟩ := tame_compileEntry c walk base location index declared
      (fun e he => himport ⟨e, he⟩) s
    simp [failure?_of_ok hdone] at h

/-- What compiling gives, by how the walk through the documents ends. -/
theorem value_compile (c : Compiler) (root : Element) (base : String) (registry : Registry) :
    (c.compile root base registry).value =
      match c.compileFrom base base root (.start base registry) with
      | .error cause s => ⟨.error cause, s.registry, s.notices⟩
      | .ok _ s =>
        ⟨if s.rejections.isEmpty then .ok (s.registry.count - registry.count)
          else .error (.rejected base s.rejections), s.registry, s.notices⟩ := by
  rw [compile]
  cases c.compileFrom base base root (.start base registry) <;> rfl

end Compiler

end Blueprint
