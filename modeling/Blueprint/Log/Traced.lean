import Blueprint.Log.Event

/-!
# Values with the events on the way to them

A `Traced α` is a value together with the events that were reported while it was computed, in
order. Binding appends the events of the second computation to those of the first
(`events_bind`) and does to the values what function application does (`value_bind`), so a
statement about values never has to speak of events.
-/

namespace Blueprint

universe u

/-- A value and the events reported on the way to it. -/
structure Traced (α : Type u) where
  value : α
  events : List Event := []

namespace Traced

variable {α β : Type u}

instance : Monad Traced where
  pure a := ⟨a, []⟩
  bind x f := ⟨(f x.value).value, x.events ++ (f x.value).events⟩

/-- Reports an event. -/
def emit (e : Event) : Traced PUnit.{u + 1} := ⟨⟨⟩, [e]⟩

@[simp] theorem value_pure (a : α) : (pure a : Traced α).value = a := rfl

@[simp] theorem events_pure (a : α) : (pure a : Traced α).events = [] := rfl

@[simp] theorem value_bind (x : Traced α) (f : α → Traced β) :
    (x >>= f).value = (f x.value).value := rfl

@[simp] theorem events_bind (x : Traced α) (f : α → Traced β) :
    (x >>= f).events = x.events ++ (f x.value).events := rfl

@[simp] theorem value_map (f : α → β) (x : Traced α) : (f <$> x).value = f x.value := rfl

@[simp] theorem events_map (f : α → β) (x : Traced α) : (f <$> x).events = x.events := by
  simp [Functor.map]

@[simp] theorem value_emit (e : Event) : (emit e).value = PUnit.unit := rfl

@[simp] theorem events_emit (e : Event) : (emit e).events = [e] := rfl

instance : LawfulMonad Traced := LawfulMonad.mk' Traced
  (fun x => by cases x; simp [Functor.map])
  (fun _ _ => by simp [Bind.bind, Pure.pure])
  (fun _ _ _ => by simp [Bind.bind])

end Traced

end Blueprint
