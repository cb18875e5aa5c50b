/-!
# Values

What a definition injects into a constructor argument or a property : a literal text, a reference
to another component, a list of values, or null. A list may ask to be appended to the list it
inherits; `Value.overlay` is the only place where that matters.
-/

namespace Blueprint

/-- A value to inject. -/
inductive Value where
  /-- A text, converted by whoever builds the component. -/
  | literal (text : String)
  /-- Another component, by name. -/
  | reference (name : String)
  /-- Values in order; `merge` asks for the items of the inherited list in front. -/
  | list (items : List Value) (merge : Option Bool)
  /-- No value at all, said explicitly. -/
  | null
deriving Repr, Inhabited

namespace Value

mutual

/-- Equality of values can be decided. -/
def decEq : (a b : Value) → Decidable (a = b)
  | .literal s, .literal t =>
    if h : s = t then isTrue (by rw [h]) else isFalse (by simpa using h)
  | .reference s, .reference t =>
    if h : s = t then isTrue (by rw [h]) else isFalse (by simpa using h)
  | .list xs m, .list ys n =>
    match decEqList xs ys with
    | isTrue h => if hm : m = n then isTrue (by rw [h, hm]) else isFalse (by simp [hm])
    | isFalse h => isFalse (by simp [h])
  | .null, .null => isTrue rfl
  | .literal _, .reference _ | .literal _, .list _ _ | .literal _, .null
  | .reference _, .literal _ | .reference _, .list _ _ | .reference _, .null
  | .list _ _, .literal _ | .list _ _, .reference _ | .list _ _, .null
  | .null, .literal _ | .null, .reference _ | .null, .list _ _ => isFalse (by simp)

/-- Equality of lists of values can be decided. -/
def decEqList : (xs ys : List Value) → Decidable (xs = ys)
  | [], [] => isTrue rfl
  | [], _ :: _ | _ :: _, [] => isFalse (by simp)
  | x :: xs, y :: ys =>
    match decEq x y with
    | isTrue h =>
      match decEqList xs ys with
      | isTrue hs => isTrue (by rw [h, hs])
      | isFalse hs => isFalse (by simp [hs])
    | isFalse h => isFalse (by simp [h])

end

instance : DecidableEq Value := decEq

mutual

/-- The components a value refers to, in order, those of nested lists included. -/
def references : Value → List String
  | .reference name => [name]
  | .list items _ => referencesList items
  | .literal _ | .null => []

/-- The components that the values refer to, in order. -/
def referencesList : List Value → List String
  | [] => []
  | v :: vs => v.references ++ referencesList vs

end

theorem referencesList_eq_flatMap (vs : List Value) :
    referencesList vs = vs.flatMap references := by
  induction vs with
  | nil => simp [referencesList]
  | cons v vs ih => simp [referencesList, ih]

/-- The value of a child over the value it inherits : a list that asks for it goes behind the
inherited list, and every other value stands alone. -/
def overlay : (child inherited : Value) → Value
  | .list items (some true), .list inherited _ => .list (inherited ++ items) none
  | child, _ => child

end Value

end Blueprint
