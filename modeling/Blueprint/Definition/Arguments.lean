import Blueprint.Definition.Value
import Blueprint.Table

/-!
# Constructor arguments

Arguments are given by position or matched by a hint, which is a type, a name or both.
`Arguments.addIndexed` sets a position and `Arguments.addGeneric` adds a matched argument : one
with the same hint is replaced where it stands, an equal one is not added twice.

`Arguments.overlay` puts the arguments of a child over those of its parent, position by position
and hint by hint.
-/

namespace Blueprint

/-- A value for a constructor parameter, with hints about which one. -/
structure Argument where
  value : Value
  /-- The declared type of the parameter. -/
  typeName : Option String
  /-- The declared name of the parameter. -/
  name : Option String
deriving DecidableEq, Repr, Inhabited

namespace Argument

/-- An argument without hints. -/
def ofValue (v : Value) : Argument := ⟨v, none, none⟩

/-- The argument carries a type or a name. -/
def hasHint (a : Argument) : Bool := a.typeName.isSome || a.name.isSome

/-- Both arguments carry the same hint. -/
def sameHint (a b : Argument) : Bool :=
  a.hasHint && a.typeName == b.typeName && a.name == b.name

end Argument

/-- Arguments by position, in ascending order of the positions. -/
abbrev Ascending (es : List (Nat × Argument)) : Prop := es.Pairwise fun x y => x.1 < y.1

/-- Constructor arguments, by position and by hint. -/
structure Arguments where
  /-- Positions, each with its argument. -/
  indexed : List (Nat × Argument) := []
  /-- The arguments without a position, in the order they were added. -/
  generic : List Argument := []
  ascending : Ascending indexed := by simp
deriving DecidableEq, Inhabited

namespace Arguments

/-- No arguments. -/
def empty : Arguments := {}

/-- Sets the argument at `index` in an ascending list of positions. -/
def setIndexed (index : Nat) (a : Argument) : List (Nat × Argument) → List (Nat × Argument)
  | [] => [(index, a)]
  | e :: es =>
    if index < e.1 then (index, a) :: e :: es
    else if index = e.1 then (index, a) :: es
    else e :: setIndexed index a es

theorem mem_setIndexed {i : Nat} {a : Argument} {es : List (Nat × Argument)} {x : Nat × Argument}
    (h : x ∈ setIndexed i a es) : x = (i, a) ∨ x ∈ es := by
  induction es with
  | nil => simpa [setIndexed] using h
  | cons e es ih =>
    simp only [setIndexed] at h
    split at h
    · simpa using h
    · split at h
      · rcases List.mem_cons.mp h with h | h
        · exact .inl h
        · exact .inr (List.mem_cons_of_mem _ h)
      · rcases List.mem_cons.mp h with h | h
        · exact .inr (h ▸ List.mem_cons_self)
        · exact (ih h).imp id (List.mem_cons_of_mem _)

theorem ascending_setIndexed (i : Nat) (a : Argument) {es : List (Nat × Argument)}
    (h : Ascending es) : Ascending (setIndexed i a es) := by
  induction es with
  | nil => simp [setIndexed]
  | cons e es ih =>
    obtain ⟨he, hes⟩ := List.pairwise_cons.mp h
    simp only [setIndexed]
    split
    · rename_i hlt
      refine List.pairwise_cons.mpr ⟨fun x hx => ?_, h⟩
      rcases List.mem_cons.mp hx with rfl | hx
      · exact hlt
      · exact Nat.lt_trans hlt (he x hx)
    · split
      · rename_i heq
        exact List.pairwise_cons.mpr ⟨fun x hx => heq ▸ he x hx, hes⟩
      · rename_i hge hne
        refine List.pairwise_cons.mpr ⟨fun x hx => ?_, ih hes⟩
        rcases mem_setIndexed hx with rfl | hx
        · exact Nat.lt_of_le_of_ne (Nat.not_lt.mp hge) (Ne.symm hne)
        · exact he x hx

/-- Replaces the first argument with the hint of `a`. -/
def replaceHinted (a : Argument) : List Argument → List Argument
  | [] => []
  | b :: bs => if b.sameHint a then a :: bs else b :: replaceHinted a bs

/-- Sets the argument at a position. -/
def addIndexed (args : Arguments) (index : Nat) (a : Argument) : Arguments where
  indexed := setIndexed index a args.indexed
  generic := args.generic
  ascending := ascending_setIndexed index a args.ascending

/-- Adds an argument without a position : it replaces the one with the same hint, if there is
one, and is left out if an equal one is there. -/
def addGeneric (args : Arguments) (a : Argument) : Arguments :=
  if args.generic.any (·.sameHint a) then
    { args with generic := replaceHinted a args.generic }
  else if args.generic.contains a then args
  else { args with generic := args.generic ++ [a] }

/-- The argument at a position. -/
def at? (args : Arguments) (index : Nat) : Option Argument :=
  (args.indexed.find? fun e => e.1 = index).map Prod.snd

/-- Whether a position is set. -/
def hasIndex (args : Arguments) (index : Nat) : Bool := args.indexed.any fun e => e.1 = index

/-- How many arguments there are. -/
def size (args : Arguments) : Nat := args.indexed.length + args.generic.length

/-- There are no arguments. -/
def isEmpty (args : Arguments) : Bool := args.indexed.isEmpty && args.generic.isEmpty

/-- All arguments, those with a position first. -/
def toList (args : Arguments) : List Argument := args.indexed.map Prod.snd ++ args.generic

/-- The arguments of a child over those of its parent. -/
def overlay (child parent : Arguments) : Arguments :=
  child.generic.foldl addGeneric
    (child.indexed.foldl (fun args e => args.addIndexed e.1 e.2) parent)

private theorem find?_setIndexed (i j : Nat) (a : Argument) (es : List (Nat × Argument)) :
    (setIndexed i a es).find? (fun e => e.1 = j) =
      if j = i then some (i, a) else es.find? fun e => e.1 = j := by
  induction es with
  | nil =>
    by_cases h : j = i
    · simp [setIndexed, h]
    · have : ¬ i = j := fun e => h e.symm
      simp [setIndexed, h, this]
  | cons e es ih =>
    simp only [setIndexed]
    by_cases h : j = i
    · subst h
      split
      · simp
      · split
        · simp
        · rename_i _ hne
          have : ¬ e.1 = j := fun e => hne e.symm
          simp only [List.find?_cons, this, decide_false, ih, if_true]
    · have hij : ¬ i = j := fun e => h e.symm
      split
      · simp [hij]
      · split
        · rename_i _ heq
          have : ¬ e.1 = j := heq ▸ hij
          simp [hij, this]
        · simp only [List.find?_cons, ih, h, if_false]

theorem at?_addIndexed (args : Arguments) (i j : Nat) (a : Argument) :
    (args.addIndexed i a).at? j = if j = i then some a else args.at? j := by
  simp only [at?, addIndexed, find?_setIndexed]
  split <;> simp

end Arguments

end Blueprint
