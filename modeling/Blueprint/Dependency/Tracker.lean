import Blueprint.Dependency.Graph
import Blueprint.Error
import Blueprint.Log.Traced

/-!
# Dependencies and creation marks

A `Tracker` holds the dependency graph of one registry and the components that are being created.
A component is marked while it is created; marking it again fails, and the error lists the marked
names from the oldest mark on. A `CreationGuard` is proof that a mark was taken, and giving it back
takes the mark off.
-/

namespace Blueprint

/-- The edges between components and the marks of those in creation. -/
structure Tracker where
  graph : Graph := {}
  /-- The names in creation, the oldest mark first. -/
  creating : List String := []
deriving Inhabited

/-- A mark that is to be given back. -/
structure CreationGuard where
  name : String
deriving DecidableEq, Repr

namespace Tracker

/-- Records an edge; the answer is whether it is new. -/
def connect (t : Tracker) (dependent dependency : String) : Traced (Bool × Tracker) := do
  let isNew := !t.graph.hasEdge dependent dependency
  if isNew then Traced.emit (.edgeRegistered dependent dependency)
  return (isNew, { t with graph := t.graph.connect dependent dependency })

/-- Drops every edge of a name. -/
def disconnect (t : Tracker) (name : String) : Tracker :=
  { t with graph := t.graph.disconnect name }

/-- Forgets all edges and marks. -/
def clear (_ : Tracker) : Tracker := {}

/-- Whether a name is in creation. -/
def isCreating (t : Tracker) (name : String) : Bool := t.creating.contains name

/-- Marks a name as being created. -/
def mark (t : Tracker) (name : String) : Traced (Except Error Tracker) := do
  if t.isCreating name then
    let chain := t.creating ++ [name]
    Traced.emit (.creationRepeated name chain)
    return .error (.circularDependency name chain)
  else return .ok { t with creating := t.creating ++ [name] }

/-- Takes a mark off; the answer is whether there was one. -/
def unmark (t : Tracker) (name : String) : Bool × Tracker :=
  (t.isCreating name, { t with creating := t.creating.filter (· ≠ name) })

/-- Marks a name until the guard is given back. -/
def begin (t : Tracker) (name : String) : Traced (Except Error (CreationGuard × Tracker)) := do
  match ← t.mark name with
  | .ok marked => return .ok (⟨name⟩, marked)
  | .error e => return .error e

/-- Gives a guard back. -/
def release (t : Tracker) (guard : CreationGuard) : Tracker := (t.unmark guard.name).2

end Tracker

/-- A guard as a log shows it. -/
def CreationGuard.describe (g : CreationGuard) : String :=
  "CreationGuard \x7b name: " ++ Text.quoted g.name ++ " \x7d"

end Blueprint
