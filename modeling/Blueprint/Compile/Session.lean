import Blueprint.Declaration.Component
import Blueprint.Document.Library
import Blueprint.Document.Outline
import Blueprint.Registry.Basic

/-!
# Compile sessions

Compiling a document works on one registry and collects what it finds on the way : the invalid
declarations, the notices for an observer, and events. It also keeps the list of the documents that
are open, because one may import another. All of that is a `Session`, which outlives a failure :
`Walk α` is a computation that ends with a value or with an error, and in both cases with a
session.

`Hooks` are the two places where an application takes part : it may change or refuse a declaration
before it is registered, and it handles elements that the library does not know.
-/

namespace Blueprint

/-- What an observer of a compilation is told. -/
inductive Notice where
  | entered (element location : String)
  | left (element location : String)
  /-- A declaration is shown to the hooks. -/
  | decorating (element name : String)
  /-- An unknown element is shown to the hooks. -/
  | custom (element location : String)
  | component (name : String) (aliases : List String)
  | aliased (name aliasName : String)
  | imported (location : String) (resolved : List String)
deriving DecidableEq, Repr

/-- What an application adds to the compiler. -/
structure Hooks where
  /-- Changes or refuses a declaration. -/
  decorate : Element → Declaration → Except Error Declaration := fun _ d => .ok d
  /-- Handles an unknown element of the document at a location. -/
  handle : Element → (location : String) → Registry → Traced (Except Error Unit × Registry) :=
    fun _ _ r => return (.ok (), r)

/-- The state of a compilation. -/
structure Session where
  registry : Registry
  /-- The documents that are open, outermost first. -/
  opened : List String := []
  /-- The invalid declarations so far. -/
  rejections : List (Rejection Error) := []
  notices : List Notice := []
  events : List Event := []
deriving Inhabited

/-- The session in which compiling a document begins. -/
def Session.start (location : String) (registry : Registry) : Session :=
  { registry, opened := [location], events := [.compiling location] }

/-- A computation that keeps the session when it fails. -/
abbrev Walk := EStateM Error Session

namespace Walk

/-- Reports an event. -/
def emit (e : Event) : Walk Unit := modify fun s => { s with events := s.events ++ [e] }

/-- Tells the observer. -/
def notify (n : Notice) : Walk Unit := modify fun s => { s with notices := s.notices ++ [n] }

/-- Takes over a value with its events. -/
def trace {α : Type} (x : Traced α) : Walk α := do
  modify fun s => { s with events := s.events ++ x.events }
  return x.value

/-- Runs an operation on the registry. -/
def onRegistry {α : Type} (operation : Registry → Traced (α × Registry)) : Walk α := do
  let (answer, registry) ← trace (operation (← get).registry)
  modify fun s => { s with registry }
  return answer

/-- Notes an invalid declaration and goes on. -/
def reject (location : String) (index : Nat) (name : Option String) (cause : Error) :
    Walk Unit := do
  emit (.declarationInvalid location index name cause.message)
  modify fun s =>
    { s with rejections := s.rejections ++ [⟨location, index, name, cause⟩] }

/-- Works on a document that is open meanwhile, and is closed also after a failure. -/
def opening {α : Type} (location : String) (work : Walk α) : Walk α := fun s =>
  match work { s with opened := s.opened ++ [location] } with
  | .ok a s => .ok a { s with opened := s.opened.dropLast }
  | .error e s => .error e { s with opened := s.opened.dropLast }

end Walk

end Blueprint
