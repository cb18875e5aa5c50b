import Blueprint.Log.Event

/-!
# Log settings

How the events of the library are shown : the least level, the target they are limited to, the
format, and the details beside each event. `Subscriber.directive` is the filter that the settings
stand for.
-/

namespace Blueprint

/-- How an event is laid out. -/
inductive LogFormat where
  | json
  | pretty
  | compact
deriving DecidableEq, Repr, Inhabited

/-- The name of the format. -/
def LogFormat.name : LogFormat → String
  | .json => "Json"
  | .pretty => "Pretty"
  | .compact => "Compact"

/-- The target of every event of this library. -/
def logTarget : String := "component_registry"

/-- How events are shown. -/
structure Subscriber where
  level : Level := .debug
  format : LogFormat := .pretty
  /-- Only events of this target are shown. -/
  target : Option String := none
  /-- A directive in the process environment replaces the level and the target. -/
  envFilter : Bool := true
  file : Bool := false
  lineNumber : Bool := false
  threadIds : Bool := false
  threadNames : Bool := false
deriving DecidableEq, Repr, Inhabited

/-- Limits the events to those of this library. -/
def Subscriber.libraryOnly (s : Subscriber) : Subscriber := { s with target := some logTarget }

/-- The filter that the settings stand for. -/
def Subscriber.directive (s : Subscriber) : String :=
  match s.target with
  | some target => s!"{target}={s.level.name}"
  | none => s.level.name

end Blueprint
