import Blueprint.Compile.Basic
import Blueprint.Environment.Locations
import Blueprint.Registry.Lineage

/-!
# Contexts

A `Context` builds registries from configured locations. A refresh compiles every document into a
new registry, and only if all of them succeed does that registry take the place of the current
one. Closing a context gives up the current registry and tells in which order its components can
be torn down.
-/

namespace Blueprint

/-- What is needed to build registries, and the one that was built last. -/
structure Context where
  /-- The name of the context, if it was given one. -/
  name : Option String := none
  /-- What the registries fall back to; empty if they stand alone. -/
  parent : Lineage := []
  locations : ConfigLocations := {}
  /-- The locations that stand in while none is configured. -/
  defaultLocations : List String := []
  compiler : Compiler
  policy : Policy := {}
  /-- The registry of the last refresh that succeeded, unless the context was closed since. -/
  current : Option Registry := none

/-- What a refresh gave. -/
structure Refresh where
  outcome : Except Error Unit
  context : Context
  notices : List Notice := []

namespace Context

/-- The name as a log shows it. A context without a name is known by a number, which is left
open. -/
def shownName (c : Context) : String := c.name.getD "context-_"

/-- Configures a text that may hold several locations. -/
def setLocation (c : Context) (text : String) : Context :=
  { c with locations := .ofText text }

/-- Configures texts that may hold several locations each. -/
def setLocations (c : Context) (texts : List String) : Context :=
  { c with locations := .ofTexts texts }

/-- The locations that the next refresh will load. -/
def resolvedLocations (c : Context) : Traced (Except Error (List String)) :=
  c.locations.resolve c.compiler.environment c.defaultLocations

/-- Whether there is a current registry. -/
def isActive (c : Context) : Bool := c.current.isSome

/-- An empty registry below the parent. -/
def newRegistry (c : Context) : Traced Registry :=
  match c.parent with
  | [] => Registry.root c.policy
  | parent :: _ => parent.child c.policy

/-- Loads documents into a registry, one after the other, up to the first that fails. -/
def loadAll (c : Context) (registry : Registry) (notices : List Notice) :
    (locations : List String) → Traced (Except Error Registry × List Notice)
  | [] => return (.ok registry, notices)
  | location :: rest => do
    let compilation ← c.compiler.load location registry
    let notices := notices ++ compilation.notices
    match compilation.outcome with
    | .error cause => return (.error cause, notices)
    | .ok _ => c.loadAll compilation.registry notices rest

/-- Builds a new registry from all locations and publishes it. -/
def refresh (c : Context) : Traced Refresh := do
  match ← c.resolvedLocations with
  | .error cause => return ⟨.error cause, c, []⟩
  | .ok locations =>
    Traced.emit (.refreshing locations)
    match ← c.loadAll (← c.newRegistry) [] locations with
    | (.error cause, notices) => return ⟨.error cause, c, notices⟩
    | (.ok registry, notices) =>
      Traced.emit (.refreshed c.shownName registry.count c.isActive)
      return ⟨.ok (), { c with current := some registry }, notices⟩

/-- Gives up the current registry. The answer is an order for the teardown of its components. -/
def close (c : Context) : Traced (List String × Context) := do
  match c.current with
  | none => return ([], c)
  | some registry =>
    let (order, lineage) ← Lineage.teardown (registry :: c.parent)
    Traced.emit (.closing order.length)
    return (order, { c with current := none, parent := lineage.drop 1 })

/-- Runs an operation on the current registry with its ancestors, if there is one. -/
def onCurrent {α : Type} (c : Context) (operation : Lineage → Traced (α × Lineage)) :
    Traced (Option α × Context) := do
  match c.current with
  | none => return (none, c)
  | some registry =>
    match ← operation (registry :: c.parent) with
    | (answer, []) => return (some answer, c)
    | (answer, registry :: parent) =>
      return (some answer, { c with current := some registry, parent })

/-- Runs an operation on the parent registry with its ancestors, if there is one. -/
def onParent {α : Type} (c : Context) (operation : Lineage → Traced (α × Lineage)) :
    Traced (Option α × Context) := do
  match c.parent with
  | [] => return (none, c)
  | parent =>
    let (answer, parent) ← operation parent
    return (some answer, { c with parent })

/-- A context as a log shows it. -/
def describe (c : Context) : String :=
  let locations := match c.locations.configured with
    | some locations => "Some(" ++ Text.quotedList locations ++ ")"
    | none => "None"
  "DefinitionContext \x7b id: ContextId(_), display_name: " ++ Text.quoted c.shownName ++
    s!", has_parent: {!c.parent.isEmpty}, locations: ConfigLocations \x7b locations: " ++
    locations ++ s!" \x7d, active: {c.isActive} \x7d"

end Context

end Blueprint
