import Blueprint.Dependency.Tracker
import Blueprint.Registry.Names
import Blueprint.Scope

/-!
# Registries

A `Registry` holds definitions and aliases, the dependencies and creation marks of its components,
its own scopes, and a memory of merged definitions. Every change of the names counts as a new
revision and empties the memory; what is remembered carries the sum of the revisions of the
registry and its ancestors at that time.

Operations answer with the registry after them, also when they fail : a declaration with a refused
alias is undone, which is a change like any other.
-/

namespace Blueprint

/-- A merged definition and the revisions it was computed at. -/
structure Memory where
  stamp : UInt64
  definition : Definition
deriving Inhabited

/-- Definitions under names, with everything that is known about them. -/
structure Registry where
  names : Names := {}
  /-- Counts the changes of the names, modulo the range of the counter. -/
  revision : UInt64 := 0
  /-- Merged definitions by canonical name. -/
  memory : Table String Memory := {}
  tracker : Tracker := {}
  scopes : Scopes := {}
  policy : Policy := {}
  /-- How many ancestors the registry has. -/
  depth : Nat := 0
deriving Inhabited

namespace Registry

/-- An empty registry without a parent. -/
def root (policy : Policy) : Traced Registry := do
  Traced.emit (.rootCreated policy.overrideDefinitions policy.overrideAliases)
  return { policy }

/-- An empty registry below `parent`. -/
def child (parent : Registry) (policy : Policy) : Traced Registry := do
  let depth := parent.depth + 1
  Traced.emit (.childCreated parent.depth depth parent.names.definitions.size)
  return { policy, depth }

/-- The registry with other names. -/
def withNames (r : Registry) (names : Names) : Registry :=
  { r with names, revision := r.revision + 1, memory := {} }

/-- How many definitions there are. -/
def count (r : Registry) : Nat := r.names.definitions.size

/-- The names of the definitions, in the order in which they were registered. -/
def definedNames (r : Registry) : List String := r.names.definitions.keys

/-- Registers a definition under a name. -/
def register (r : Registry) (name : String) (d : Definition) :
    Traced (Except Error Unit × Registry) := do
  match ← r.names.define r.policy name d with
  | .error e => return (.error e, r)
  | .ok names =>
    Traced.emit (.definitionRegistered name r.depth names.definitions.size)
    return (.ok (), r.withNames names)

/-- Points an alias at a name. -/
def registerAlias (r : Registry) (name aliasName : String) :
    Traced (Except Error Unit × Registry) := do
  match ← r.names.pointAlias r.policy name aliasName with
  | .error e => return (.error e, r)
  | .ok none => return (.ok (), r)
  | .ok (some names) => return (.ok (), r.withNames names)

/-- Points aliases at a name, up to the first that is refused, which is told. -/
def registerAliases (r : Registry) (name : String) :
    (aliases : List String) → Traced (Option (String × Error) × Registry)
  | [] => return (none, r)
  | aliasName :: rest => do
    match ← r.registerAlias name aliasName with
    | (.ok (), r) => r.registerAliases name rest
    | (.error e, r) => return (some (aliasName, e), r)

/-- Registers a definition under its name with all its aliases, or not at all. -/
def declare (r : Registry) (d : Declaration) : Traced (Except Error Unit × Registry) := do
  match ← r.register d.name d.definition with
  | (.error e, r) => return (.error e, r)
  | (.ok (), defined) =>
    match ← defined.registerAliases d.name d.aliases with
    | (none, done) => return (.ok (), done)
    | (some (aliasName, e), partly) =>
      Traced.emit (.declarationUndone d.name aliasName)
      return (.error e, partly.withNames (r.names.restore d.name d.aliases partly.names))

/-- Removes the definition of a name and its dependencies; aliases stay. -/
def remove (r : Registry) (name : String) : Traced (Except Error Definition × Registry) := do
  match r.names.definitions.get? name with
  | none => return (.error (.notFound name), r)
  | some d =>
    Traced.emit (.definitionRemoved name r.depth)
    let names := { r.names with definitions := r.names.definitions.erase name }
    return (.ok d, { r.withNames names with tracker := r.tracker.disconnect name })

/-- Removes an alias. -/
def removeAlias (r : Registry) (aliasName : String) : Except Error Unit × Registry :=
  if r.names.aliases.contains aliasName then
    (.ok (), r.withNames { r.names with aliases := r.names.aliases.erase aliasName })
  else (.error (.notFound aliasName), r)

/-- Removes all definitions and aliases, dependencies and marks; scopes stay. -/
def clear (r : Registry) : Traced Registry := do
  Traced.emit (.registryCleared r.depth r.count)
  return { r.withNames {} with tracker := r.tracker.clear }

/-- Registers a scope. -/
def registerScope (r : Registry) (scope : String) : Traced (Except Error Unit × Registry) := do
  match ← r.scopes.register scope with
  | .ok scopes => return (.ok (), { r with scopes })
  | .error e => return (.error e, r)

/-! ## Dependencies, by canonical name -/

/-- Records that one component depends on another; the answer is whether that is new. -/
def connect (r : Registry) (dependent dependency : String) : Traced (Bool × Registry) := do
  let (isNew, tracker) ←
    r.tracker.connect (r.names.denoted dependent) (r.names.denoted dependency)
  return (isNew, { r with tracker })

/-- Records that a component depends on others. -/
def connectAll (r : Registry) (dependent : String) : (dependencies : List String) →
    Traced Registry
  | [] => return r
  | dependency :: rest => do
    let (_, r) ← r.connect dependent dependency
    r.connectAll dependent rest

/-- The components that depend on a name. -/
def dependentsOf (r : Registry) (name : String) : List String :=
  r.tracker.graph.dependentsOf (r.names.denoted name)

/-- The components that a name depends on. -/
def dependenciesOf (r : Registry) (name : String) : List String :=
  r.tracker.graph.dependenciesOf (r.names.denoted name)

/-- Whether `candidate` depends on `name`, directly or through others. -/
def isDependent (r : Registry) (name candidate : String) : Bool :=
  r.tracker.graph.isDependent (r.names.denoted name) (r.names.denoted candidate)

/-- The names in an order in which their components can be torn down. -/
def teardown (r : Registry) (names : List String) : List String :=
  r.tracker.graph.teardown (names.map r.names.denoted)

/-! ## Creation marks, by canonical name -/

/-- Whether a component is in creation. -/
def isCreating (r : Registry) (name : String) : Bool :=
  r.tracker.isCreating (r.names.denoted name)

/-- Marks a component as being created. -/
def mark (r : Registry) (name : String) : Traced (Except Error Unit × Registry) := do
  match ← r.tracker.mark (r.names.denoted name) with
  | .ok tracker => return (.ok (), { r with tracker })
  | .error e => return (.error e, r)

/-- Takes a mark off; the answer is whether there was one. -/
def unmark (r : Registry) (name : String) : Bool × Registry :=
  let (was, tracker) := r.tracker.unmark (r.names.denoted name)
  (was, { r with tracker })

/-- Marks a component until the guard is given back. -/
def begin (r : Registry) (name : String) : Traced (Except Error CreationGuard × Registry) := do
  match ← r.tracker.begin (r.names.denoted name) with
  | .ok (guard, tracker) => return (.ok guard, { r with tracker })
  | .error e => return (.error e, r)

/-- Gives a guard back. -/
def release (r : Registry) (guard : CreationGuard) : Registry :=
  { r with tracker := r.tracker.release guard }

/-- A registry as a log shows it. -/
def describe (r : Registry) : String :=
  s!"Registry \x7b definition_count: {r.count}, alias_count: {r.names.aliases.size}, " ++
    s!"depth: {r.depth}, has_parent: {decide (r.depth ≠ 0)}, " ++
    s!"config: RegistryConfig \x7b allow_definition_overriding: {r.policy.overrideDefinitions}, " ++
    s!"allow_alias_overriding: {r.policy.overrideAliases} \x7d \x7d"

end Registry

end Blueprint
