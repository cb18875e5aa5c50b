import Blueprint.Compile.Session

/-!
# Compiling documents

A document is compiled by going through its outline. Components and aliases are registered as they
come, and an import compiles another document at the place where it stands, so of two declarations
of a name the later one holds. A bad declaration is noted and the walk goes on; an import that
cannot be loaded ends it.

The target of an import is looked for beside its document first and then beside the document the
compilation started from. A document is on the list of open ones while it is compiled, and a target
on that list is refused. Every import is compiled with one level less to go
(`Compiler.compileWithin`), so that compiling ends whatever the source says.
-/

namespace Blueprint

/-- What is needed to compile documents. -/
structure Compiler where
  source : Source
  environment : Environment := {}
  hooks : Hooks := {}
  /-- Whether a location is looked for as it is, and not beside a document. -/
  standsAlone : (location : String) → Bool := Location.isAbsolute

/-- What compiling a document gave. -/
structure Compilation where
  /-- How many definitions the registry gained. -/
  outcome : Except Error Nat
  registry : Registry
  notices : List Notice := []

namespace Compiler

/-- Loads and reads the document at a location. -/
def readDocument (c : Compiler) (location : String) : Except Error Element :=
  match c.source.load location with
  | .error cause => .error (.importFailed location (.resource cause))
  | .ok resource =>
    match c.source.read resource with
    | .error cause => .error (.importFailed location (.markup cause))
    | .ok root => .ok root

/-- Compiles the root of a document that was opened at a location. -/
abbrev DocumentWalk := (location : String) → Element → Walk Unit

/-- Shows a declaration to the hooks and registers what they make of it. -/
def registerDeclaration (c : Compiler) (e : Element) :
    Except Error Declaration → Walk (Except Error Declaration)
  | .error cause => return .error cause
  | .ok d => do
    Walk.notify (.decorating e.name d.name)
    match c.hooks.decorate e d with
    | .error cause => return .error cause
    | .ok d =>
      let registered ← Walk.onRegistry (·.declare d)
      return registered.map fun _ => d

/-- Tells what became of the component that an element declares. -/
def reportComponent (location : String) (index : Nat) (e : Element) :
    Except Error Declaration → Walk Unit
  | .ok d => do
    Walk.emit (.declarationRegistered d.name d.aliases location)
    Walk.notify (.component d.name d.aliases)
  | .error cause => Walk.reject location index (e.given "id") cause

/-- Registers the component that an element declares. -/
def compileComponent (c : Compiler) (declared : Declared) (location : String) (index : Nat)
    (e : Element) (defaults : Defaults) : Walk Declared := do
  let names := (← get).registry.names
  let (read, declared) ← Walk.trace (declared.readComponent names location defaults e)
  reportComponent location index e (← c.registerDeclaration e read)
  return declared

/-- Registers the alias that an element declares. -/
def compileAlias (location : String) (index : Nat) (e : Element) : Walk Unit := do
  match e.given "name", e.given "alias" with
  | some name, some aliasName =>
    match ← Walk.onRegistry (·.registerAlias name aliasName) with
    | .ok () => Walk.notify (.aliased name aliasName)
    | .error cause => Walk.reject location index (some name) cause
  | none, aliasName =>
    Walk.reject location index none (.invalidAlias "" (aliasName.getD "") .blankName)
  | some name, none =>
    Walk.reject location index (some name) (.invalidAlias name "" .blankAlias)

/-- Hands an unknown element to the hooks. -/
def compileCustom (c : Compiler) (location : String) (index : Nat) (e : Element) :
    Walk Unit := do
  Walk.notify (.custom e.name location)
  match ← Walk.onRegistry (c.hooks.handle e location) with
  | .ok () => return ()
  | .error cause => Walk.reject location index (some e.name) cause

/-- The location that an import element asks for. -/
def importLocation (c : Compiler) (document : String) (e : Element) : Except Error String :=
  match e.given "resource" with
  | none => .error (.invalidImport (.noTarget document))
  | some raw =>
    match c.environment.resolveRequired raw with
    | .error cause => .error cause
    | .ok resolved =>
      let location := Text.trim resolved
      if location.isEmpty then .error (.invalidImport (.emptyTarget raw document))
      else .ok location

/-- Compiles the document at `target`. Where a document that cannot be read is no failure, because
there is another place to look at, the answer is `false`. -/
def compileTarget (c : Compiler) (walk : DocumentWalk) (location target : String)
    (fallback : Option String) : Walk Bool := do
  let opened := (← get).opened
  if opened.contains target then
    throw (.importFailed target (.circular (opened ++ [target])))
  match c.readDocument target with
  | .error cause =>
    if fallback.any (· ≠ target) then
      Walk.emit (.importRetried location target cause.message)
      return false
    else throw cause
  | .ok root =>
    Walk.emit (.importing location target (opened.getLast?.getD ""))
    Walk.opening target (walk target root)
    Walk.notify (.imported location [target])
    return true

/-- Compiles what an import element of a document asks for. -/
def compileImport (c : Compiler) (walk : DocumentWalk) (base document : String) (e : Element) :
    Walk Unit := do
  match c.importLocation document e with
  | .error cause => throw cause
  | .ok location =>
    if c.standsAlone location then
      discard <| c.compileTarget walk location location none
    else
      let beside := Location.resolveRelative document location
      let fallback := Location.resolveRelative base location
      if c.source.available beside then
        if ← c.compileTarget walk location beside (some fallback) then return ()
      discard <| c.compileTarget walk location fallback none

/-- Carries out an entry of a document. An entry that takes a number is given `index`. -/
def compileEntry (c : Compiler) (walk : DocumentWalk) (base location : String) (index : Nat)
    (declared : Declared) : OutlineEntry → Walk Declared
  | .skipped profiles => do
    Walk.emit (.groupSkipped location profiles)
    return declared
  | .invalidDefaults cause => do
    Walk.reject location index none cause
    return declared
  | .enter group => do
    Walk.emit (.groupEntered location group.children.length)
    Walk.notify (.entered group.name location)
    return declared
  | .leave group => do
    Walk.notify (.left group.name location)
    return declared
  | .component e defaults => c.compileComponent declared location index e defaults
  | .aliasing e => do
    compileAlias location index e
    return declared
  | .importing e => do
    c.compileImport walk base location e
    return declared
  | .custom e => do
    c.compileCustom location index e
    return declared

/-- Goes through entries of a document; `index` counts those that take a number. The answer is the
next number with what the document has declared. -/
def compileEntries (c : Compiler) (walk : DocumentWalk) (base location : String) :
    (index : Nat) → Declared → List OutlineEntry → Walk (Nat × Declared)
  | index, declared, [] => return (index, declared)
  | index, declared, entry :: entries => do
    let declared ← c.compileEntry walk base location index declared entry
    let next := if entry.takesNumber then index + 1 else index
    compileEntries c walk base location next declared entries

/-- Compiles a document whose imports are compiled by `walk`. -/
def compileDocument (c : Compiler) (walk : DocumentWalk) (base : String) : DocumentWalk :=
  fun location root =>
    discard <| c.compileEntries walk base location 0 {} (root.outline c.environment {})

/-- Compiles a document with at most so many documents open inside each other, itself included. -/
def compileWithin (c : Compiler) (base : String) : (depth : Nat) → DocumentWalk
  | 0 => fun target _ => throw (.importFailed target .tooDeep)
  | depth + 1 => c.compileDocument (c.compileWithin base depth) base

/-- Compiles a document with as many open inside each other as the source allows. -/
def compileFrom (c : Compiler) (base : String) : DocumentWalk :=
  c.compileWithin base (c.source.depthLimit + 1)

/-- Compiles a document that was read from a location into a registry. -/
def compile (c : Compiler) (root : Element) (location : String) (registry : Registry) :
    Traced Compilation :=
  match c.compileFrom location location root (.start location registry) with
  | .error cause s => ⟨⟨.error cause, s.registry, s.notices⟩, s.events⟩
  | .ok () s =>
    let total := s.registry.count
    let added := total - registry.count
    let outcome := if s.rejections.isEmpty then .ok added
      else .error (.rejected location s.rejections)
    ⟨⟨outcome, s.registry, s.notices⟩,
      s.events ++ [.compiled location added total s.rejections.length]⟩

/-- Loads the document at a location and compiles it into a registry. -/
def load (c : Compiler) (location : String) (registry : Registry) : Traced Compilation :=
  match c.readDocument location with
  | .error cause => return ⟨.error cause, registry, []⟩
  | .ok root => c.compile root location registry

/-- A compiler as a log shows it. -/
def describe (c : Compiler) : String :=
  "DocumentCompiler \x7b active_profiles: " ++ Text.quotedList c.environment.active ++ ", .. \x7d"

end Compiler

end Blueprint
