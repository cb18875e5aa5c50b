import Blueprint.Registry.Basic

/-!
# Registries with their ancestors

A `Lineage` is a registry followed by its parent, the parent of that, and so on. A name that a
registry does not know is looked up in the next one.

A merged definition folds the chain of parents of a definition into one recipe. `Names.ancestry`
walks the chain as far as the names of one registry reach; a parent that they do not know, or that
is the definition itself, is merged by the ancestors. `Lineage.mergedDefinition` remembers its
results and gives them again as long as no registry of the lineage has changed its names.

`Lineage.merge` also records what the definition depends on and refuses a scope that nobody in
the lineage knows.
-/

namespace Blueprint

/-- A name with its definition. -/
abbrev Link := String × Definition

/-- How far the chain of parents of a name reaches in one registry. -/
inductive Ancestry where
  /-- The name has no definition. -/
  | unknown
  /-- The definitions from the name up to one without a parent. -/
  | rooted (links : List Link)
  /-- The definitions from the name up to one whose parent is for the ancestors to merge. -/
  | continues (links : List Link) (parent : String)
  /-- The names from the first on, up to one that comes for the second time. -/
  | circular (path : List String)
deriving Inhabited

/-- The parent of a definition, unless it is blank. -/
def Definition.parent? (d : Definition) : Option String :=
  d.parentName.filter fun parent => !Text.isBlank parent

namespace Names

/-- Walks on from a link with at most so many links to come; the links before it are in
`before`, the nearest first. -/
def ascend (n : Names) : (steps : Nat) → (before : List Link) → Link → Ancestry
  | steps, before, (name, d) =>
    let links := (name, d) :: before
    match d.parent? with
    | none => .rooted links.reverse
    | some requested =>
      let parent := n.denoted requested
      if parent = name then .continues links.reverse requested
      else if (links.map Prod.fst).contains parent then
        .circular ((links.map Prod.fst).reverse ++ [parent])
      else match steps with
      | 0 => .circular ((links.map Prod.fst).reverse ++ [parent])
      | steps + 1 =>
        match n.definitions.get? parent with
        | some next => ascend n steps links (parent, next)
        | none => .continues links.reverse requested

/-- The chain of parents of a name. No chain of different names is longer than the table. -/
def ancestry (n : Names) (name : String) : Ancestry :=
  match n.definitions.get? name with
  | none => .unknown
  | some d => n.ascend n.definitions.size [] (name, d)

end Names

/-- A registry followed by its ancestors, the nearest first. -/
abbrev Lineage := List Registry

namespace Lineage

/-- The sum of the revisions, modulo the range of the counter. -/
def stamp : Lineage → UInt64
  | [] => 0
  | r :: ancestors => r.revision + stamp ancestors

/-- The definition of a name or alias, from the nearest registry that has one. -/
def get : Lineage → (name : String) → Traced (Except Error Definition)
  | [], name => do
    Traced.emit (.definitionMissing name 0)
    return .error (.notFound name)
  | r :: ancestors, name =>
    match r.names.find? name with
    | some d => do
      Traced.emit (.definitionFound name r.depth)
      return .ok d
    | none => get ancestors name

/-- Whether the registry or an ancestor knows a scope. -/
def knowsScope (l : Lineage) (scope : String) : Bool := l.any fun r => r.scopes.contains scope

/-- The definitions of a chain, the nearest first, over what they inherit. -/
def fold (links : List Link) (inherited : Definition) : Definition :=
  links.foldr (fun link merged => link.2.overlay merged) inherited

/-- The definitions of a chain, the last of which inherits from nothing. -/
def foldRooted : (links : List Link) → Definition
  | [] => {}
  | [(_, d)] => { d with parentName := none }
  | (_, d) :: links => d.overlay (foldRooted links)

/-- The merged definition of a canonical name as it is remembered. -/
def remembered? (r : Registry) (name : String) (stamp : UInt64) : Option Definition :=
  (r.memory.get? name).bind fun m => if m.stamp = stamp then some m.definition else none

/-- The registry with a merged definition to remember. -/
def remember (r : Registry) (name : String) (stamp : UInt64) (definition : Definition) :
    Registry :=
  { r with memory := r.memory.insert name { stamp, definition } }

/-- The recipe of a name with everything it inherits, and the lineage that remembers it. -/
def mergedDefinition : Lineage → (name : String) → Traced (Except Error Definition × Lineage)
  | [], name => return (.error (.notFound name), [])
  | r :: ancestors, name => do
    let stamp := stamp (r :: ancestors)
    let canonical := r.names.denoted name
    match remembered? r canonical stamp with
    | some d =>
      Traced.emit (.mergeRemembered canonical)
      return (.ok d, r :: ancestors)
    | none =>
      match r.names.ancestry canonical with
      | .unknown =>
        let (answer, ancestors) ← mergedDefinition ancestors name
        return (answer, r :: ancestors)
      | .circular path => return (.error (.circularParent canonical path), r :: ancestors)
      | .rooted links =>
        let d := foldRooted links
        Traced.emit (.merged canonical (links.map Prod.fst))
        return (.ok d, remember r canonical stamp d :: ancestors)
      | .continues links parent =>
        match ← mergedDefinition ancestors parent with
        | (.error e, ancestors) => return (.error e, r :: ancestors)
        | (.ok inherited, ancestors) =>
          let d := fold links inherited
          Traced.emit (.merged canonical (links.map Prod.fst))
          return (.ok d, remember r canonical stamp d :: ancestors)

/-- The merged definition of a name. What it depends on is recorded, and its scope has to be
known. -/
def merge (l : Lineage) (name : String) : Traced (Except Error Definition × Lineage) := do
  match ← l.mergedDefinition name with
  | (.error e, l) => return (.error e, l)
  | (.ok d, l) =>
    let l ← match l with
      | [] => pure []
      | r :: ancestors => do
        let r ← r.connectAll name d.dependsOn
        pure (r :: ancestors)
    let scope := d.effectiveScope
    if knowsScope l scope then return (.ok d, l)
    else return (.error (.unknownScope name scope), l)

/-- Merges names, whether or not they can be merged. -/
def mergeEach (l : Lineage) : (names : List String) → Traced Lineage
  | [] => return l
  | name :: names => do
    let (_, l) ← l.merge name
    mergeEach l names

/-- An order in which all components of the nearest registry can be torn down. Without any
dependencies the last one registered comes first. -/
def teardown : Lineage → Traced (List String × Lineage)
  | [] => return ([], [])
  | r :: ancestors => do
    let names := r.definedNames
    match ← mergeEach (r :: ancestors) names with
    | [] => return ([], [])
    | r :: ancestors => return (r.tracker.graph.teardown names.reverse, r :: ancestors)

end Lineage

end Blueprint
