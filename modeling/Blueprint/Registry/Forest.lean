import Blueprint.Registry.Lineage

/-!
# Forests of registries

Registries that may share ancestors, numbered in the order in which they were made. A registry
has a smaller number than its children, so `lineageOf` ends. `Forest.update` runs an operation on
the lineage of a registry and puts every registry of that lineage back in its place.
-/

namespace Blueprint

/-- A registry and the number of its parent. -/
structure ForestNode where
  registry : Registry
  parent : Option Nat
deriving Inhabited

/-- Numbered registries. -/
structure Forest where
  nodes : Array ForestNode := #[]
deriving Inhabited

namespace Forest

/-- The numbers of a registry and its ancestors; at most so many. -/
def numbersFrom (f : Forest) : (most : Nat) → (number : Nat) → List Nat
  | 0, _ => []
  | most + 1, number =>
    match f.nodes[number]? with
    | none => []
    | some node => number :: (match node.parent with
      | none => []
      | some parent => f.numbersFrom most parent)

/-- The numbers of a registry and its ancestors. -/
def numbers (f : Forest) (number : Nat) : List Nat := f.numbersFrom f.nodes.size number

/-- A registry with its ancestors. -/
def lineageOf (f : Forest) (number : Nat) : Lineage :=
  (f.numbers number).filterMap fun i => f.nodes[i]?.map (·.registry)

/-- Puts registries in the places of a registry and its ancestors. -/
def withLineage (f : Forest) (number : Nat) (l : Lineage) : Forest :=
  ⟨((f.numbers number).zip l).foldl
    (fun nodes (i, registry) => nodes.modify i fun node => { node with registry }) f.nodes⟩

/-- Runs an operation on a registry with its ancestors. -/
def update {α : Type} (f : Forest) (number : Nat) (operation : Lineage → Traced (α × Lineage)) :
    Traced (α × Forest) := do
  let (answer, l) ← operation (f.lineageOf number)
  return (answer, f.withLineage number l)

/-- A forest of one registry. -/
def single (registry : Registry) : Forest := ⟨#[{ registry, parent := none }]⟩

/-- Adds a registry below another one, by default with the policy of that. The answer is the
number of the new one. -/
def addChild (f : Forest) (number : Nat) (policy : Option Policy) : Traced (Nat × Forest) :=
  match f.nodes[number]? with
  | none => return (f.nodes.size, f)
  | some node => do
    let registry ← node.registry.child (policy.getD node.registry.policy)
    return (f.nodes.size, ⟨f.nodes.push { registry, parent := some number }⟩)

end Forest

end Blueprint
