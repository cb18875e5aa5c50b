import Std.Data.TreeMap
import Std.Data.TreeSet

/-!
# Dependency graphs

An edge says that one component, the dependent, depends on another, the dependency. A `Graph`
keeps for every name its dependents and its dependencies, both in the order in which the edges
came in; `connect` adds an edge on both sides and `disconnect` takes away every edge of a name.

Two walks go from a dependency to its dependents. `isDependent` looks for a path to a candidate,
and `teardown` orders names so that dependents come before what they depend on : names are visited
in the given order, each after all its dependents that were not visited before, and those that
were asked for are listed. Both walks keep what is left to do on a list of their own, and every
name is expanded once, which is why they end (`weight_insert_lt`).
-/

namespace Blueprint

/-- Names that were visited. -/
abbrev NameSet := Std.TreeSet String

/-- Edges between names, seen from both ends. -/
structure Graph where
  /-- For every dependency the names that depend on it. -/
  dependents : Std.TreeMap String (List String) := {}
  /-- For every dependent the names it depends on. -/
  dependencies : Std.TreeMap String (List String) := {}
deriving Inhabited

namespace Graph

/-- The names that depend on `name`, in the order of their edges. -/
def dependentsOf (g : Graph) (name : String) : List String := (g.dependents.get? name).getD []

/-- The names that `name` depends on, in the order of their edges. -/
def dependenciesOf (g : Graph) (name : String) : List String :=
  (g.dependencies.get? name).getD []

/-- Whether anything depends on `name`. -/
def hasDependents (g : Graph) (name : String) : Bool := !(g.dependentsOf name).isEmpty

/-- Adds a name that is not listed yet. -/
def addName (names : List String) (name : String) : List String :=
  if names.contains name then names else names ++ [name]

/-- Lists `value` under `key`. -/
def link (t : Std.TreeMap String (List String)) (key value : String) :
    Std.TreeMap String (List String) :=
  t.insert key (addName ((t.get? key).getD []) value)

/-- Takes `value` off the list of `key`. -/
def unlink (t : Std.TreeMap String (List String)) (key value : String) :
    Std.TreeMap String (List String) :=
  match t.get? key with
  | some names => t.insert key (names.filter (· ≠ value))
  | none => t

/-- Whether the edge is there. -/
def hasEdge (g : Graph) (dependent dependency : String) : Bool :=
  (g.dependentsOf dependency).contains dependent

/-- Records that `dependent` depends on `dependency`. -/
def connect (g : Graph) (dependent dependency : String) : Graph where
  dependents := link g.dependents dependency dependent
  dependencies := link g.dependencies dependent dependency

/-- Drops every edge of `name`. -/
def disconnect (g : Graph) (name : String) : Graph :=
  let dependencies := (g.dependentsOf name).foldl (unlink · · name) g.dependencies
  let needed := (dependencies.get? name).getD []
  { dependents := needed.foldl (unlink · · name) (g.dependents.erase name)
    dependencies := dependencies.erase name }

/-! ## Visiting every name once -/

/-- The work that is left : every name with dependents that is not visited, each followed by its
dependents. -/
def weight (g : Graph) (visited : NameSet) : Nat :=
  ((g.dependents.toList.filter fun e => !visited.contains e.1).flatMap fun e => e.1 :: e.2).length

private theorem length_flatMap_filter_le {α β : Type} (f : α → List β) {p q : α → Bool}
    (hpq : ∀ x, p x = true → q x = true) (l : List α) :
    ((l.filter p).flatMap f).length ≤ ((l.filter q).flatMap f).length := by
  induction l with
  | nil => simp
  | cons a l ih =>
    by_cases hp : p a = true
    · simp only [List.filter_cons, hp, hpq a hp, if_true, List.flatMap_cons, List.length_append]
      exact Nat.add_le_add_left ih _
    · by_cases hq : q a = true
      · simp only [List.filter_cons, hp, hq, if_true, List.flatMap_cons, List.length_append]
        exact Nat.le_trans ih (Nat.le_add_left _ _)
      · simpa [hp, hq] using ih

private theorem length_flatMap_filter_add_le {α β : Type} (f : α → List β) {p q : α → Bool}
    (hpq : ∀ x, p x = true → q x = true) {l : List α} {a : α} (ha : a ∈ l)
    (hp : p a = false) (hq : q a = true) :
    ((l.filter p).flatMap f).length + (f a).length ≤ ((l.filter q).flatMap f).length := by
  induction l with
  | nil => cases ha
  | cons b l ih =>
    rcases List.mem_cons.mp ha with rfl | ha
    · have := length_flatMap_filter_le f hpq l
      simp only [List.filter_cons, hp, hq, if_true, List.flatMap_cons, List.length_append]
      simp only [Bool.false_eq_true, if_false]
      omega
    · have ih := ih ha
      by_cases hpb : p b = true
      · simp only [List.filter_cons, hpb, hpq b hpb, if_true, List.flatMap_cons,
          List.length_append]
        omega
      · by_cases hqb : q b = true
        · simp only [List.filter_cons, hpb, hqb, if_true, List.flatMap_cons, List.length_append]
          simp only [Bool.false_eq_true, if_false]
          omega
        · simpa [hpb, hqb] using ih

/-- Visiting a name leaves no more to do. -/
theorem weight_insert_le (g : Graph) (visited : NameSet) (name : String) :
    g.weight (visited.insert name) ≤ g.weight visited :=
  length_flatMap_filter_le (fun e : String × List String => e.1 :: e.2)
    (fun x hx => by simp_all [Std.TreeSet.contains_insert]) g.dependents.toList

/-- Visiting a name with dependents leaves less to do, even with its dependents on the list. -/
theorem weight_insert_lt (g : Graph) {visited : NameSet} {name : String} {names : List String}
    (hn : g.dependents.get? name = some names) (hv : visited.contains name = false) :
    g.weight (visited.insert name) + names.length < g.weight visited := by
  have hmem : (name, names) ∈ g.dependents.toList :=
    Std.TreeMap.mem_toList_iff_getElem?_eq_some.mpr hn
  have h : g.weight (visited.insert name) + (name :: names).length ≤ g.weight visited :=
    length_flatMap_filter_add_le (fun e : String × List String => e.1 :: e.2)
      (fun x hx => by simp_all [Std.TreeSet.contains_insert]) hmem
      (by simp [Std.TreeSet.contains_insert]) (by simpa using hv)
  exact h

/-! ## Reaching a candidate -/

/-- Looks for `candidate` among the dependents of the pending names, of these, and so on. -/
def reaches (g : Graph) (candidate : String) (visited : NameSet) : (pending : List String) → Bool
  | [] => false
  | name :: pending =>
    if _hv : visited.contains name then reaches g candidate visited pending
    else match _hn : g.dependents.get? name with
    | none => reaches g candidate (visited.insert name) pending
    | some names =>
      names.contains candidate ||
        reaches g candidate (visited.insert name) (names.reverse ++ pending)
termination_by pending => g.weight visited + pending.length
decreasing_by
  · simp
  · have := g.weight_insert_le visited name
    simp only [List.length_cons]
    omega
  · have := g.weight_insert_lt _hn (eq_false_of_ne_true _hv)
    simp only [List.length_append, List.length_reverse, List.length_cons]
    omega

/-- Whether `candidate` depends on `name`, directly or through others. -/
def isDependent (g : Graph) (name candidate : String) : Bool := g.reaches candidate {} [name]

/-! ## Teardown -/

/-- A step of the walk over dependents. -/
inductive Visit where
  /-- Go to the dependents of a name. -/
  | enter (name : String)
  /-- All dependents of the name were visited. -/
  | leave (name : String)
deriving DecidableEq, Repr

/-- Carries out the visits. `done` lists the wanted names that were left, the last first. -/
def visitAll (g : Graph) (wanted : String → Bool) (visited : NameSet) (done : List String) :
    (visits : List Visit) → List String
  | [] => done.reverse
  | .leave name :: visits =>
    visitAll g wanted visited (if wanted name then name :: done else done) visits
  | .enter name :: visits =>
    if _hv : visited.contains name then visitAll g wanted visited done visits
    else match _hn : g.dependents.get? name with
    | none => visitAll g wanted (visited.insert name)
        (if wanted name then name :: done else done) visits
    | some names =>
      visitAll g wanted (visited.insert name) done
        (names.map .enter ++ .leave name :: visits)
termination_by visits => g.weight visited + visits.length
decreasing_by
  · simp
  · simp
  · have := g.weight_insert_le visited name
    simp only [List.length_cons]
    omega
  · have := g.weight_insert_lt _hn (eq_false_of_ne_true _hv)
    simp only [List.length_append, List.length_map, List.length_cons]
    omega

/-- The names in an order in which they can be torn down. -/
def teardown (g : Graph) (names : List String) : List String :=
  let wanted : NameSet := Std.TreeSet.ofList names
  visitAll g wanted.contains {} [] (names.map .enter)

end Graph

end Blueprint
