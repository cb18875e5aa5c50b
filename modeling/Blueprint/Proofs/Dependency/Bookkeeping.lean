import Blueprint.Dependency.Tracker
import Blueprint.Proofs.Dependency.Recording

/-!
# Edges from both ends

A graph lists every edge twice, at the dependency and at the dependent. The two sides are written
one after the other, and `disconnect` walks over one of them while it writes the other. `Paired`
says that they tell the same and list nothing twice. Connecting two names keeps that, and so does
taking away a name, which takes it off every list and leaves these as they are otherwise
(`dependentsOf_disconnect`, `dependenciesOf_disconnect`).

`Bookkeeping` is all that is written to a tracker, and after any of it the edges are paired
(`paired_of_run`).
-/

namespace Blueprint

namespace Graph

variable {g : Graph} {a b x y name : String} {names : List String}

/-! ## Taking a value off lists -/

theorem getD_get?_erase (t : Std.TreeMap String (List String)) (key name : String) :
    ((t.erase key).get? name).getD [] = if name = key then [] else (t.get? name).getD [] := by
  simp only [Std.TreeMap.get?_eq_getElem?, Std.TreeMap.getElem?_erase,
    Std.LawfulEqCmp.compare_eq_iff_eq, eq_comm (a := key)]
  split <;> rfl

/-- To take a name off one list leaves all other lists. -/
theorem getD_get?_unlink (t : Std.TreeMap String (List String)) (key value name : String) :
    ((unlink t key value).get? name).getD [] =
      if name = key then ((t.get? name).getD []).filter (· ≠ value) else (t.get? name).getD [] := by
  rw [unlink]
  split
  · rename_i names h
    simp only [Std.TreeMap.get?_eq_getElem?, Std.TreeMap.getElem?_insert,
      Std.LawfulEqCmp.compare_eq_iff_eq, eq_comm (a := key)] at h ⊢
    split
    · rename_i hname
      rw [hname, h]
      rfl
    · rfl
  · rename_i h
    split
    · rename_i hname
      rw [hname, h]
      rfl
    · rfl

/-- To take a name off several lists leaves all others. -/
theorem getD_get?_foldl_unlink (value : String) : ∀ (keys : List String)
    (t : Std.TreeMap String (List String)) (name : String),
    ((keys.foldl (unlink · · value) t).get? name).getD [] =
      if name ∈ keys then ((t.get? name).getD []).filter (· ≠ value) else (t.get? name).getD []
  | [], _, _ => by simp
  | key :: keys, t, name => by
    rw [List.foldl_cons, getD_get?_foldl_unlink value keys, getD_get?_unlink]
    by_cases hkey : name = key <;> by_cases hkeys : name ∈ keys <;> simp [hkey, hkeys]

/-- A name that is added to a list is not listed twice. -/
theorem nodup_addName (h : names.Nodup) (name : String) : (addName names name).Nodup := by
  rw [addName]
  split
  · exact h
  · rename_i hnot
    rw [List.contains_iff_mem] at hnot
    exact List.nodup_append.mpr ⟨h, List.nodup_singleton name, fun x hx y hy hxy =>
      hnot (List.mem_singleton.mp hy ▸ hxy ▸ hx)⟩

/-! ## Both ends -/

/-- Every edge is listed at both of its ends, and once at each. -/
structure Paired (g : Graph) : Prop where
  inverse : ∀ x y, x ∈ g.dependentsOf y ↔ y ∈ g.dependenciesOf x
  nodup_dependents : ∀ name, (g.dependentsOf name).Nodup
  nodup_dependencies : ∀ name, (g.dependenciesOf name).Nodup

theorem paired_empty : Paired {} where
  inverse x y := by simp [dependentsOf, dependenciesOf]
  nodup_dependents name := by simp [dependentsOf]
  nodup_dependencies name := by simp [dependenciesOf]

/-- An edge is written at both of its ends, unless it is there. -/
theorem Paired.connect (h : g.Paired) (a b : String) : (g.connect a b).Paired where
  inverse x y := by
    rw [← dependsOn_iff_mem, dependsOn_connect, dependsOn_iff_mem, mem_dependenciesOf_connect,
      h.inverse]
  nodup_dependents name := by
    rw [dependentsOf_connect]
    split
    · exact nodup_addName (h.nodup_dependents b) a
    · exact h.nodup_dependents name
  nodup_dependencies name := by
    rw [dependenciesOf_connect]
    split
    · exact nodup_addName (h.nodup_dependencies a) b
    · exact h.nodup_dependencies name

/-- A name that is not on a list need not be taken off it. -/
theorem filter_ne_of_not_mem (h : name ∉ names) : names.filter (· ≠ name) = names := by
  refine List.filter_eq_self.mpr fun x hx => ?_
  have hne : x ≠ name := fun hxn => h (hxn ▸ hx)
  simpa using hne

/-- A name that is disconnected depends on nothing, and no other depends on it. -/
theorem dependenciesOf_disconnect (h : g.Paired) (name x : String) :
    (g.disconnect name).dependenciesOf x =
      if x = name then [] else (g.dependenciesOf x).filter (· ≠ name) := by
  show (((((g.dependentsOf name).foldl (unlink · · name) g.dependencies).erase name).get? x).getD
    []) = _
  rw [getD_get?_erase, getD_get?_foldl_unlink]
  split
  · rfl
  · split
    · rfl
    · rename_i hx
      exact (filter_ne_of_not_mem fun hname => hx ((h.inverse x name).mpr hname)).symm

/-- Nothing depends on a name that is disconnected, and it is on no list of dependents. -/
theorem dependentsOf_disconnect (h : g.Paired) (name y : String) :
    (g.disconnect name).dependentsOf y =
      if y = name then [] else (g.dependentsOf y).filter (· ≠ name) := by
  -- The lists of dependents are written after the name was taken off those of dependencies.
  have needed : (((g.dependentsOf name).foldl (unlink · · name) g.dependencies).get? name).getD [] =
      (g.dependenciesOf name).filter (· ≠ name) := by
    rw [getD_get?_foldl_unlink]
    split
    · rfl
    · rename_i hself
      exact (filter_ne_of_not_mem fun hname => hself ((h.inverse name name).mpr hname)).symm
  show ((((((g.dependentsOf name).foldl (unlink · · name) g.dependencies).get? name).getD []).foldl
    (unlink · · name) (g.dependents.erase name)).get? y).getD [] = _
  rw [needed, getD_get?_foldl_unlink, getD_get?_erase]
  by_cases hy : y = name
  · simp [hy]
  · simp only [if_neg hy]
    split
    · rfl
    · rename_i hnot
      refine (filter_ne_of_not_mem fun hname => hnot ?_).symm
      exact List.mem_filter.mpr ⟨(h.inverse name y).mp hname, by simpa using hy⟩

/-- A name is taken off at both ends of all its edges. -/
theorem Paired.disconnect (h : g.Paired) (name : String) : (g.disconnect name).Paired where
  inverse x y := by
    rw [dependentsOf_disconnect h, dependenciesOf_disconnect h]
    by_cases hx : x = name <;> by_cases hy : y = name <;> simp [hx, hy, h.inverse]
  nodup_dependents y := by
    rw [dependentsOf_disconnect h]
    split
    · exact List.nodup_nil
    · exact (h.nodup_dependents y).filter _
  nodup_dependencies x := by
    rw [dependenciesOf_disconnect h]
    split
    · exact List.nodup_nil
    · exact (h.nodup_dependencies x).filter _

/-- Disconnecting a name takes away its edges and no other. -/
theorem dependsOn_disconnect (h : g.Paired) (name : String) :
    (g.disconnect name).DependsOn x y ↔ g.DependsOn x y ∧ x ≠ name ∧ y ≠ name := by
  rw [dependsOn_iff_mem, dependsOn_iff_mem, dependentsOf_disconnect h]
  by_cases hy : y = name <;> simp [hy]

end Graph

/-! ## Everything that is written to a tracker -/

/-- What is written to a tracker. -/
inductive Bookkeeping where
  | connect (dependent dependency : String)
  | disconnect (name : String)
  | clear
  | mark (name : String)
  | unmark (name : String)
deriving DecidableEq

/-- The tracker after it, whether or not it was refused. -/
def Bookkeeping.run : Bookkeeping → Tracker → Tracker
  | .connect dependent dependency, t => (t.connect dependent dependency).value.2
  | .disconnect name, t => t.disconnect name
  | .clear, t => t.clear
  | .mark name, t => (t.mark name).value.toOption.getD t
  | .unmark name, t => (t.unmark name).2

namespace Tracker

/-- The tracker after some bookkeeping, one thing after the other. -/
def run (t : Tracker) (entries : List Bookkeeping) : Tracker := entries.foldl (fun t b => b.run t) t

/-- Connecting answers whether the edge is new. -/
theorem value_connect (t : Tracker) (dependent dependency : String) :
    (t.connect dependent dependency).value = (!t.graph.hasEdge dependent dependency,
      { t with graph := t.graph.connect dependent dependency }) := by
  rw [connect]
  dsimp only
  split <;> rfl

/-- A mark is refused for a name that has one. -/
theorem value_mark (t : Tracker) (name : String) : (t.mark name).value =
    if t.isCreating name then .error (.circularDependency name (t.creating ++ [name]))
    else .ok { t with creating := t.creating ++ [name] } := by
  rw [mark]
  split <;> rfl

theorem graph_mark (t : Tracker) (name : String) :
    ((t.mark name).value.toOption.getD t).graph = t.graph := by
  rw [value_mark]
  split <;> rfl

end Tracker

/-- Whatever is written to a tracker, its edges stay paired. -/
theorem Bookkeeping.paired_run (b : Bookkeeping) {t : Tracker} (h : t.graph.Paired) :
    (b.run t).graph.Paired := by
  cases b with
  | connect dependent dependency =>
    rw [run, Tracker.value_connect]
    exact h.connect dependent dependency
  | disconnect name => exact h.disconnect name
  | clear => exact Graph.paired_empty
  | mark name =>
    rw [run, Tracker.graph_mark]
    exact h
  | unmark name => exact h

namespace Tracker

/-- Edges stay paired along everything that is written, one thing after the other. -/
theorem paired_run : ∀ (entries : List Bookkeeping) {t : Tracker}, t.graph.Paired →
    (t.run entries).graph.Paired
  | [], _, h => h
  | b :: entries, _, h => paired_run entries (b.paired_run h)

/-- The edges of every tracker are paired. -/
theorem paired_of_run (entries : List Bookkeeping) : (run {} entries).graph.Paired :=
  paired_run entries Graph.paired_empty

/-- Whatever was written to a tracker, every edge is listed at both of its ends, and once at each.
An edge that is recorded is new just if it was listed at neither end. Disconnecting a name takes
away its edges and no other, and what is left on the lists of the other names keeps its order. -/
theorem both_ends_of_run (entries : List Bookkeeping) :
    let t := run {} entries
    (∀ x y, x ∈ t.graph.dependentsOf y ↔ y ∈ t.graph.dependenciesOf x) ∧
    (∀ name, (t.graph.dependentsOf name).Nodup ∧ (t.graph.dependenciesOf name).Nodup) ∧
    (∀ a b, (t.connect a b).value.1 = true ↔
      a ∉ t.graph.dependentsOf b ∧ b ∉ t.graph.dependenciesOf a) ∧
    ∀ name, (∀ x y, (t.disconnect name).graph.DependsOn x y ↔
        t.graph.DependsOn x y ∧ x ≠ name ∧ y ≠ name) ∧
      (∀ other, (t.disconnect name).graph.dependentsOf other =
        if other = name then [] else (t.graph.dependentsOf other).filter (· ≠ name)) ∧
      ∀ other, (t.disconnect name).graph.dependenciesOf other =
        if other = name then [] else (t.graph.dependenciesOf other).filter (· ≠ name) := by
  intro t
  have h : t.graph.Paired := paired_of_run entries
  refine ⟨h.inverse, fun name => ⟨h.nodup_dependents name, h.nodup_dependencies name⟩,
    fun a b => ?_, fun name => ⟨fun x y => Graph.dependsOn_disconnect h name,
      Graph.dependentsOf_disconnect h name, Graph.dependenciesOf_disconnect h name⟩⟩
  rw [value_connect, ← h.inverse, and_self, ← Graph.dependsOn_iff_mem, Graph.DependsOn]
  simp

end Tracker

end Blueprint
