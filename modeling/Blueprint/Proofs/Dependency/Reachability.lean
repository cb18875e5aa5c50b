import Blueprint.Proofs.Dependency.Bookkeeping
import Blueprint.Registry.Basic

/-!
# What depends on a name

`reaches` takes the pending names one after the other and puts the dependents of each on the list,
unless the name was visited. `Explored` is what it keeps : the candidate depends on no visited name
directly, and whatever depends on a visited name was visited itself or is pending. So a path from
the candidate to a visited name passes a pending one (`Explored.exists_mem_pending`), and the walk
finds the candidate just if a path leads from it to a pending name (`reaches_iff`). The graph may
have cycles; a name depends on itself only if it is on one.
-/

namespace Blueprint

namespace Graph

open Relation

variable {g : Graph} {candidate name : String} {visited : NameSet} {pending : List String}

/-- The dependents of the visited names were looked at, and the candidate is none of them. -/
structure Explored (g : Graph) (candidate : String) (visited : NameSet) (pending : List String) :
    Prop where
  not_dependsOn : ∀ y, visited.contains y = true → ¬g.DependsOn candidate y
  dependents : ∀ x y, visited.contains y = true → g.DependsOn x y →
    visited.contains x = true ∨ x ∈ pending

namespace Explored

theorem start (g : Graph) (candidate name : String) : g.Explored candidate {} [name] where
  not_dependsOn y hy := by simp at hy
  dependents x y hy := by simp at hy

/-- A pending name that was visited can be left out. -/
theorem skip (h : g.Explored candidate visited (name :: pending))
    (hv : visited.contains name = true) : g.Explored candidate visited pending where
  not_dependsOn := h.not_dependsOn
  dependents x y hy hxy := by
    rcases h.dependents x y hy hxy with hx | hx
    · exact .inl hx
    · rcases List.mem_cons.mp hx with rfl | hx
      · exact .inl hv
      · exact .inr hx

/-- A pending name that the candidate does not depend on directly is visited, and its dependents
become pending. -/
theorem enter (h : g.Explored candidate visited (name :: pending))
    (hname : ¬g.DependsOn candidate name) :
    g.Explored candidate (visited.insert name) ((g.dependentsOf name).reverse ++ pending) := by
  have inserted : ∀ x, (visited.insert name).contains x = true ↔
      name = x ∨ visited.contains x = true := by
    simp [Std.TreeSet.contains_insert]
  refine ⟨fun y hy => ?_, fun x y hy hxy => ?_⟩
  · rcases (inserted y).mp hy with rfl | hy
    · exact hname
    · exact h.not_dependsOn y hy
  · rw [inserted, List.mem_append, List.mem_reverse]
    rcases (inserted y).mp hy with rfl | hy
    · exact .inr (.inl (dependsOn_iff_mem.mp hxy))
    · rcases h.dependents x y hy hxy with hx | hx
      · exact .inl (.inr hx)
      · rcases List.mem_cons.mp hx with rfl | hx
        · exact .inl (.inl rfl)
        · exact .inr (.inr hx)

/-- A path from the candidate to a visited name passes a name that is still pending. -/
theorem exists_mem_pending (h : g.Explored candidate visited pending)
    (hpath : TransGen g.DependsOn candidate name) (hv : visited.contains name = true) :
    ∃ next ∈ pending, TransGen g.DependsOn candidate next := by
  induction hpath with
  | single hedge => exact absurd hedge (h.not_dependsOn _ hv)
  | @tail middle last hpath hedge ih =>
    rcases h.dependents middle last hv hedge with hm | hm
    · exact ih hm
    · exact ⟨middle, hm, hpath⟩

end Explored

/-- The search finds a candidate from which a path leads to a pending name, and no other. -/
theorem reaches_iff (h : g.Explored candidate visited pending) :
    g.reaches candidate visited pending = true ↔
      ∃ name ∈ pending, TransGen g.DependsOn candidate name := by
  induction visited, pending using reaches_induction (g := g) with
  | nil visited => simp [reaches]
  | skip visited name pending hv ih =>
    rw [reaches, dif_pos hv, ih (h.skip hv)]
    constructor
    · rintro ⟨next, hnext, hpath⟩
      exact ⟨next, List.mem_cons_of_mem name hnext, hpath⟩
    · rintro ⟨next, hnext, hpath⟩
      rcases List.mem_cons.mp hnext with rfl | hnext
      · exact (h.skip hv).exists_mem_pending hpath hv
      · exact ⟨next, hnext, hpath⟩
  | enter visited name pending hv ih =>
    rw [reaches_cons hv, Bool.or_eq_true, List.contains_iff_mem, ← dependsOn_iff_mem]
    by_cases hname : g.DependsOn candidate name
    · exact iff_of_true (.inl hname) ⟨name, List.mem_cons_self, .single hname⟩
    · rw [ih (h.enter hname)]
      constructor
      · rintro (hedge | ⟨next, hnext, hpath⟩)
        · exact absurd hedge hname
        · rcases List.mem_append.mp hnext with hnext | hnext
          · have hedge := dependsOn_iff_mem.mpr (List.mem_reverse.mp hnext)
            exact ⟨name, List.mem_cons_self, hpath.tail hedge⟩
          · exact ⟨next, List.mem_cons_of_mem name hnext, hpath⟩
      · rintro ⟨next, hnext, hpath⟩
        rcases List.mem_cons.mp hnext with rfl | hnext
        · -- The last edge of the path comes from a dependent that is put on the list.
          obtain ⟨middle, hpath, hedge⟩ := TransGen.tail'_iff.mp hpath
          rcases reflTransGen_iff_eq_or_transGen.mp hpath with rfl | hpath
          · exact absurd hedge hname
          · have hmem := List.mem_reverse.mpr (dependsOn_iff_mem.mp hedge)
            exact .inr ⟨middle, List.mem_append_left pending hmem, hpath⟩
        · exact .inr ⟨next, List.mem_append_right _ hnext, hpath⟩

/-- A name depends on another one if a path leads there. -/
theorem isDependent_iff_transGen (g : Graph) (name candidate : String) :
    g.isDependent name candidate = true ↔ TransGen g.DependsOn candidate name := by
  rw [isDependent, reaches_iff (.start g candidate name)]
  simp

/-- If both ends of the edges tell the same, a path can be read off the dependencies as well. -/
theorem Paired.transGen_iff (h : g.Paired) (x y : String) :
    TransGen g.DependsOn x y ↔ TransGen (fun a b => b ∈ g.dependenciesOf a) x y := by
  have hedges : g.DependsOn = fun a b => b ∈ g.dependenciesOf a := by
    funext a b
    rw [dependsOn_iff_mem, h.inverse]
  rw [hedges]

/-- Whatever edges a graph has, the search for a dependent ends and finds just what a path of one or
more edges leads from. A registry asks for the canonical names. In a tracker that was written in
any way such a path goes from each name to one of its dependencies. -/
theorem isDependent_iff_path (name candidate : String) :
    (∀ g : Graph, g.isDependent name candidate = true ↔ TransGen g.DependsOn candidate name) ∧
    (∀ r : Registry, r.isDependent name candidate = true ↔
      TransGen r.tracker.graph.DependsOn (r.names.denoted candidate) (r.names.denoted name)) ∧
    ∀ entries : List Bookkeeping,
      let g := (Tracker.run {} entries).graph
      g.isDependent name candidate = true ↔
        TransGen (fun x y => y ∈ g.dependenciesOf x) candidate name :=
  ⟨fun g => isDependent_iff_transGen g name candidate,
    fun r => isDependent_iff_transGen r.tracker.graph _ _,
    fun entries => (isDependent_iff_transGen _ name candidate).trans
      ((Tracker.paired_of_run entries).transGen_iff candidate name)⟩

end Graph

end Blueprint
