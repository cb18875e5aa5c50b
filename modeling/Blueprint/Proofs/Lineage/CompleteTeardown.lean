import Blueprint.Proofs.Lineage.Recording
import Blueprint.Proofs.Lineage.Run

/-!
# Tearing down everything

`Lineage.teardown` merges every definition before it orders the names, so that what they depend on
is recorded, also through aliases and from parents. A component comes before one that its merged
definition depends on, unless the recorded edges lead back (`teardown_honours_needs`).
-/

namespace Blueprint.Lineage

open Relation

variable {r : Registry} {ancestors : Lineage}

/-- All definitions are torn down, each once, and with regard to what their merged definitions
depend on. Without edges the last one registered comes first. -/
theorem teardown_honours_needs (r : Registry) (ancestors : Lineage) :
    ∃ order r' ancestors', (teardown (r :: ancestors)).value = (order, r' :: ancestors') ∧
      order.Nodup ∧ (∀ name, name ∈ order ↔ name ∈ r.definedNames) ∧
      (∀ name ∈ r.definedNames, r.names.denoted name = name → ∀ d,
        (merge (r :: ancestors) name).value.1 = .ok d → ∀ entry ∈ d.dependsOn,
          r.names.denoted entry ∈ r.definedNames →
            r'.tracker.graph.DependsOn name (r.names.denoted entry) ∧
            ([name, r.names.denoted entry].Sublist order ∨
              TransGen r'.tracker.graph.DependsOn (r.names.denoted entry) name)) ∧
      ((∀ a b, ¬r'.tracker.graph.DependsOn a b) → order = r.definedNames.reverse) := by
  obtain ⟨r', ancestors', hmerged, -, hedges⟩ := exists_mergeEach_cons r.definedNames r ancestors
  have hvalue : (teardown (r :: ancestors)).value =
      (r'.tracker.graph.teardown r.definedNames.reverse, r' :: ancestors') := by
    rw [teardown, Traced.value_bind, hmerged]
    rfl
  have hnodup : r.definedNames.reverse.Nodup :=
    List.nodup_reverse.mpr r.names.definitions.nodup_keys
  refine ⟨_, r', ancestors', hvalue, Graph.nodup_teardown _ _, fun name => ?_, ?_,
    fun hnone => Graph.teardown_of_no_edges hnone hnodup⟩
  · rw [Graph.mem_teardown_iff, List.mem_reverse]
  · intro name hname hcanonical d hd entry hentry hdefined
    have hneeds := needs_of_ok (mergedDefinition_of_merge_eq_ok hd)
    have hedge : r'.tracker.graph.DependsOn name (r.names.denoted entry) :=
      (hedges _ _).mpr (.inr ⟨name, hname, hcanonical.symm, entry, hneeds ▸ hentry, rfl⟩)
    refine ⟨hedge, or_iff_not_imp_right.mpr fun hback => ?_⟩
    exact Graph.sublist_teardown_of_dependsOn hedge hback (List.mem_reverse.mpr hname)
      (List.mem_reverse.mpr hdefined)

/-- A service with a template that depends on an alias of a database, registered before it. -/
def templated : List (Nat × Request) := [
  (0, .change (.register "service" (.childOf "template"))),
  (0, .change (.register "template" { className := some "Service", dependsOn := ["storage"] })),
  (0, .change (.registerAlias "database" "storage")),
  (0, .change (.register "database" (.ofClass "Disk")))]

/-- The service is torn down before the database. -/
theorem teardown_templated : ∃ r order, (founded [{}]).run templated = [r] ∧
    (teardown [r]).value.1 = order ∧ ["service", "database"].Sublist order := by
  obtain ⟨r, d, hrun, hnames, hservice, htemplate, hstorage, hmerge, hdepends, hleaf, hgraph⟩ :
      ∃ r d, (founded [{}]).run templated = [r] ∧
      r.definedNames = ["service", "template", "database"] ∧
      r.names.denoted "service" = "service" ∧ r.names.denoted "template" = "template" ∧
      r.names.denoted "storage" = "database" ∧
      (merge [r] "service").value.1 = .ok d ∧ d.dependsOn = ["storage"] ∧
      needs [r] "database" = [] ∧ r.tracker.graph = {} :=
    ⟨_, _, rfl, rfl, rfl, rfl, rfl, rfl, rfl, rfl, rfl⟩
  obtain ⟨order, r', ancestors', hvalue, -, -, hordered, -⟩ := teardown_honours_needs r []
  obtain ⟨r₂, ancestors₂, hmerged, -, hedges⟩ := exists_mergeEach_cons r.definedNames r []
  have hsame : r' :: ancestors' = r₂ :: ancestors₂ :=
    (congrArg Prod.snd hvalue).symm.trans ((value_teardown [r]).trans hmerged)
  obtain ⟨rfl, rfl⟩ := List.cons.inj hsame
  obtain ⟨-, hbefore | hback⟩ := hordered "service" (by simp [hnames]) hservice d hmerge "storage"
    (by simp [hdepends]) (by simp [hstorage, hnames])
  · exact ⟨r, order, hrun, by rw [hvalue], hstorage ▸ hbefore⟩
  · -- The database depends on nothing, so no edges lead back.
    rw [hstorage] at hback
    obtain ⟨c, hfirst, -⟩ := TransGen.head'_iff.mp hback
    rw [hedges, hgraph, hnames] at hfirst
    rcases hfirst with hfirst | ⟨name, hname, hfrom, entry, hentry, -⟩
    · cases hfirst
    · simp only [List.mem_cons, List.not_mem_nil, or_false] at hname
      rcases hname with rfl | rfl | rfl
      · simp [hservice] at hfrom
      · simp [htemplate] at hfrom
      · simp [hleaf] at hentry

end Blueprint.Lineage
