import Blueprint.Proofs.Lineage.Recording
import Blueprint.Proofs.Lineage.Run
import Mathlib.Data.List.Forall2

/-!
# Merges that fail

A merge records what a definition needs before it looks whether the scope is known. One that fails
because there is no definition, or no end of parents, leaves all dependencies as they were. One that
fails because of the scope has recorded the dependencies by then, and leaves them as they were only
if they had all been recorded before (`sameDependencies_merge_iff`). The ancestors keep their
dependencies in any case.
-/

namespace Blueprint

/-- The registries give the same answers about dependencies. -/
structure Registry.SameDependencies (r' r : Registry) : Prop where
  dependentsOf : ∀ name, r'.dependentsOf name = r.dependentsOf name
  dependenciesOf : ∀ name, r'.dependenciesOf name = r.dependenciesOf name
  isDependent : ∀ name candidate, r'.isDependent name candidate = r.isDependent name candidate
  teardown : ∀ names, r'.teardown names = r.teardown names

/-- The registry lists the dependency on both sides. -/
def Registry.Records (r : Registry) (dependent dependency : String) : Prop :=
  r.names.denoted dependent ∈ r.dependentsOf dependency ∧
    r.names.denoted dependency ∈ r.dependenciesOf dependent

namespace Registry

variable {r r' : Registry} {name : String} {entries : List String}

/-- Registries with the same lists of edges give the same answers about dependencies. -/
theorem SameDependencies.of_sameLists (hn : r'.names = r.names)
    (h : Graph.SameLists r'.tracker.graph r.tracker.graph) : r'.SameDependencies r where
  dependentsOf name := by rw [Registry.dependentsOf, Registry.dependentsOf, hn, h.dependents]
  dependenciesOf name := by
    rw [Registry.dependenciesOf, Registry.dependenciesOf, hn, h.dependencies]
  isDependent name candidate := by
    rw [Registry.isDependent, Registry.isDependent, hn, Graph.isDependent_congr h.dependents]
  teardown names := by
    rw [Registry.teardown, Registry.teardown, hn, Graph.teardown_congr h.dependents]

theorem sameDependencies_of_afresh (h : r'.afresh = r.afresh) : r'.SameDependencies r := by
  have hnames : r'.names = r.names := (congrArg (fun r : Registry => r.names) h :)
  have htracker : r'.tracker = r.tracker := (congrArg (fun r : Registry => r.tracker) h :)
  exact .of_sameLists hnames (htracker ▸ .refl _)

/-- Who records dependencies gives the same answers just if all of them were recorded before. -/
theorem sameDependencies_connectEach_iff (hn : r'.names = r.names)
    (hg : r'.tracker.graph =
      r.tracker.graph.connectEach (r.names.denoted name) (entries.map r.names.denoted)) :
    r'.SameDependencies r ↔ ∀ entry ∈ entries, r.Records name entry := by
  refine ⟨fun h entry hentry => ⟨?_, ?_⟩, fun h => .of_sameLists hn ?_⟩
  · rw [← h.dependentsOf, Registry.dependentsOf, hn, hg, ← Graph.dependsOn_iff_mem,
      Graph.dependsOn_connectEach]
    exact .inr ⟨rfl, List.mem_map_of_mem hentry⟩
  · rw [← h.dependenciesOf, Registry.dependenciesOf, hn, hg, Graph.mem_dependenciesOf_connectEach]
    exact .inr ⟨rfl, List.mem_map_of_mem hentry⟩
  · rw [hg]
    refine Graph.sameLists_connectEach fun b hb => ?_
    obtain ⟨entry, hentry, rfl⟩ := List.mem_map.mp hb
    exact h entry hentry

end Registry

namespace Lineage

variable {r r' : Registry} {ancestors ancestors' l' : Lineage} {name : String} {e : Error}

/-- Memories have no part in the dependencies of a lineage. -/
theorem forall₂_sameDependencies : ∀ {l l' : Lineage},
    l'.map Registry.afresh = l.map Registry.afresh → List.Forall₂ Registry.SameDependencies l' l
  | [], [], _ => .nil
  | [], _ :: _, h => by cases h
  | _ :: _, [], h => by cases h
  | r :: l, r' :: l', h => by
    obtain ⟨hr, hl⟩ := List.cons.inj h
    exact .cons (Registry.sameDependencies_of_afresh hr) (forall₂_sameDependencies hl)

/-- A definition whose dependencies are all recorded adds no edges when everything is torn down. -/
theorem edges_teardown_of_records
    (h : ∀ entry ∈ needs (r :: ancestors) name, r.Records name entry) :
    ∃ r' ancestors', (teardown (r :: ancestors)).value.2 = r' :: ancestors' ∧
      ∀ a b, r'.tracker.graph.DependsOn a b → r.tracker.graph.DependsOn a b ∨
        ∃ other ∈ r.definedNames, other ≠ name ∧ a = r.names.denoted other ∧
          ∃ entry ∈ needs (r :: ancestors) other, b = r.names.denoted entry := by
  obtain ⟨r', ancestors', hmerged, -, hedges⟩ := exists_mergeEach_cons r.definedNames r ancestors
  refine ⟨r', ancestors', (value_teardown _).trans hmerged, fun a b hab => ?_⟩
  obtain hbefore | ⟨other, hother, rfl, entry, hentry, rfl⟩ := (hedges a b).mp hab
  · exact .inl hbefore
  · by_cases hname : other = name
    · subst hname
      exact .inl (Graph.dependsOn_iff_mem.mpr (h entry hentry).1)
    · exact .inr ⟨other, hother, hname, rfl, entry, hentry, rfl⟩

/-- A merge that fails leaves the answers about dependencies alone, in the registry and its
ancestors, unless it fails because of the scope and some dependency of the definition had not been
recorded before. If it leaves them alone, the definition adds no edges when everything is torn
down. -/
theorem sameDependencies_merge_iff
    (h : (merge (r :: ancestors) name).value = (.error e, l')) :
    ∃ r' ancestors', l' = r' :: ancestors' ∧
      List.Forall₂ Registry.SameDependencies ancestors' ancestors ∧
      (r'.SameDependencies r ↔ ¬∃ scope d, e = .unknownScope name scope ∧
        (mergedDefinition (r :: ancestors) name).value.1 = .ok d ∧
        ∃ entry ∈ d.dependsOn, ¬r.Records name entry) ∧
      (r'.SameDependencies r →
        ∃ s others, (teardown (r :: ancestors)).value.2 = s :: others ∧
          ∀ a b, s.tracker.graph.DependsOn a b → r.tracker.graph.DependsOn a b ∨
            ∃ other ∈ r.definedNames, other ≠ name ∧ a = r.names.denoted other ∧
              ∃ entry ∈ needs (r :: ancestors) other, b = r.names.denoted entry) := by
  obtain ⟨r', ancestors', hl, hnames, hgraph, hancestors, -⟩ := exists_merge_cons r ancestors name
  rw [h] at hl
  have hiff := Registry.sameDependencies_connectEach_iff hnames hgraph
  refine ⟨r', ancestors', hl, forall₂_sameDependencies hancestors, hiff.trans ?_,
    fun hsame => edges_teardown_of_records (hiff.mp hsame)⟩
  have herror : (merge (r :: ancestors) name).value.1 = .error e := by rw [h]
  rcases mergedDefinition_of_merge_eq_error herror with hm | ⟨d, hm, rfl⟩
  · simp [needs, hm]
  · simp [needs_of_ok hm, hm]

/-- A service that depends on a database, in a scope that nobody knows. -/
def unscoped : Definition :=
  { className := some "Service", scope := some "request", dependsOn := ["db"] }

/-- Where the dependency was recorded before, merging the service changes nothing. -/
theorem sameDependencies_merge_recorded : ∃ r r',
    (founded [{}]).run [(0, .change (.register "svc" unscoped)),
      (0, .upkeep (.connect "svc" "db"))] = [r] ∧
    (merge [r] "svc").value = (.error (.unknownScope "svc" "request"), [r']) ∧
    r'.SameDependencies r := by
  obtain ⟨r, r', hrun, hmerge, hdefinition, hrecords⟩ : ∃ r r',
      (founded [{}]).run [(0, .change (.register "svc" unscoped)),
        (0, .upkeep (.connect "svc" "db"))] = [r] ∧
      (merge [r] "svc").value = (.error (.unknownScope "svc" "request"), [r']) ∧
      (mergedDefinition [r] "svc").value.1 = .ok unscoped ∧ r.Records "svc" "db" :=
    ⟨_, _, rfl, rfl, rfl, List.mem_singleton.mpr rfl, List.mem_singleton.mpr rfl⟩
  obtain ⟨r₂, _, hl, -, hiff, -⟩ := sameDependencies_merge_iff hmerge
  obtain rfl : r' = r₂ := (List.cons.inj hl).1
  refine ⟨r, r', hrun, hmerge, hiff.mpr ?_⟩
  rintro ⟨scope, d, -, hd, entry, hentry, hnot⟩
  obtain rfl : unscoped = d := Except.ok.inj (hdefinition.symm.trans hd)
  obtain rfl : entry = "db" := List.mem_singleton.mp hentry
  exact hnot hrecords

/-- Where it was not, merging the service fails and has recorded the dependency. -/
theorem dependenciesOf_merge_unscoped : ∃ r r',
    (founded [{}]).run [(0, .change (.register "svc" unscoped))] = [r] ∧
    (merge [r] "svc").value = (.error (.unknownScope "svc" "request"), [r']) ∧
    r.dependenciesOf "svc" = [] ∧ r'.dependenciesOf "svc" = ["db"] :=
  ⟨_, _, rfl, rfl, rfl, rfl⟩

end Lineage

end Blueprint
