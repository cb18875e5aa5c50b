import Blueprint.Proofs.Dependency.Recording
import Blueprint.Proofs.Lineage.Merge

/-!
# What merging records

A merge that gives a definition records its dependencies in the nearest registry, and one that does
not leaves all dependencies alone (`exists_merge_cons`). What is remembered on the way is what
merging would give anyway, so no merge changes the answer of another (`SameMerges`). The edges that
are there after several merges are those from before and what each definition needs
(`exists_mergeEach_cons`), in whatever order they are merged.
-/

namespace Blueprint

/-- The registry with other edges. -/
def Registry.withGraph (r : Registry) (graph : Graph) : Registry :=
  { r with tracker := { r.tracker with graph } }

/-- A single `connect` adds one edge between canonical names and writes nothing else. -/
theorem Registry.value_connect (r : Registry) (dependent dependency : String) :
    (r.connect dependent dependency).value.2 = r.withGraph
      (r.tracker.graph.connect (r.names.denoted dependent) (r.names.denoted dependency)) := by
  rw [connect, Traced.value_bind, Tracker.connect]
  dsimp only
  split <;> rfl

/-- `connectAll` adds an edge from the canonical name to that of each dependency. -/
theorem Registry.value_connectAll (dependent : String) : ∀ (dependencies : List String)
    (r : Registry), (r.connectAll dependent dependencies).value = r.withGraph
      (r.tracker.graph.connectEach (r.names.denoted dependent) (dependencies.map r.names.denoted))
  | [], _ => rfl
  | dependency :: rest, r => by
    rw [connectAll, Traced.value_bind]
    show ((r.connect dependent dependency).value.2.connectAll dependent rest).value = _
    rw [value_connect, value_connectAll dependent rest]
    rfl

namespace Lineage

variable {r r' : Registry} {l l' ancestors ancestors' : Lineage} {name x : String}
  {d : Definition}

/-! ## Merging again -/

/-- Merging gives the same definitions, or refuses for the same reasons. -/
def SameMerges (l' l : Lineage) : Prop :=
  ∀ name, (l'.mergedDefinition name).value.1 = (l.mergedDefinition name).value.1

theorem SameMerges.trans {l'' : Lineage} (h : SameMerges l'' l') (h' : SameMerges l' l) :
    SameMerges l'' l := fun name => (h name).trans (h' name)

/-- The stamp counts changes, so what is remembered does not show in it. -/
theorem stamp_of_map_afresh {l l' : Lineage}
    (h : l'.map Registry.afresh = l.map Registry.afresh) : stamp l' = stamp l := by
  have through : ∀ l : Lineage, stamp l = stamp (l.map Registry.afresh) := by
    intro l
    induction l with
    | nil => rfl
    | cons r l ih => rw [List.map_cons, stamp, stamp, ih]; rfl
  rw [through, h, ← through]

/-- What merges the same for the ancestors merges the same for a registry in front of them. -/
theorem SameMerges.cons (h : SameMerges ancestors' ancestors)
    (hs : stamp ancestors' = stamp ancestors) (r : Registry) :
    SameMerges (r :: ancestors') (r :: ancestors) := by
  intro name
  have hstamp : stamp (r :: ancestors') = stamp (r :: ancestors) := by rw [stamp, stamp, hs]
  simp only [answer_mergedDefinition_cons, hstamp, h _]

/-- A name with a definition is merged as its canonical name says. -/
theorem answer_mergedDefinition_congr (hdefined : r.names.ancestry (r.names.denoted x) ≠ .unknown)
    (h : r.names.denoted name = r.names.denoted x) :
    (mergedDefinition (r :: ancestors) name).value.1 =
      (mergedDefinition (r :: ancestors) x).value.1 := by
  rw [answer_mergedDefinition_cons, answer_mergedDefinition_cons, h]
  cases hc : r.names.ancestry (r.names.denoted x) with
  | unknown => exact absurd hc hdefined
  | _ => rfl

/-- What is remembered for a name is found under the same stamp, and nothing else is disturbed. -/
theorem remembered?_remember (r : Registry) (key name : String) (s : UInt64) (d : Definition) :
    remembered? (remember r key s d) name s =
      if name = key then some d else remembered? r name s := by
  rw [remembered?, remember, Table.get?_insert]
  split
  · simp
  · rfl

/-- What merging would give anyway may be remembered. -/
theorem sameMerges_remember (hdefined : r.names.ancestry (r.names.denoted x) ≠ .unknown)
    (hd : (mergedDefinition (r :: ancestors) x).value.1 = .ok d) :
    SameMerges (remember r (r.names.denoted x) (stamp (r :: ancestors)) d :: ancestors)
      (r :: ancestors) := by
  intro name
  have hstamp : stamp (remember r (r.names.denoted x) (stamp (r :: ancestors)) d :: ancestors) =
      stamp (r :: ancestors) := rfl
  have hnames : (remember r (r.names.denoted x) (stamp (r :: ancestors)) d).names = r.names := rfl
  rw [answer_mergedDefinition_cons, hstamp, hnames, remembered?_remember]
  by_cases hname : r.names.denoted name = r.names.denoted x
  · rw [if_pos hname, answer_mergedDefinition_congr hdefined hname, hd]
  · rw [if_neg hname, answer_mergedDefinition_cons]

/-- Looking for one merged definition does not change what is found for another. -/
theorem sameMerges_mergedDefinition : ∀ (l : Lineage) (x : String),
    SameMerges (l.mergedDefinition x).value.2 l
  | [], _ => fun _ => rfl
  | r :: ancestors, x => by
    have later : ∀ y, SameMerges (r :: (mergedDefinition ancestors y).value.2) (r :: ancestors) :=
      fun y => (sameMerges_mergedDefinition ancestors y).cons
        (stamp_of_map_afresh (map_afresh_mergedDefinition ancestors y)) r
    have hstamp : ∀ y, stamp (r :: (mergedDefinition ancestors y).value.2) =
        stamp (r :: ancestors) := fun y => by
      rw [stamp, stamp, stamp_of_map_afresh (map_afresh_mergedDefinition ancestors y)]
    have hanswer := answer_mergedDefinition_cons r ancestors x
    rw [value_mergedDefinition_cons]
    cases hr : remembered? r (r.names.denoted x) (stamp (r :: ancestors)) with
    | some d => exact fun _ => rfl
    | none =>
      cases hc : r.names.ancestry (r.names.denoted x) with
      | unknown => exact later x
      | circular path => exact fun _ => rfl
      | rooted links =>
        simp only [hr, hc] at hanswer
        exact sameMerges_remember (by simp [hc]) hanswer
      | continues links parent =>
        simp only [hr, hc] at hanswer
        have hlater := later parent
        have hsame := hstamp parent
        dsimp only
        rcases hm : (mergedDefinition ancestors parent).value with ⟨e | inherited, ancestors'⟩
        · rwa [hm] at hlater
        · rw [hm] at hanswer hlater hsame
          -- The ancestors were written, but they merge the same and have the same stamp.
          have hdefined : r.names.ancestry (r.names.denoted x) ≠ .unknown := by simp [hc]
          have hremember := sameMerges_remember hdefined ((hlater x).trans hanswer)
          rw [hsame] at hremember
          exact hremember.trans hlater

/-- Merging does not look at the edges. -/
theorem sameMerges_withGraph (r : Registry) (graph : Graph) (ancestors : Lineage) :
    SameMerges (r.withGraph graph :: ancestors) (r :: ancestors) := by
  intro name
  rw [answer_mergedDefinition_cons, answer_mergedDefinition_cons]
  rfl

/-! ## Edges -/

/-- What the merged definition of a name depends on, if it can be merged. -/
def needs (l : Lineage) (name : String) : List String :=
  match (l.mergedDefinition name).value.1 with
  | .ok d => d.dependsOn
  | .error _ => []

theorem needs_of_ok (h : (l.mergedDefinition name).value.1 = .ok d) :
    needs l name = d.dependsOn := by
  rw [needs, h]

theorem SameMerges.needs_eq (h : SameMerges l' l) (name : String) :
    needs l' name = needs l name := by
  rw [needs, needs, h name]

/-- Finding a merged definition leaves everything but memories alone. -/
theorem exists_mergedDefinition_cons (r : Registry) (ancestors : Lineage) (name : String) :
    ∃ r' ancestors', (mergedDefinition (r :: ancestors) name).value.2 = r' :: ancestors' ∧
      r'.names = r.names ∧ r'.tracker = r.tracker ∧
      ancestors'.map Registry.afresh = ancestors.map Registry.afresh := by
  have hafresh := map_afresh_mergedDefinition (r :: ancestors) name
  rcases hl : (mergedDefinition (r :: ancestors) name).value.2 with _ | ⟨r', ancestors'⟩
  · simp [hl] at hafresh
  · rw [hl] at hafresh
    obtain ⟨hr, hancestors⟩ := List.cons.inj hafresh
    exact ⟨r', ancestors', rfl, (congrArg (fun r : Registry => r.names) hr :),
      (congrArg (fun r : Registry => r.tracker) hr :), hancestors⟩

/-- A merge records what the definition needs, and leaves all other dependencies alone. -/
theorem exists_merge_cons (r : Registry) (ancestors : Lineage) (name : String) :
    ∃ r' ancestors', (merge (r :: ancestors) name).value.2 = r' :: ancestors' ∧
      r'.names = r.names ∧
      r'.tracker.graph = r.tracker.graph.connectEach (r.names.denoted name)
        ((needs (r :: ancestors) name).map r.names.denoted) ∧
      ancestors'.map Registry.afresh = ancestors.map Registry.afresh ∧
      SameMerges (r' :: ancestors') (r :: ancestors) := by
  obtain ⟨r', ancestors', hl, hnames, htracker, hancestors⟩ :=
    exists_mergedDefinition_cons r ancestors name
  have hsame := sameMerges_mergedDefinition (r :: ancestors) name
  rw [hl] at hsame
  rw [value_merge, needs]
  rcases hm : (mergedDefinition (r :: ancestors) name).value with ⟨e | d, l'⟩
  · rw [hm] at hl
    exact ⟨r', ancestors', hl, hnames, by rw [htracker]; rfl, hancestors, hsame⟩
  · rw [hm] at hl
    obtain rfl : l' = r' :: ancestors' := hl
    refine ⟨(r'.connectAll name d.dependsOn).value, ancestors', rfl, ?_, ?_, hancestors, ?_⟩
    · rw [Registry.value_connectAll]
      exact hnames
    · rw [Registry.value_connectAll, Registry.withGraph, htracker, hnames]
    · rw [Registry.value_connectAll]
      exact (sameMerges_withGraph r' _ ancestors').trans hsame

/-- After merges of several names an edge is there that was there before, or that one of the
definitions needs. -/
theorem exists_mergeEach_cons : ∀ (names : List String) (r : Registry) (ancestors : Lineage),
    ∃ r' ancestors', (mergeEach (r :: ancestors) names).value = r' :: ancestors' ∧
      r'.names = r.names ∧ ∀ a b, r'.tracker.graph.DependsOn a b ↔ r.tracker.graph.DependsOn a b ∨
        ∃ name ∈ names, a = r.names.denoted name ∧
          ∃ entry ∈ needs (r :: ancestors) name, b = r.names.denoted entry
  | [], r, ancestors => ⟨r, ancestors, rfl, rfl, by simp⟩
  | name :: names, r, ancestors => by
    obtain ⟨r₁, ancestors₁, hfirst, hnames₁, hgraph, -, hsame⟩ := exists_merge_cons r ancestors name
    obtain ⟨r', ancestors', hrest, hnames, hedges⟩ := exists_mergeEach_cons names r₁ ancestors₁
    refine ⟨r', ancestors', ?_, hnames.trans hnames₁, fun a b => ?_⟩
    · rw [mergeEach, Traced.value_bind, ← hrest, ← hfirst]
    · rw [hedges, hgraph, Graph.dependsOn_connectEach, hnames₁, or_assoc]
      simp only [hsame.needs_eq, List.mem_map, List.exists_mem_cons_iff, eq_comm (b := b)]

end Lineage

end Blueprint
