import Blueprint.Proofs.Names.Undo
import Blueprint.Registry.Lineage

/-!
# What merging does to a lineage

`mergedDefinition`, `merge` and `teardown` as equations on values, with the events left out. They
write the memories and the dependencies of the registries and nothing else : what `Registry.bare`
leaves of a registry is the same after them (`map_bare_merge`, `map_bare_teardown`). Dependencies
are written by `merge` alone, and only to the nearest registry (`map_afresh_mergedDefinition`).
-/

namespace Blueprint

/-- A registry without what merging writes. -/
def Registry.bare (r : Registry) : Registry := { r with memory := {}, tracker := {} }

/-- A registry that remembers nothing. -/
def Registry.afresh (r : Registry) : Registry := { r with memory := {} }

/-- Connecting a name with its dependencies writes the tracker and nothing else. -/
theorem Registry.exists_connectAll_eq (dependent : String) : ∀ (dependencies : List String)
    (r : Registry), ∃ tracker, (r.connectAll dependent dependencies).value = { r with tracker }
  | [], r => ⟨r.tracker, rfl⟩
  | dependency :: rest, r => by
    rw [connectAll, Traced.value_bind]
    exact exists_connectAll_eq dependent rest _

/-- What merging does not write stays when dependencies are connected. -/
theorem Registry.bare_connectAll (r : Registry) (dependent : String) (dependencies : List String) :
    (r.connectAll dependent dependencies).value.bare = r.bare := by
  obtain ⟨tracker, h⟩ := exists_connectAll_eq dependent dependencies r
  rw [h, bare, bare]

namespace Lineage

/-! ## Values -/

/-- `mergedDefinition` on a registry and its ancestors : what is remembered, or the answer of the
ancestors for an unknown name, or the fold of the walk along the parents, which is remembered. -/
theorem value_mergedDefinition_cons (r : Registry) (ancestors : Lineage) (name : String) :
    (mergedDefinition (r :: ancestors) name).value =
      match remembered? r (r.names.denoted name) (stamp (r :: ancestors)) with
      | some d => (.ok d, r :: ancestors)
      | none =>
        match r.names.ancestry (r.names.denoted name) with
        | .unknown =>
          ((mergedDefinition ancestors name).value.1,
            r :: (mergedDefinition ancestors name).value.2)
        | .circular path => (.error (.circularParent (r.names.denoted name) path), r :: ancestors)
        | .rooted links =>
          (.ok (foldRooted links),
            remember r (r.names.denoted name) (stamp (r :: ancestors)) (foldRooted links) ::
              ancestors)
        | .continues links parent =>
          match (mergedDefinition ancestors parent).value with
          | (.error e, ancestors) => (.error e, r :: ancestors)
          | (.ok inherited, later) =>
            (.ok (fold links inherited),
              remember r (r.names.denoted name) (stamp (r :: ancestors)) (fold links inherited) ::
                later) := by
  rw [mergedDefinition]
  cases remembered? r (r.names.denoted name) (stamp (r :: ancestors)) with
  | some d => rfl
  | none =>
    cases r.names.ancestry (r.names.denoted name) with
    | unknown => rfl
    | circular path => rfl
    | rooted links => rfl
    | continues links parent =>
      simp only [Traced.value_bind]
      rcases (mergedDefinition ancestors parent).value with ⟨_ | _, _⟩ <;> rfl

/-- What merging answers, whatever it remembers from now on. -/
theorem answer_mergedDefinition_cons (r : Registry) (ancestors : Lineage) (name : String) :
    (mergedDefinition (r :: ancestors) name).value.1 =
      match remembered? r (r.names.denoted name) (stamp (r :: ancestors)) with
      | some d => .ok d
      | none =>
        match r.names.ancestry (r.names.denoted name) with
        | .unknown => (mergedDefinition ancestors name).value.1
        | .circular path => .error (.circularParent (r.names.denoted name) path)
        | .rooted links => .ok (foldRooted links)
        | .continues links parent =>
          (mergedDefinition ancestors parent).value.1.map (fold links) := by
  rw [value_mergedDefinition_cons]
  cases remembered? r (r.names.denoted name) (stamp (r :: ancestors)) with
  | some d => rfl
  | none =>
    cases r.names.ancestry (r.names.denoted name) with
    | unknown => rfl
    | circular path => rfl
    | rooted links => rfl
    | continues links parent =>
      dsimp only
      rcases (mergedDefinition ancestors parent).value with ⟨_ | _, _⟩ <;> rfl

/-- A definition of which the scope is known in the lineage. -/
def inKnownScope (l : Lineage) (name : String) (d : Definition) : Except Error Definition :=
  if l.knowsScope d.effectiveScope then .ok d else .error (.unknownScope name d.effectiveScope)

theorem inKnownScope_eq_ok {l : Lineage} {name : String} {d d' : Definition}
    (h : inKnownScope l name d = .ok d') : d' = d := by
  rw [inKnownScope] at h
  split at h <;> cases h
  rfl

theorem inKnownScope_eq_error {l : Lineage} {name : String} {d : Definition} {e : Error}
    (h : inKnownScope l name d = .error e) : e = .unknownScope name d.effectiveScope := by
  rw [inKnownScope] at h
  split at h <;> cases h
  rfl

/-- Which definitions are in a known scope depends on the scopes alone. -/
theorem inKnownScope_of_map_scopes {l l' : Lineage}
    (h : l'.map (·.scopes) = l.map (·.scopes)) : inKnownScope l' = inKnownScope l := by
  have known : ∀ l : Lineage,
      l.knowsScope = fun scope => (l.map (·.scopes)).any (·.contains scope) := by
    intro l
    funext scope
    rw [knowsScope, List.any_map]
    rfl
  have same : l'.knowsScope = l.knowsScope := by
    rw [known, known, h]
  funext name d
  rw [inKnownScope, inKnownScope, same]

/-- What is left of a lineage when merging is done knows the same scopes. -/
theorem inKnownScope_congr {l l' : Lineage} (h : l'.map Registry.bare = l.map Registry.bare) :
    inKnownScope l' = inKnownScope l := by
  have scopes : ∀ l : Lineage, l.map (·.scopes) = (l.map Registry.bare).map (·.scopes) := by
    intro l
    rw [List.map_map]
    rfl
  exact inKnownScope_of_map_scopes (by rw [scopes, h, ← scopes])

/-- `merge` connects the name with its dependencies before the scope is checked, so also when the
check fails. -/
theorem value_merge (l : Lineage) (name : String) :
    (l.merge name).value =
      match (l.mergedDefinition name).value with
      | (.error e, l) => (.error e, l)
      | (.ok d, l) =>
        (inKnownScope l name d, l.modifyHead fun r => (r.connectAll name d.dependsOn).value) := by
  rw [merge, Traced.value_bind]
  rcases (l.mergedDefinition name).value with ⟨e | d, l'⟩
  · rfl
  · cases l' with
    | nil =>
      simp only [Traced.value_bind, Traced.value_pure, inKnownScope]
      split <;> rfl
    | cons r ancestors =>
      have same : inKnownScope ((r.connectAll name d.dependsOn).value :: ancestors) =
          inKnownScope (r :: ancestors) :=
        inKnownScope_congr (by simp [Registry.bare_connectAll])
      show _ = (inKnownScope (r :: ancestors) name d,
        (r.connectAll name d.dependsOn).value :: ancestors)
      rw [← same, inKnownScope]
      simp only [Traced.value_bind, Traced.value_pure]
      split <;> rfl

/-! ## What merging leaves alone -/

/-- Looking for a merged definition writes what the registries remember and nothing else. -/
theorem map_afresh_mergedDefinition : ∀ (l : Lineage) (name : String),
    (l.mergedDefinition name).value.2.map Registry.afresh = l.map Registry.afresh
  | [], _ => rfl
  | r :: ancestors, name => by
    rw [value_mergedDefinition_cons]
    split
    · rfl
    · split
      · simp only [List.map_cons, map_afresh_mergedDefinition ancestors name]
      · rfl
      · rfl
      · rename_i links parent _
        have ih := map_afresh_mergedDefinition ancestors parent
        rcases h : (mergedDefinition ancestors parent).value with ⟨_ | _, later⟩
        · simpa [h] using ih
        · simpa [h, remember, Registry.afresh] using ih

/-- What stays apart from the memories stays apart from the memories and the trackers. -/
theorem map_bare_of_map_afresh {l l' : Lineage}
    (h : l'.map Registry.afresh = l.map Registry.afresh) :
    l'.map Registry.bare = l.map Registry.bare := by
  have through : ∀ l : Lineage,
      l.map Registry.bare = (l.map Registry.afresh).map Registry.bare := by
    intro l
    rw [List.map_map]
    rfl
  rw [through, h, ← through]

theorem map_bare_mergedDefinition (l : Lineage) (name : String) :
    (l.mergedDefinition name).value.2.map Registry.bare = l.map Registry.bare :=
  map_bare_of_map_afresh (map_afresh_mergedDefinition l name)

/-- Merging leaves everything in place that it does not write for itself. -/
theorem map_bare_merge (l : Lineage) (name : String) :
    (l.merge name).value.2.map Registry.bare = l.map Registry.bare := by
  have h := map_bare_mergedDefinition l name
  rw [value_merge]
  rcases hm : (l.mergedDefinition name).value with ⟨e | d, l'⟩
  · simpa [hm] using h
  · cases l' with
    | nil => simpa [hm] using h
    | cons r ancestors => simpa [hm, Registry.bare_connectAll] using h

/-- A merged definition is refused if its scope is not known. -/
theorem answer_merge (l : Lineage) (name : String) : (l.merge name).value.1 =
    (l.mergedDefinition name).value.1.bind (inKnownScope l name) := by
  have hscope := inKnownScope_congr (map_bare_mergedDefinition l name)
  rw [value_merge]
  rcases hm : (l.mergedDefinition name).value with ⟨e | d, l'⟩
  · rfl
  · rw [hm] at hscope
    rw [← hscope]
    rfl

/-- A merge that succeeds answers with the merged definition, as its scope is known. -/
theorem mergedDefinition_of_merge_eq_ok {l : Lineage} {name : String} {d : Definition}
    (h : (l.merge name).value.1 = .ok d) : (l.mergedDefinition name).value.1 = .ok d := by
  rw [answer_merge] at h
  cases hm : (l.mergedDefinition name).value.1 with
  | error e => rwa [hm] at h
  | ok found =>
    rw [hm] at h
    rw [inKnownScope_eq_ok h]

/-- A merge fails because there is no merged definition, or because of its scope. -/
theorem mergedDefinition_of_merge_eq_error {l : Lineage} {name : String} {e : Error}
    (h : (l.merge name).value.1 = .error e) : (l.mergedDefinition name).value.1 = .error e ∨
      ∃ d, (l.mergedDefinition name).value.1 = .ok d ∧
        e = .unknownScope name d.effectiveScope := by
  rw [answer_merge] at h
  cases hm : (l.mergedDefinition name).value.1 with
  | error cause =>
    rw [hm] at h
    exact .inl h
  | ok found =>
    rw [hm] at h
    exact .inr ⟨found, rfl, inKnownScope_eq_error h⟩

theorem map_bare_mergeEach : ∀ (names : List String) (l : Lineage),
    (l.mergeEach names).value.map Registry.bare = l.map Registry.bare
  | [], _ => rfl
  | name :: names, l => by
    rw [mergeEach, Traced.value_bind]
    exact (map_bare_mergeEach names _).trans (map_bare_merge l name)

/-- A teardown leaves what merging every defined name leaves. -/
theorem value_teardown (l : Lineage) :
    l.teardown.value.2 = match l with
      | [] => []
      | r :: ancestors => (mergeEach (r :: ancestors) r.definedNames).value := by
  cases l with
  | nil => rfl
  | cons r ancestors =>
    simp only [teardown, Traced.value_bind]
    cases (mergeEach (r :: ancestors) r.definedNames).value <;> rfl

/-- A teardown leaves everything in place that merging does not write. -/
theorem map_bare_teardown (l : Lineage) :
    l.teardown.value.2.map Registry.bare = l.map Registry.bare := by
  cases l with
  | nil => rfl
  | cons r ancestors =>
    rw [value_teardown]
    exact map_bare_mergeEach r.definedNames (r :: ancestors)

end Lineage

end Blueprint
