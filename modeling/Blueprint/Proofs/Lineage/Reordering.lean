import Blueprint.Proofs.Lineage.Merge
import Blueprint.Proofs.Names.Agreement
import Blueprint.Proofs.Registry.Introduction

/-!
# The order of registrations

Definitions and aliases of different names can be registered in any order. An alias may come before
the name that it points at, and a chain of aliases may grow at either end or close a gap. Whatever
was registered so far is part of what will be there in the end, which has no cycle, so no order
meets a refusal that another one does not (`Introduced.exists_of_perm`).

The tables agree in the end, and so do the answers of the registry, whichever ancestors it has
(`answers_of_perm`). Only lists come in the order of the registrations.
-/

namespace Blueprint

variable {r r' s s' : Registry} {is js : List Introduction}

/-! ## Introductions in another order -/

/-- A function that picks what is said about one name picks the same from any order, as there is at
most one such introduction. -/
theorem filterMap_eq_of_perm {β : Type} {f : Introduction → Option β} {x : String}
    (hf : ∀ i, (f i).isSome → i.name = x) (hp : is.Perm js)
    (hn : (is.map Introduction.name).Nodup) : is.filterMap f = js.filterMap f := by
  induction hp with
  | nil => rfl
  | cons i _ ih => rw [List.filterMap_cons, List.filterMap_cons, ih (List.nodup_cons.mp hn).2]
  | swap i j is =>
    -- At most one of the two is about `x`.
    have hne : i.name ≠ j.name := fun e => by simp [e] at hn
    cases hi : f i with
    | none => simp [List.filterMap_cons, hi]
    | some a =>
      cases hj : f j with
      | none => simp [List.filterMap_cons, hj]
      | some b => exact absurd ((hf i (by simp [hi])).trans (hf j (by simp [hj])).symm) hne
  | trans hp _ ih ih' => exact (ih hn).trans (ih' ((hp.map _).nodup_iff.mp hn))

/-- Two orders of the same introductions leave tables that agree. -/
theorem Introduced.agrees_of_perm (h : Introduced r is s) (h' : Introduced r js s')
    (hr : r.names.Sound) (hp : is.Perm js) (hn : (is.map Introduction.name).Nodup) :
    s'.names.Agrees s.names where
  definition x := by
    rw [h'.definition_eq hr, h.definition_eq hr,
      filterMap_eq_of_perm (f := (·.definitionOf? x)) (x := x) ?_ hp hn]
    rintro (⟨name, d⟩ | ⟨aliasName, target⟩) hi
    · by_cases hx : name = x
      · exact hx
      · simp [Introduction.definitionOf?, hx] at hi
    · cases hi
  target x := by
    rw [h'.target_eq hr, h.target_eq hr,
      filterMap_eq_of_perm (f := (·.targetOf? x)) (x := x) ?_ hp hn]
    intro i hi
    by_cases hx : i.name = x
    · exact hx
    · simp [Introduction.targetOf?, hx] at hi

/-- What is said once about a name still holds in the end. -/
theorem Introduced.standing_of_nodup (h : Introduced r is s) (hr : r.names.Sound)
    (hn : (is.map Introduction.name).Nodup) : Standing is s.names := by
  intro i hi
  obtain ⟨front, back, rfl⟩ := List.append_of_mem hi
  have others : ∀ js : List Introduction, (∀ j ∈ js, j.name ≠ i.name) →
      js.filterMap (·.targetOf? i.name) = [] := by
    intro js hjs
    refine List.filterMap_eq_nil_iff.mpr fun j hj => ?_
    simp [Introduction.targetOf?, hjs j hj]
  simp only [List.map_append, List.map_cons, List.nodup_append, List.nodup_cons, List.mem_cons,
    List.mem_map, ne_eq, forall_exists_index, and_imp] at hn
  obtain ⟨-, ⟨hback, -⟩, hfront⟩ := hn
  rw [h.target_eq hr, List.filterMap_append, List.filterMap_cons,
    others front fun j hj => hfront _ j hj rfl _ (.inl rfl),
    others back fun j hj he => hback ⟨j, hj, he⟩]
  simp [Introduction.targetOf?]

/-- Introductions of different names that are accepted in an empty registry are accepted in every
order. -/
theorem Introduced.exists_of_perm (h : Introduced r is s) (hr : r.names = {}) (hp : is.Perm js)
    (hn : (is.map Introduction.name).Nodup) : ∃ s', Introduced r js s' := by
  have hsound : r.names.Sound := hr ▸ Names.sound_empty
  have hconsistent := (h.standing_of_nodup hsound hn).consistent (h.sound hsound)
  exact hconsistent.exists_introduced (h.spelled hsound) (fun _ => hp.mem_iff.mpr) hsound
    (hr ▸ within_empty is) (.inr ⟨(hp.map _).nodup_iff.mp hn, fun j _ => by rw [hr]; rfl⟩)

/-! ## Answers -/

namespace Lineage

/-- A registry with nothing to remember gives the same merged definitions as one with the same
tables. -/
theorem mergedDefinition_of_agrees (h : s'.names.Agrees s.names) (hm : s.memory = {})
    (hm' : s'.memory = {}) (ancestors : Lineage) (name : String) :
    (mergedDefinition (s' :: ancestors) name).value.1 =
      (mergedDefinition (s :: ancestors) name).value.1 := by
  have unremembered : ∀ {r : Registry}, r.memory = {} → ∀ key stamp,
      remembered? r key stamp = none := by
    intro r hr key stamp
    rw [remembered?, hr]
    rfl
  rw [answer_mergedDefinition_cons, answer_mergedDefinition_cons, h.denoted, h.ancestry,
    unremembered hm, unremembered hm']

/-- Definitions and aliases of different names that are all accepted by an empty registry in one
order are accepted in every order. Afterwards the registry gives the same answers. -/
theorem answers_of_perm {is js : List Introduction} (ancestors : Lineage) (hnames : r.names = {})
    (hmemory : r.memory = {}) (hp : is.Perm js) (hn : (is.map Introduction.name).Nodup)
    (h : Introduced r is s) :
    ∃ s', Introduced r js s' ∧
      (∀ name, s'.names.denoted name = s.names.denoted name ∧
        (get (s' :: ancestors) name).value = (get (s :: ancestors) name).value ∧
        (merge (s' :: ancestors) name).value.1 = (merge (s :: ancestors) name).value.1) ∧
      (∀ name, name ∈ s'.definedNames ↔ name ∈ s.definedNames) ∧
      ∀ name aliasName,
        aliasName ∈ s'.names.aliasesOf name ↔ aliasName ∈ s.names.aliasesOf name := by
  have hr : r.names.Sound := hnames ▸ Names.sound_empty
  obtain ⟨s', h'⟩ := h.exists_of_perm hnames hp hn
  have hagrees := h.agrees_of_perm h' hr hp hn
  have hscopes : inKnownScope (s' :: ancestors) = inKnownScope (s :: ancestors) :=
    inKnownScope_of_map_scopes (by simp [h'.scopes hr, h.scopes hr])
  refine ⟨s', h', fun name => ⟨hagrees.denoted name, ?_, ?_⟩, fun name =>
    hagrees.mem_definitions_iff, fun name aliasName => hagrees.mem_aliasesOf_iff (h.sound hr)⟩
  · rw [get, get, hagrees.find?]
    cases s.names.find? name <;> rfl
  · rw [answer_merge, answer_merge, hscopes,
      mergedDefinition_of_agrees hagrees (h.memory hr hmemory) (h'.memory hr hmemory)]

/-- A chain of aliases that is registered before the component that it leads to. -/
def forwardAliases : List Introduction :=
  [.aliasing "fast" "cache", .aliasing "cache" "store", .definition "store" (.ofClass "Disk")]

theorem answers_forwardAliases : ∃ s s', Introduced {} forwardAliases s ∧
    Introduced {} forwardAliases.reverse s' ∧
    (merge [s'] "fast").value.1 = (merge [s] "fast").value.1 ∧
    (get [s'] "fast").value = .ok (.ofClass "Disk") := by
  have hforward : Introduced {} forwardAliases _ := .cons rfl (.cons rfl (.cons rfl (.nil _)))
  obtain ⟨s', hbackward, hanswers, -⟩ := answers_of_perm [] rfl rfl
    forwardAliases.reverse_perm.symm (by decide) hforward
  obtain ⟨-, hget, hmerge⟩ := hanswers "fast"
  exact ⟨_, s', hforward, hbackward, hmerge, hget.trans rfl⟩

end Lineage

end Blueprint
