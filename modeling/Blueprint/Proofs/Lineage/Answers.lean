import Blueprint.Proofs.Lineage.Coherence
import Mathlib.Data.List.Basic

/-!
# Answers that the tables give

A lineage is `Truthful` if whatever it would answer from memory is what its tables say now. Then
so is every answer of `merge` (`merge_of_truthful`). There are three reasons why the lineages of a
run are (`Trusted`) : their revisions have not come round, nothing was merged before, or there are
no ancestors. The last one needs no bound on the number of mutations, because a registry forgets
all when its own names change, and only the names of an ancestor can change without that.
-/

namespace Blueprint

/-- A registry without ancestors remembers what its tables say. -/
def Registry.Current (r : Registry) : Prop :=
  ∀ key m, r.memory.get? key = some m → ∀ name, r.names.denoted name = key →
    Lineage.recipe [r.names] name = .ok m.definition

theorem Registry.current_of_memory {r : Registry} (h : r.memory = {}) : r.Current := by
  intro key m hm
  rw [h] at hm
  cases hm

/-- A registry stays current when it remembers what its tables say. -/
theorem Registry.Current.remember {r : Registry} (h : r.Current) {key : String} {s : UInt64}
    {d : Definition} (hd : ∀ name, r.names.denoted name = key →
      Lineage.recipe [r.names] name = .ok d) : (Lineage.remember r key s d).Current := by
  intro k m hm
  rw [Lineage.remember, Table.get?_insert] at hm
  split at hm
  · rename_i hk
    rw [← Option.some.inj hm]
    exact fun name hname => hd name (hname.trans hk)
  · exact h k m hm

/-- A registry stays current if what is written to it is neither names nor memories. -/
theorem Registry.Current.aside {r r' : Registry} (h : r.Current) (hn : r'.names = r.names)
    (hm : r'.memory = r.memory) : r'.Current := by
  intro key m hk
  rw [hn]
  exact h key m (hm ▸ hk)

namespace Lineage

variable {l : Lineage} {r : Registry} {ancestors : Lineage} {name : String}

/-! ## Truthful memories -/

/-- What the registries of a lineage would answer from memory is what the tables say. -/
def Truthful : Lineage → Prop
  | [] => True
  | r :: ancestors =>
    (∀ name d, remembered? r (r.names.denoted name) (stamp (r :: ancestors)) = some d →
      recipe ((r :: ancestors).map (·.names)) name = .ok d) ∧ Truthful ancestors

/-- A truthful lineage merges what its tables say. -/
theorem mergedDefinition_of_truthful : ∀ {l : Lineage} (name : String), Truthful l →
    (l.mergedDefinition name).value.1 = recipe (l.map (·.names)) name
  | [], _, _ => rfl
  | r :: ancestors, name, h => by
    rw [value_mergedDefinition_cons]
    cases hr : remembered? r (r.names.denoted name) (stamp (r :: ancestors)) with
    | some d => exact (h.1 name d hr).symm
    | none =>
      cases hc : r.names.ancestry (r.names.denoted name) with
      | unknown => simp [recipe, hc, mergedDefinition_of_truthful name h.2]
      | circular path => simp [recipe, hc]
      | rooted links => simp [recipe, hc]
      | continues links parent =>
        have hparent := mergedDefinition_of_truthful parent h.2
        rcases hm : (mergedDefinition ancestors parent).value with ⟨_ | _, _⟩ <;>
          simp [recipe, hc, ← hparent, hm, Except.map]

/-- A truthful lineage answers what its tables say, if it knows the scope of that. -/
theorem merge_of_truthful (name : String) (h : Truthful l) :
    (l.merge name).value.1 = (recipe (l.map (·.names)) name).bind (inKnownScope l name) := by
  rw [answer_merge, mergedDefinition_of_truthful name h]

/-- Coherent memories are truthful, unless the revisions have come round. -/
theorem truthful_of_coherent : ∀ {l : Lineage}, age l < 2 ^ 64 → Coherent l → Truthful l
  | [], _, _ => trivial
  | r :: ancestors, ha, h => by
    have hanc : age ancestors < 2 ^ 64 := by
      rw [age_cons] at ha
      omega
    refine ⟨fun name d hd => ?_, truthful_of_coherent hanc h.2⟩
    obtain ⟨m, hm, hd⟩ := Option.bind_eq_some_iff.mp hd
    split at hd
    · rename_i hs
      rw [← Option.some.inj hd]
      exact (h.1 _ m hm).recipe_eq (by rw [hs, toNat_stamp ha]) name rfl
    · cases hd

theorem truthful_of_memory : ∀ {l : Lineage}, (∀ r ∈ l, r.memory = {}) → Truthful l
  | [], _ => trivial
  | r :: ancestors, h => by
    refine ⟨fun name d hd => ?_, truthful_of_memory fun s hs => h s (List.mem_cons_of_mem r hs)⟩
    rw [remembered?, h r List.mem_cons_self] at hd
    cases hd

/-- A current registry without ancestors is truthful. -/
theorem truthful_of_current (h : r.Current) : Truthful [r] := by
  refine ⟨fun name d hd => ?_, trivial⟩
  obtain ⟨m, hm, hd⟩ := Option.bind_eq_some_iff.mp hd
  split at hd
  · rw [← Option.some.inj hd]
    exact h _ m hm name rfl
  · cases hd

/-! ## The registry without ancestors -/

/-- The registry at the end of a lineage is current. -/
def RootCurrent (l : Lineage) : Prop := ∀ r, l.getLast? = some r → r.Current

theorem rootCurrent_append (front : Lineage) (hl : l ≠ []) :
    RootCurrent (front ++ l) ↔ RootCurrent l := by
  rw [RootCurrent, List.getLast?_append_of_ne_nil front hl, RootCurrent]

theorem rootCurrent_cons (hl : ancestors ≠ []) :
    RootCurrent (r :: ancestors) ↔ RootCurrent ancestors :=
  rootCurrent_append [r] hl

theorem rootCurrent_singleton : RootCurrent [r] ↔ r.Current := by
  simp [RootCurrent]

theorem mergedDefinition_ne_nil (hl : l ≠ []) (name : String) :
    (l.mergedDefinition name).value.2 ≠ [] := by
  have h := map_bare_mergedDefinition l name
  intro hnil
  rw [hnil] at h
  exact hl (List.map_eq_nil_iff.mp h.symm)

/-- What keeps every registry current keeps the root current. -/
theorem rootCurrent_modifyHead {f : Registry → Registry} (hf : ∀ r, r.Current → (f r).Current)
    (h : RootCurrent l) : RootCurrent (l.modifyHead f) := by
  match l, h with
  | [], h => exact h
  | [r], h => exact rootCurrent_singleton.mpr (hf r (rootCurrent_singleton.mp h))
  | r :: s :: ancestors, h =>
    exact (rootCurrent_cons (by simp)).mpr ((rootCurrent_cons (by simp)).mp h)

/-- To merge a definition keeps the root current, which remembers what its tables say. -/
theorem rootCurrent_mergedDefinition : ∀ {l : Lineage} (name : String), RootCurrent l →
    RootCurrent (l.mergedDefinition name).value.2
  | [], _, h => h
  | [r], name, h => by
    rw [value_mergedDefinition_cons]
    split
    · exact h
    · split
      · exact h
      · exact h
      · rename_i links hrooted
        refine rootCurrent_singleton.mpr
          ((rootCurrent_singleton.mp h).remember fun other hname => ?_)
        rw [recipe, hname, hrooted]
      · exact h
  | r :: s :: ancestors, name, h => by
    have hbelow : RootCurrent (s :: ancestors) := (rootCurrent_cons (by simp)).mp h
    have hlater : ∀ r' name, RootCurrent (r' :: (mergedDefinition (s :: ancestors) name).value.2) :=
      fun r' name => (rootCurrent_cons (mergedDefinition_ne_nil (by simp) name)).mpr
        (rootCurrent_mergedDefinition name hbelow)
    rw [value_mergedDefinition_cons]
    split
    · exact h
    · split
      · exact hlater r name
      · exact h
      · exact (rootCurrent_cons (by simp)).mpr hbelow
      · rename_i links parent _
        rcases hm : (mergedDefinition (s :: ancestors) parent).value with ⟨_ | _, later⟩
        · simpa only [hm] using hlater r parent
        · simpa only [hm] using hlater _ parent

/-- A merge keeps the root current, also where it fails. -/
theorem rootCurrent_merge (name : String) (h : RootCurrent l) :
    RootCurrent (l.merge name).value.2 := by
  have hmerged := rootCurrent_mergedDefinition name h
  rw [value_merge]
  rcases hm : (l.mergedDefinition name).value with ⟨e | d, l'⟩
  · rwa [hm] at hmerged
  · rw [hm] at hmerged
    refine rootCurrent_modifyHead (fun r hr => ?_) hmerged
    obtain ⟨tracker, ht⟩ := r.exists_connectAll_eq name d.dependsOn
    rw [ht]
    exact hr.aside rfl rfl

theorem rootCurrent_mergeEach : ∀ (names : List String) {l : Lineage}, RootCurrent l →
    RootCurrent (l.mergeEach names).value
  | [], _, h => h
  | name :: names, l, h => by
    rw [mergeEach, Traced.value_bind]
    exact rootCurrent_mergeEach names (rootCurrent_merge name h)

/-- Every request keeps the root current : it is merged, or its names change and it forgets all. -/
theorem rootCurrent_request (q : Request) (h : RootCurrent l) : RootCurrent (q.run l) := by
  cases q with
  | change c =>
    refine rootCurrent_modifyHead (fun r hr => ?_) h
    have hc := c.rewritten_run r
    rcases Nat.eq_zero_or_pos (c.mutations r) with h0 | hpos
    · rw [hc.same h0]
      exact hr
    · exact Registry.current_of_memory (hc.memory hpos)
  | upkeep u =>
    refine rootCurrent_modifyHead (fun r hr => ?_) h
    obtain ⟨scopes, hu⟩ := u.exists_run_eq r
    obtain ⟨tracker, hu⟩ := hu r.memory r.tracker
    rw [show u.run r = _ from hu]
    exact hr.aside rfl rfl
  | merge name => exact rootCurrent_merge name h
  | teardown =>
    cases l with
    | nil => exact h
    | cons r ancestors =>
      rw [Request.run, value_teardown]
      exact rootCurrent_mergeEach r.definedNames h

theorem length_request (q : Request) (l : Lineage) : (q.run l).length = l.length := by
  by_cases hq : ∃ c, q = .change c
  · obtain ⟨c, rfl⟩ := hq
    exact List.length_modifyHead
  · simpa using congrArg List.length (q.map_standing_run (fun c hc => hq ⟨c, hc⟩) l)

theorem length_run : ∀ (requests : List (Nat × Request)) (l : Lineage),
    (l.run requests).length = l.length
  | [], _ => rfl
  | q :: requests, l => by
    rw [run_cons, length_run requests, onLevel, List.length_append, length_request,
      ← List.length_append, List.take_append_drop]

/-- A request to any level keeps the root current. -/
theorem rootCurrent_onLevel (q : Request) (level : Nat) (h : RootCurrent l) :
    RootCurrent (l.onLevel level q.run) := by
  have hlength := length_request q (l.drop level)
  rw [onLevel]
  rw [← List.take_append_drop level l] at h
  by_cases hdrop : l.drop level = []
  · rw [hdrop, List.length_nil, List.length_eq_zero_iff] at hlength
    rwa [hdrop, hlength, ← hdrop]
  · have hne : q.run (l.drop level) ≠ [] := fun hnil => hdrop <| by
      rwa [hnil, List.length_nil, eq_comm, List.length_eq_zero_iff] at hlength
    exact (rootCurrent_append _ hne).mpr
      (rootCurrent_request q ((rootCurrent_append _ hdrop).mp h))

/-- The root of a run stays current. -/
theorem rootCurrent_run : ∀ {requests : List (Nat × Request)} {l : Lineage}, RootCurrent l →
    RootCurrent (l.run requests)
  | [], _, h => h
  | q :: requests, l, h => by
    rw [run_cons]
    exact rootCurrent_run (rootCurrent_onLevel q.2 q.1 h)

/-- A registry of a run without ancestors is current, however often it has changed. -/
theorem current_of_after_eq_singleton {policies : List Policy} {requests : List (Nat × Request)}
    {level : Nat} (h : after policies requests level = [r]) : r.Current := by
  have hfounded : RootCurrent (founded policies) := fun s hs =>
    Registry.current_of_memory (fresh_of_mem_founded s (List.mem_of_getLast? hs)).2.2
  have hrun : RootCurrent ((founded policies).run requests) := rootCurrent_run hfounded
  rw [← List.take_append_drop level ((founded policies).run requests), ← after, h,
    rootCurrent_append _ (by simp), rootCurrent_singleton] at hrun
  exact hrun

/-! ## The lineages of a run -/

/-- Why what is remembered at a level of a run can be trusted. -/
inductive Trusted (policies : List Policy) (requests : List (Nat × Request)) (level : Nat) : Prop
  /-- There were fewer mutations than the revisions can count. -/
  | counted (h : (founded policies).mutations requests < 2 ^ 64)
  /-- Nothing was merged before. -/
  | unmerged (h : ∀ q ∈ requests, q.2.merges = false)
  /-- There are no ancestors. -/
  | alone (r : Registry) (h : after policies requests level = [r])

variable {policies : List Policy} {requests more : List (Nat × Request)} {level : Nat}

/-- What can be trusted after more requests could be trusted before them. -/
theorem Trusted.of_append (h : Trusted policies (requests ++ more) level) :
    Trusted policies requests level := by
  cases h with
  | counted h =>
    rw [mutations_append] at h
    exact .counted (Nat.lt_of_le_of_lt (Nat.le_add_right _ _) h)
  | unmerged h => exact .unmerged fun q hq => h q (List.mem_append_left more hq)
  | alone r h =>
    have hlength : (after policies requests level).length = 1 := by
      have hlater := congrArg List.length h
      rwa [after, List.length_drop, length_run, ← length_run requests, ← List.length_drop,
        ← after] at hlater
    obtain ⟨s, hs⟩ := List.length_eq_one_iff.mp hlength
    exact .alone s hs

/-- The memories of a trusted lineage are what its tables say. -/
theorem Trusted.truthful
    (h : Trusted policies requests level) : Truthful (after policies requests level) := by
  cases h with
  | counted h =>
    have hrun := coherent_run (by rwa [age_founded, Nat.zero_add]) (coherent_founded policies)
    rw [age_founded, Nat.zero_add] at hrun
    have hle := age_drop_le ((founded policies).run requests) level
    exact truthful_of_coherent (by rw [after]; omega) (hrun.2.drop level)
  | unmerged h =>
    refine truthful_of_memory fun r hr => ?_
    exact forall_mem_run (fun q hq => memory_request (h q hq))
      (fun r hr => (fresh_of_mem_founded r hr).2.2) r (List.mem_of_mem_drop hr)
  | alone r h =>
    rw [h]
    exact truthful_of_current (current_of_after_eq_singleton h)

end Lineage

end Blueprint
