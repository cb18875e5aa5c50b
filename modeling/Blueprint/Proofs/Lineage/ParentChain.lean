import Blueprint.Proofs.Lineage.Answers
import Blueprint.Proofs.Names.ParentGraph

/-!
# Merging in a registry without ancestors

Without ancestors the answer of `merge` is decided by where the walk along the parents ends
(`merge_eq_of_ancestry`). It goes round, or it comes to a parent that this registry cannot merge, or
to a definition without a parent; and whichever of these the graph of the parents has, the walk of
`merge` finds it (`merge_of_parents`).
-/

namespace Blueprint.Lineage

open Relation

variable {r : Registry} {name : String}

/-- The answer of a registry without ancestors, by how the walk along the parents ends. -/
theorem merge_eq_of_ancestry (hr : r.Current) (name : String) :
    (merge [r] name).value.1 = match r.names.ancestry (r.names.denoted name) with
      | .unknown => .error (.notFound name)
      | .circular path => .error (.circularParent (r.names.denoted name) path)
      | .rooted links => inKnownScope [r] name (foldRooted links)
      | .continues _ parent => .error (.notFound parent) := by
  rw [merge_of_truthful name (truthful_of_current hr), List.map_cons, recipe]
  cases r.names.ancestry (r.names.denoted name) <;> rfl

/-- A definition in a known scope, or the complaint about its scope, is no complaint about the
parents. -/
theorem inKnownScope_ne_circularParent {l : Lineage} {d : Definition} {asked : String}
    {path : List String} : inKnownScope l name d ≠ .error (.circularParent asked path) := by
  exact fun h => by cases inKnownScope_eq_error h

/-- Only a walk that was found to be circular is answered so, with the path that was found. -/
theorem ancestry_of_merge_eq_circularParent (hr : r.Current) {asked : String} {path : List String}
    (h : (merge [r] name).value.1 = .error (.circularParent asked path)) :
    asked = r.names.denoted name ∧ r.names.ancestry (r.names.denoted name) = .circular path := by
  rw [merge_eq_of_ancestry hr name] at h
  cases hfound : r.names.ancestry (r.names.denoted name) with
  | unknown => simp [hfound] at h
  | circular found =>
    simp only [hfound, Except.error.injEq, Error.circularParent.injEq] at h
    exact ⟨h.1.symm, congrArg Ancestry.circular h.2⟩
  | rooted links => exact absurd (by simpa [hfound] using h) inKnownScope_ne_circularParent
  | continues links parent => simp [hfound] at h

/-- In every run, a name that a registry without ancestors finds is merged as the graph of the
parents says. The answer is that the parents are circular exactly if the walk from the canonical
name goes round, and the path in the answer is one that does. A walk that comes to a definition
whose parent is not there or is the definition itself ends with that parent, which is not found,
and one that comes to a definition without a parent gives a merged definition. All this is decided
within as many steps as there are definitions : with more steps the walk finds the same. -/
theorem merge_of_parents (policies : List Policy) (requests : List (Nat × Request)) (level : Nat)
    {d : Definition} (h : after policies requests level = [r])
    (hget : (get [r] name).value = .ok d) :
    ((∃ asked path, (merge [r] name).value.1 = .error (.circularParent asked path)) ↔
      r.names.GoesRound (r.names.denoted name)) ∧
    (∀ asked path, (merge [r] name).value.1 = .error (.circularParent asked path) →
      asked = r.names.denoted name ∧ r.names.Circuit (r.names.denoted name) path) ∧
    (∀ a requested, ReflTransGen r.names.InheritsFrom (r.names.denoted name) a →
      r.names.AsksOutside a requested →
      (merge [r] name).value.1 = .error (.notFound requested)) ∧
    (∀ a root, ReflTransGen r.names.InheritsFrom (r.names.denoted name) a →
      r.names.definitions.get? a = some root → root.parent? = none →
      ∃ merged, (merge [r] name).value.1 = inKnownScope [r] name merged) ∧
    ∀ steps, r.names.definitions.size ≤ steps →
      r.names.ascend steps [] (r.names.denoted name, d) =
        r.names.ancestry (r.names.denoted name) := by
  have hr := current_of_after_eq_singleton h
  have hstart : r.names.definitions.get? (r.names.denoted name) = some d := by
    rw [get, Names.find?] at hget
    cases hd : r.names.definitions.get? (r.names.denoted name) with
    | none => simp [hd, get] at hget
    | some e => simpa [hd] using hget
  have hdefined := Table.contains_of_get? hstart
  have hwalk := Names.walked_ancestry hdefined
  have hmerge := merge_eq_of_ancestry hr name
  refine ⟨⟨fun hanswer => ?_, fun hround => ?_⟩, fun asked path hanswer => ?_,
    fun a requested hreach hout => ?_, fun a root hreach hroot hnone => ?_,
    fun steps => hwalk.ascend_eq hstart⟩
  · obtain ⟨asked, path, hanswer⟩ := hanswer
    exact ((ancestry_of_merge_eq_circularParent hr hanswer).2 ▸ hwalk).goesRound
  · obtain ⟨path, hfound⟩ := Names.ancestry_of_goesRound hdefined hround
    exact ⟨_, path, by rw [hmerge, hfound]⟩
  · obtain ⟨hasked, hfound⟩ := ancestry_of_merge_eq_circularParent hr hanswer
    exact ⟨hasked, (hfound ▸ hwalk).circuit⟩
  · obtain ⟨links, hfound⟩ := Names.ancestry_of_asksOutside hdefined hreach hout
    rw [hmerge, hfound]
  · obtain ⟨links, hfound⟩ := Names.ancestry_of_root hdefined hreach hroot hnone
    exact ⟨foldRooted links, by rw [hmerge, hfound]⟩

/-- Two components that are each the parent of the other, one of them under an alias, and a third
that inherits from the alias, with a mark. -/
def circularParents : List (Nat × Request) := [
  (0, .change (.registerAlias "disk" "spare")),
  (0, .change (.register "disk" (.childOf "tape"))),
  (0, .change (.register "tape" (.childOf "spare"))),
  (0, .change (.register "store" (.childOf "&spare")))]

theorem merge_circularParents : ∃ r path, after [{}] circularParents 0 = [r] ∧
    r.names.GoesRound "store" ∧
    (merge [r] "store").value.1 = .error (.circularParent "store" path) ∧
    r.names.Circuit "store" path := by
  have htables : (after [{}] circularParents 0).map (fun r => (r.names.denoted "store",
      r.names.denoted "&spare", r.names.denoted "tape", r.names.denoted "spare",
      r.names.definitions.get? "store", r.names.definitions.get? "disk",
      r.names.definitions.get? "tape")) =
    [("store", "disk", "tape", "disk", some (.childOf "&spare"), some (.childOf "tape"),
      some (.childOf "spare"))] := by rfl
  obtain ⟨r, hrun, hr⟩ := List.map_eq_singleton_iff.mp htables
  simp only [Prod.mk.injEq] at hr
  obtain ⟨hdenoted, hmarked, htapeName, hspare, hstore, hdisk, htape⟩ := hr
  have hget : (get [r] "store").value = .ok (.childOf "&spare") := by
    rw [get, Names.find?, hdenoted, hstore]
    rfl
  have hfirst : r.names.InheritsFrom "store" "disk" := ⟨_, _, hstore, rfl, hmarked⟩
  have hdown : r.names.InheritsFrom "disk" "tape" := ⟨_, _, hdisk, rfl, htapeName⟩
  have hback : r.names.InheritsFrom "tape" "disk" := ⟨_, _, htape, rfl, hspare⟩
  have hround : r.names.GoesRound "store" :=
    ⟨"disk", .single hfirst, .head hdown (.single hback), fun hself =>
      absurd (hdown.unique hself) (by decide)⟩
  obtain ⟨hiff, hpath, -⟩ := merge_of_parents [{}] circularParents 0 hrun hget
  rw [hdenoted] at hiff hpath
  obtain ⟨asked, path, hanswer⟩ := hiff.mpr hround
  obtain ⟨rfl, hcircuit⟩ := hpath asked path hanswer
  exact ⟨r, path, hrun, hround, hanswer, hcircuit⟩

end Blueprint.Lineage
