import Blueprint.Proofs.Dependency.Bookkeeping
import Mathlib.Data.List.Induction
import Mathlib.Data.List.Pairwise

/-!
# The order of creation marks

All that is written to a tracker is its journal, and the journal says when the mark of a name was
taken : the mark in force is the first one behind the last entry that takes it off
(`Bookkeeping.InForce`). The tracker holds the names of the marks in force in the order of their
places in the journal (`Tracker.inOrder_run`).

A place is one kind of time of a mark. Whatever times are used, an entry takes some away and adds a
later one, and a list that was in the order of the times before it is so after it (`InOrder.run`).
-/

namespace Blueprint

/-! ## Names in the order of their times -/

/-- The names that have a time, each once, the earliest first. -/
structure InOrder (time : String → Nat → Prop) (names : List String) : Prop where
  mem_iff : ∀ name, name ∈ names ↔ ∃ i, time name i
  increasing : names.Pairwise fun a b => ∀ i j, time a i → time b j → i < j

namespace Bookkeeping

/-- The entry takes the mark of a name off. -/
def Frees (b : Bookkeeping) (name : String) : Prop := b = .clear ∨ b = .unmark name

end Bookkeeping

namespace InOrder

variable {time time' : String → Nat → Prop} {names : List String} {name : String} {now : Nat}

theorem nodup (h : InOrder time names) : names.Nodup := by
  refine h.increasing.imp_of_mem fun {a b} ha _ hlt hab => ?_
  obtain ⟨i, hi⟩ := (h.mem_iff a).mp ha
  exact absurd (hlt i i hi (hab ▸ hi)) (Nat.lt_irrefl i)

theorem congr (h : InOrder time names) (htime : ∀ name i, time' name i ↔ time name i) :
    InOrder time' names := by
  obtain rfl : time' = time := funext₂ fun name i => propext (htime name i)
  exact h

/-- A name with a time later than all others comes last. -/
theorem concat (h : InOrder time names) (hnow : ∀ name i, time name i → i < now)
    (htime : ∀ other i, time' other i ↔ time other i ∨ i = now ∧ other = name)
    (hname : name ∉ names) : InOrder time' (names ++ [name]) where
  mem_iff other := by
    simp only [List.mem_append, List.mem_singleton, h.mem_iff, htime, exists_or, exists_eq_left]
  increasing := by
    have hnone : ∀ i, ¬time name i := fun i hi => hname ((h.mem_iff name).mpr ⟨i, hi⟩)
    refine List.pairwise_append.mpr
      ⟨?_, List.pairwise_singleton _ _, fun a ha b hb i j hi hj => ?_⟩
    · refine h.increasing.imp_of_mem fun {a b} ha hb hlt i j hi hj => ?_
      have hne : ∀ {x}, x ∈ names → x ≠ name := fun hx he => hname (he ▸ hx)
      exact hlt i j (((htime a i).mp hi).resolve_right fun h => hne ha h.2)
        (((htime b j).mp hj).resolve_right fun h => hne hb h.2)
    · obtain rfl := List.mem_singleton.mp hb
      have hi := ((htime a i).mp hi).resolve_right fun h => hname (h.2 ▸ ha)
      obtain ⟨rfl, -⟩ := ((htime b j).mp hj).resolve_left (hnone j)
      exact hnow a i hi

/-- A name whose time is taken away leaves the others in their order. -/
theorem filter (h : InOrder time names)
    (htime : ∀ other i, time' other i ↔ time other i ∧ other ≠ name) :
    InOrder time' (names.filter (· ≠ name)) where
  mem_iff other := by simp [h.mem_iff, htime]
  increasing := by
    refine (h.increasing.imp fun {a b} hlt i j hi hj => ?_).filter _
    exact hlt i j ((htime a i).mp hi).1 ((htime b j).mp hj).1

/-- An entry takes the times of the names that it frees, and a new mark gets a later one. -/
theorem run {t : Tracker} (h : InOrder time t.creating) {b : Bookkeeping}
    (hnow : ∀ name i, time name i → i < now)
    (htime : ∀ name i, time' name i ↔
      time name i ∧ ¬b.Frees name ∨ i = now ∧ b = .mark name ∧ t.isCreating name = false) :
    InOrder time' (b.run t).creating := by
  cases b with
  | connect dependent dependency =>
    rw [Bookkeeping.run, Tracker.value_connect]
    exact h.congr fun name i => by simp [htime, Bookkeeping.Frees]
  | disconnect other => exact h.congr fun name i => by simp [htime, Bookkeeping.Frees]
  | clear =>
    refine ⟨fun name => ?_, List.Pairwise.nil⟩
    simp [htime, Bookkeeping.Frees, Bookkeeping.run, Tracker.clear]
  | mark name =>
    rw [Bookkeeping.run, Tracker.value_mark]
    cases hc : t.isCreating name with
    | true =>
      refine h.congr fun other i => ?_
      simp only [htime, Bookkeeping.Frees, reduceCtorEq, or_self, not_false_eq_true, and_true,
        Bookkeeping.mark.injEq, or_iff_left_iff_imp]
      rintro ⟨-, rfl, hfree⟩
      cases hc.symm.trans hfree
    | false =>
      refine h.concat hnow (fun other i => ?_) fun hmem => ?_
      · simp only [htime, Bookkeeping.Frees, reduceCtorEq, or_self, not_false_eq_true, and_true,
          Bookkeeping.mark.injEq]
        refine or_congr_right (and_congr_right fun _ => ⟨fun h => h.1.symm, fun h => ?_⟩)
        exact ⟨h.symm, h ▸ hc⟩
      · rw [Tracker.isCreating, List.contains_iff_mem.mpr hmem] at hc
        cases hc
  | unmark name =>
    refine h.filter fun other i => ?_
    simp only [htime, Bookkeeping.Frees, reduceCtorEq, false_or, false_and, and_false, or_false,
      Bookkeeping.unmark.injEq]
    exact and_congr_right fun _ => ne_comm

/-- Two names do not have the same time. -/
theorem inj (h : InOrder time names) {a b : String} {i : Nat} (ha : time a i) (hb : time b i) :
    a = b := by
  by_contra hne
  have hapart : names.Pairwise fun a b => ¬(time a i ∧ time b i) :=
    h.increasing.imp fun hlt ⟨ha, hb⟩ => Nat.lt_irrefl i (hlt i i ha hb)
  have : Std.Symm fun a b => ¬(time a i ∧ time b i) := ⟨fun _ _ hab hi => hab hi.symm⟩
  exact hapart.forall ((h.mem_iff a).mpr ⟨i, ha⟩) ((h.mem_iff b).mpr ⟨i, hb⟩) hne ⟨ha, hb⟩

end InOrder

/-! ## Places in the journal -/

namespace Bookkeeping

variable {journal : List Bookkeeping} {b : Bookkeeping} {name : String} {i : Nat}

/-- The mark of a name that is in force after a journal was taken by its entry at a place : the mark
was not taken off since, and what was marked before was taken off before. -/
structure InForce (journal : List Bookkeeping) (name : String) (i : Nat) : Prop where
  taken : journal[i]? = some (.mark name)
  kept : ∀ k b, i < k → journal[k]? = some b → ¬b.Frees name
  first : ∀ j < i, journal[j]? = some (.mark name) →
    ∃ k b, j < k ∧ k < i ∧ journal[k]? = some b ∧ b.Frees name

theorem InForce.lt_length (h : InForce journal name i) : i < journal.length :=
  (List.getElem?_eq_some_iff.mp h.taken).1

/-- A name has one mark in force at most. -/
theorem InForce.unique {j : Nat} (hi : InForce journal name i) (hj : InForce journal name j) :
    i = j := by
  have later : ∀ {i j}, InForce journal name i → InForce journal name j → ¬i < j := by
    intro i j hi hj hlt
    obtain ⟨k, b, hk, -, hb, hfrees⟩ := hj.first i hlt hi.taken
    exact hi.kept k b hk hb hfrees
  exact Nat.le_antisymm (Nat.le_of_not_lt (later hj hi)) (Nat.le_of_not_lt (later hi hj))

/-- Of the marks behind the last entry that takes one off, the first is in force. -/
theorem exists_inForce (i : Nat) (taken : journal[i]? = some (.mark name))
    (kept : ∀ k b, i < k → journal[k]? = some b → ¬b.Frees name) :
    ∃ i, InForce journal name i := by
  by_cases first : ∀ j < i, journal[j]? = some (.mark name) →
      ∃ k b, j < k ∧ k < i ∧ journal[k]? = some b ∧ b.Frees name
  · exact ⟨i, taken, kept, first⟩
  · push Not at first
    obtain ⟨j, hj, htaken, hbetween⟩ := first
    refine exists_inForce j htaken fun k b hk hb => ?_
    rcases Nat.lt_trichotomy k i with hki | rfl | hki
    · exact hbetween k b hk hki hb
    · rw [← Option.some.inj (taken.symm.trans hb)]
      simp [Frees]
    · exact kept k b hki hb

/-- An entry ends what it frees, and is itself in force if it marks a name that is free. -/
theorem inForce_concat : InForce (journal ++ [b]) name i ↔ InForce journal name i ∧ ¬b.Frees name ∨
    i = journal.length ∧ b = .mark name ∧ ¬∃ j, InForce journal name j := by
  have earlier : ∀ k, k < journal.length → (journal ++ [b])[k]? = journal[k]? :=
    fun k hk => List.getElem?_append_left hk
  have last : (journal ++ [b])[journal.length]? = some b := List.getElem?_concat_length
  have within : ∀ {k c}, journal[k]? = some c → k < journal.length :=
    fun h => (List.getElem?_eq_some_iff.mp h).1
  constructor
  · intro h
    have hlength : i < journal.length + 1 := by simpa using h.lt_length
    rcases Nat.lt_succ_iff_lt_or_eq.mp hlength with hi | rfl
    · refine .inl ⟨⟨(earlier i hi) ▸ h.taken, fun k c hk hc => ?_, fun j hj htaken => ?_⟩,
        h.kept _ b hi last⟩
      · exact h.kept k c hk ((earlier k (within hc)).trans hc)
      · obtain ⟨k, c, hjk, hki, hc, hfrees⟩ :=
          h.first j hj ((earlier j (within htaken)).trans htaken)
        exact ⟨k, c, hjk, hki, (earlier k (Nat.lt_trans hki hi)) ▸ hc, hfrees⟩
    · refine .inr ⟨rfl, Option.some.inj (last.symm.trans h.taken), fun ⟨j, hj⟩ => ?_⟩
      -- Had a mark been in force already, it would have been freed in between.
      obtain ⟨k, c, hjk, hki, hc, hfrees⟩ :=
        h.first j hj.lt_length ((earlier j hj.lt_length).trans hj.taken)
      exact hj.kept k c hjk ((earlier k hki) ▸ hc) hfrees
  · rintro (⟨h, hfrees⟩ | ⟨rfl, rfl, hfree⟩)
    · refine ⟨(earlier i h.lt_length).trans h.taken, fun k c hk hc => ?_, fun j hj htaken => ?_⟩
      · have hlength : k < journal.length + 1 := by
          simpa using (List.getElem?_eq_some_iff.mp hc).1
        rcases Nat.lt_succ_iff_lt_or_eq.mp hlength with hk' | rfl
        · exact h.kept k c hk ((earlier k hk') ▸ hc)
        · rwa [← Option.some.inj (last.symm.trans hc)]
      · have hj' := Nat.lt_trans hj h.lt_length
        obtain ⟨k, c, hjk, hki, hc, hc'⟩ := h.first j hj ((earlier j hj') ▸ htaken)
        exact ⟨k, c, hjk, hki, (earlier k (within hc)).trans hc, hc'⟩
    · refine ⟨last, fun k c hk hc => ?_, fun j hj htaken => ?_⟩
      · have hlength := (List.getElem?_eq_some_iff.mp hc).1
        simp only [List.length_append, List.length_singleton] at hlength
        omega
      · by_contra hnone
        push Not at hnone
        refine hfree (exists_inForce j ((earlier j hj) ▸ htaken) fun k c hk hc => ?_)
        exact hnone k c hk (within hc) ((earlier k (within hc)).trans hc)

end Bookkeeping

namespace Tracker

open Bookkeeping

theorem run_concat (t : Tracker) (journal : List Bookkeeping) (b : Bookkeeping) :
    t.run (journal ++ [b]) = b.run (t.run journal) := by
  rw [run, List.foldl_append]
  rfl

/-- A name is marked if its mark has a time. -/
theorem isCreating_eq_false_iff {t : Tracker} {time : String → Nat → Prop}
    (h : InOrder time t.creating) {name : String} :
    t.isCreating name = false ↔ ¬∃ i, time name i := by
  rw [← h.mem_iff, isCreating, ← Bool.not_eq_true, List.contains_iff_mem]

/-- The names in creation are those with a mark in force, in the order of their marks. -/
theorem inOrder_run (journal : List Bookkeeping) :
    InOrder (InForce journal) (run {} journal).creating := by
  induction journal using List.reverseRecOn with
  | nil => exact ⟨fun name => by simp [run, fun i => show ¬InForce [] name i from
      fun h => Nat.not_lt_zero i h.lt_length], List.Pairwise.nil⟩
  | append_singleton journal b ih =>
    rw [run_concat]
    refine ih.run (fun _ _ h => h.lt_length) fun name i => ?_
    rw [inForce_concat, isCreating_eq_false_iff ih]

end Tracker

end Blueprint
