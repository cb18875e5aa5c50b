import Blueprint.Proofs.Dependency.Journal

/-!
# Marks with numbers

The order of creation marks need not be kept as a list. `NumberedMarks` holds them in a table that
keeps no order and gives each the next number of a counter. The names, sorted by their numbers, are
those of the tracker in the same order, as long as the counter has not wrapped around
(`NumberedMarks.follows_run`, `NumberedMarks.names_eq`) : a number is a time of a mark like its
place in the journal.
-/

namespace Blueprint

/-- How many marks an entry takes, one or none. -/
def Bookkeeping.marksTaken (t : Tracker) : Bookkeeping → Nat
  | .mark name => if t.isCreating name then 0 else 1
  | _ => 0

/-- How many marks are taken by a journal. -/
def Tracker.marksTaken (t : Tracker) : List Bookkeeping → Nat
  | [] => 0
  | b :: journal => b.marksTaken t + (b.run t).marksTaken journal

/-- One more entry takes a mark or none. -/
theorem Tracker.marksTaken_concat (b : Bookkeeping) : ∀ (journal : List Bookkeeping) (t : Tracker),
    t.marksTaken (journal ++ [b]) = t.marksTaken journal + b.marksTaken (t.run journal)
  | [], t => by simp [marksTaken, run]
  | first :: journal, t => by
    have ih := marksTaken_concat b journal (first.run t)
    simp only [List.cons_append, marksTaken, ih, Nat.add_assoc]
    rfl

/-- Marks in a table without an order of its own, each with the number that it got. -/
structure NumberedMarks where
  numbers : Std.TreeMap String UInt64 := {}
  /-- The number of the next mark. It wraps around. -/
  next : UInt64 := 0

namespace NumberedMarks

/-- The marks after an entry. -/
def after (m : NumberedMarks) : Bookkeeping → NumberedMarks
  | .mark name =>
    if m.numbers.contains name then m else ⟨m.numbers.insert name m.next, m.next + 1⟩
  | .unmark name => { m with numbers := m.numbers.erase name }
  | .clear => { m with numbers := {} }
  | .connect _ _ | .disconnect _ => m

/-- The marks after a journal. -/
def ofJournal (journal : List Bookkeeping) : NumberedMarks := journal.foldl after {}

/-- The marked names, sorted by their numbers. -/
def names (m : NumberedMarks) : List String :=
  (m.numbers.toList.mergeSort fun a b => a.2 ≤ b.2).map Prod.fst

/-- The number of a mark. -/
def Number (m : NumberedMarks) (name : String) (i : Nat) : Prop :=
  ∃ number, m.numbers[name]? = some number ∧ number.toNat = i

variable {m : NumberedMarks} {t : Tracker} {names : List String} {name : String} {i count : Nat}

/-- A name is in the table if its mark has a number. -/
theorem contains_iff_number : m.numbers.contains name = true ↔ ∃ i, m.Number name i := by
  rw [Std.TreeMap.contains_iff_mem, Std.TreeMap.mem_iff_isSome_getElem?, Option.isSome_iff_exists]
  constructor
  · rintro ⟨number, hnumber⟩
    exact ⟨number.toNat, number, hnumber, rfl⟩
  · rintro ⟨_, number, hnumber, _⟩
    exact ⟨number, hnumber⟩

/-- The one name does not have a greater number than the other. -/
def NotAfter (m : NumberedMarks) (a b : String) : Prop :=
  ∀ i j, m.Number a i → m.Number b j → i ≤ j

/-- Names in the order of their numbers are what sorting the table gives. -/
theorem names_eq (h : InOrder m.Number names) : m.names = names := by
  have entry : ∀ {a : String} {k : UInt64},
      (a, k) ∈ m.numbers.toList.mergeSort (fun a b => a.2 ≤ b.2) → m.numbers[a]? = some k := by
    intro a k hmem
    exact Std.TreeMap.mem_toList_iff_getElem?_eq_some.mp ((List.mergeSort_perm _ _).mem_iff.mp hmem)
  have hperm : m.names.Perm names := by
    refine ((List.mergeSort_perm _ _).map Prod.fst).trans ?_
    rw [Std.TreeMap.map_fst_toList_eq_keys]
    refine (List.perm_ext_iff_of_nodup Std.TreeMap.nodup_keys h.nodup).mpr fun a => ?_
    rw [Std.TreeMap.mem_keys, ← Std.TreeMap.contains_iff_mem, contains_iff_number, h.mem_iff]
  have hsorted : m.names.Pairwise m.NotAfter := by
    refine List.pairwise_map.mpr ((List.pairwise_mergeSort (fun a b c hab hbc => ?_)
      (fun a b => ?_) _).imp_of_mem fun {a b} ha hb hle => ?_)
    · simp only [decide_eq_true_eq] at hab hbc ⊢
      exact UInt64.le_trans hab hbc
    · simpa using UInt64.le_total a.2 b.2
    · rintro i j ⟨k, hk, rfl⟩ ⟨l, hl, rfl⟩
      obtain rfl := Option.some.inj ((entry ha).symm.trans hk)
      obtain rfl := Option.some.inj ((entry hb).symm.trans hl)
      exact UInt64.le_iff_toNat_le.mp (of_decide_eq_true hle)
  refine hperm.eq_of_pairwise (fun a b ha hb hab hba => ?_) hsorted
    (h.increasing.imp fun hlt i j hi hj => Nat.le_of_lt (hlt i j hi hj))
  obtain ⟨i, hi⟩ := (h.mem_iff a).mp (hperm.mem_iff.mp ha)
  obtain ⟨j, hj⟩ := (h.mem_iff b).mp hb
  obtain rfl := Nat.le_antisymm (hab i j hi hj) (hba j i hj hi)
  exact h.inj hi hj

/-- The table holds the marks of a tracker, and the counter has counted them. -/
structure Follows (m : NumberedMarks) (t : Tracker) (count : Nat) : Prop where
  inOrder : InOrder m.Number t.creating
  below : ∀ name i, m.Number name i → i < m.next.toNat
  counted : m.next.toNat = count

theorem Follows.contains_eq (h : m.Follows t count) (name : String) :
    m.numbers.contains name = t.isCreating name := by
  rw [Bool.eq_iff_iff, Tracker.isCreating, List.contains_iff_mem, h.inOrder.mem_iff,
    contains_iff_number]

/-- An entry changes the numbers as it changes the times of marks. -/
theorem Follows.number_after (h : m.Follows t count) (b : Bookkeeping) (name : String) (i : Nat) :
    (m.after b).Number name i ↔ m.Number name i ∧ ¬b.Frees name ∨
      i = m.next.toNat ∧ b = .mark name ∧ t.isCreating name = false := by
  cases b with
  | connect | disconnect => simp [after, Bookkeeping.Frees]
  | clear => simp [after, Number, Bookkeeping.Frees]
  | mark other =>
    cases hc : t.isCreating other with
    | true =>
      rw [after, h.contains_eq, if_pos hc]
      simp only [Bookkeeping.Frees, reduceCtorEq, or_self, not_false_eq_true, and_true,
        Bookkeeping.mark.injEq]
      refine (or_iff_left ?_).symm
      rintro ⟨-, rfl, hfree⟩
      cases hc.symm.trans hfree
    | false =>
      have hnone : m.numbers[other]? = none := by
        rw [← h.contains_eq] at hc
        exact Std.TreeMap.getElem?_eq_none_of_contains_eq_false hc
      rw [after, h.contains_eq, if_neg (ne_true_of_eq_false hc)]
      by_cases hname : other = name
      · subst hname
        simp [Number, Bookkeeping.Frees, hnone, hc, eq_comm]
      · simp [Number, Bookkeeping.Frees, Std.TreeMap.getElem?_insert, hname]
  | unmark other =>
    by_cases hname : other = name
    · simp [after, Number, Bookkeeping.Frees, hname]
    · simp [after, Number, Bookkeeping.Frees, Std.TreeMap.getElem?_erase, hname]

/-- The counter counts the marks that are taken, as long as it does not wrap around. -/
theorem Follows.counted_after (h : m.Follows t count) (b : Bookkeeping)
    (hfew : count + b.marksTaken t < UInt64.size) :
    (m.after b).next.toNat = count + b.marksTaken t := by
  cases b with
  | mark name =>
    rw [after, h.contains_eq]
    rw [Bookkeeping.marksTaken] at hfew ⊢
    split
    · exact h.counted
    · rename_i hc
      rw [if_neg hc] at hfew
      rw [UInt64.toNat_add, h.counted]
      exact Nat.mod_eq_of_lt hfew
  | connect | disconnect | clear | unmark => exact h.counted

/-- An entry is written to the table as it is to the tracker. -/
theorem Follows.after (h : m.Follows t count) (b : Bookkeeping)
    (hfew : count + b.marksTaken t < UInt64.size) :
    (m.after b).Follows (b.run t) (count + b.marksTaken t) where
  inOrder := h.inOrder.run h.below (h.number_after b)
  below name i hi := by
    rw [h.counted_after b hfew]
    rcases (h.number_after b name i).mp hi with ⟨hi, -⟩ | ⟨rfl, rfl, hfree⟩
    · have := h.below name i hi
      have := h.counted
      omega
    · rw [Bookkeeping.marksTaken, if_neg (ne_true_of_eq_false hfree), h.counted]
      exact Nat.lt_succ_self count
  counted := h.counted_after b hfew

/-- The table follows the tracker along a whole journal. -/
theorem follows_run (journal : List Bookkeeping)
    (hfew : ({} : Tracker).marksTaken journal < UInt64.size) :
    (ofJournal journal).Follows (Tracker.run {} journal) (({} : Tracker).marksTaken journal) := by
  induction journal using List.reverseRecOn with
  | nil =>
    refine ⟨⟨fun name => ?_, List.Pairwise.nil⟩, fun name i hi => ?_, rfl⟩
    · simp [Tracker.run, ofJournal, Number]
    · simp [ofJournal, Number] at hi
  | append_singleton journal b ih =>
    rw [Tracker.marksTaken_concat] at hfew ⊢
    rw [Tracker.run_concat, ofJournal, List.foldl_append]
    exact (ih (by omega)).after b hfew

end NumberedMarks

end Blueprint
