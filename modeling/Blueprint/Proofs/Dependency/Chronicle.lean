import Blueprint.Proofs.Dependency.Custody
import Blueprint.Proofs.Dependency.NumberedMarks

/-!
# What a tracker tells of its marks

The names in creation, the refusals of a mark and the answers to taking one off all tell of the
marks that are in force by the journal (`Tracker.Chronicles`). Beginning a creation asks for a mark,
and dropping a guard takes one off, so a tracker with guards has a journal as well
(`Custody.tracker_run`).
-/

namespace Blueprint

/-! ## What a tracker tells -/

namespace Tracker

open Bookkeeping

/-- What a tracker tells of the marks in its journal. -/
structure Chronicles (t : Tracker) (journal : List Bookkeeping) : Prop where
  mem_creating_iff : ∀ name, name ∈ t.creating ↔ ∃! i, InForce journal name i
  nodup : t.creating.Nodup
  /-- The oldest mark comes first. -/
  chronological : t.creating.Pairwise fun a b =>
    ∀ i j, InForce journal a i → InForce journal b j → i < j
  /-- Sorting the marks by their numbers gives the same names. -/
  sorted : ({} : Tracker).marksTaken journal < UInt64.size →
    (NumberedMarks.ofJournal journal).names = t.creating
  mark_refused_iff : ∀ name,
    (∃ e, (t.mark name).value = .error e) ↔ ∃ i, InForce journal name i
  mark_refused : ∀ name e, (t.mark name).value = .error e →
    e = .circularDependency name (t.creating ++ [name]) ∧ (Bookkeeping.mark name).run t = t
  mark_taken : ∀ name marked, (t.mark name).value = .ok marked →
    marked = { t with creating := t.creating ++ [name] }
  unmark_iff : ∀ name, (t.unmark name).1 = true ↔ ∃ i, InForce journal name i
  unmark : ∀ name, (t.unmark name).2 = { t with creating := t.creating.filter (· ≠ name) }

/-- Every tracker tells of its marks as its journal does. -/
theorem chronicles_run (journal : List Bookkeeping) :
    (run {} journal).Chronicles journal := by
  generalize ht : run {} journal = t
  have h : InOrder (InForce journal) t.creating := ht ▸ inOrder_run journal
  have marked_iff (name) : t.isCreating name = true ↔ ∃ i, InForce journal name i := by
    rw [← h.mem_iff, isCreating, List.contains_iff_mem]
  refine ⟨fun name => ?_, h.nodup, h.increasing, fun hfew => ?_, fun name => ?_,
    fun name e he => ?_, fun name marked hm => ?_, marked_iff, fun name => rfl⟩
  · rw [h.mem_iff]
    constructor
    · rintro ⟨i, hi⟩
      exact ⟨i, hi, fun j hj => hj.unique hi⟩
    · rintro ⟨i, hi, _⟩
      exact ⟨i, hi⟩
  · exact NumberedMarks.names_eq (ht ▸ (NumberedMarks.follows_run journal hfew).inOrder)
  · rw [← marked_iff, value_mark]
    cases t.isCreating name <;> simp
  · rw [Bookkeeping.run, he]
    rw [value_mark] at he
    split at he
    · exact ⟨(Except.error.inj he).symm, rfl⟩
    · cases he
  · rw [value_mark] at hm
    split at hm
    · cases hm
    · exact (Except.ok.inj hm).symm

end Tracker

namespace Custody

/-- What an event writes to the tracker. A creation that is begun asks for a mark, and a guard that
is dropped takes the mark of its name off. -/
def entry (s : Custody) : Event → Option Bookkeeping
  | .book entry => some entry
  | .begin name => some (.mark name)
  | .drop number => (s.held.get? number).map fun guard => .unmark guard.name

/-- What some events write to the tracker, one after the other. -/
def journal (s : Custody) : List Event → List Bookkeeping
  | [] => []
  | e :: events => (s.entry e).toList ++ (s.after e).journal events

/-- An event writes its entry to the tracker and nothing else. -/
theorem tracker_after (s : Custody) (e : Event) :
    (s.after e).tracker = s.tracker.run (s.entry e).toList := by
  cases e with
  | book entry => rfl
  | begin name =>
    show _ = (Bookkeeping.mark name).run s.tracker
    rw [Bookkeeping.run, Tracker.value_mark]
    cases hc : s.tracker.isCreating name with
    | true =>
      rw [after_begin_of_creating hc]
      rfl
    | false =>
      rw [after_begin hc]
      rfl
  | drop number =>
    cases hg : s.held.get? number with
    | none =>
      rw [after_drop_of_none hg, entry, hg]
      rfl
    | some guard =>
      rw [after_drop hg, entry, hg]
      rfl

/-- A run of events writes its journal to the tracker. -/
theorem tracker_run : ∀ (events : List Event) (s : Custody),
    (s.run events).tracker = s.tracker.run (s.journal events)
  | [], _ => rfl
  | e :: events, s => by
    rw [run_cons, tracker_run events, tracker_after, journal, Tracker.run, Tracker.run, Tracker.run,
      List.foldl_append]

/-- Whatever happened to a tracker and its guards, the names in creation are those with a mark in
force, each once and the oldest mark first, which is also their order by running numbers. A name is
refused a mark just if one is in force, with an error that lists the names in creation and then the
name itself, and nothing is changed by it, nor by a creation that is begun and refused. The answer
of unmarking a name is whether a mark was in force, and the other names stay as they are. -/
theorem chronicles_of_run (events : List Event) :
    let s := run {} events
    s.tracker.Chronicles (journal {} events) ∧ ∀ name,
      (s.tracker.begin name).value =
        (s.tracker.mark name).value.map (fun marked => (⟨name⟩, marked)) ∧
      ∀ e, (s.tracker.begin name).value = .error e → s.after (.begin name) = s := by
  intro s
  refine ⟨?_, fun name => ⟨?_, fun e he => ?_⟩⟩
  · rw [tracker_run]
    exact Tracker.chronicles_run _
  · rw [Tracker.value_begin, Tracker.value_mark]
    split <;> rfl
  · rw [after, he]

/-- A name that is begun again after its guard was dropped stands behind those begun before. -/
example :
    let s := run {} [.begin "store", .begin "disk", .drop 0, .begin "store", .begin "disk"]
    s.tracker.creating = ["disk", "store"] := by
  decide

end Custody

end Blueprint
