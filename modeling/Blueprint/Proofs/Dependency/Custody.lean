import Blueprint.Proofs.Dependency.Bookkeeping
import Blueprint.Table

/-!
# Guards and the marks they were given for

A guard is given out with a mark, and takes the mark off when it is dropped. What it remembers is
the name and not the mark. `Custody` is a tracker with the guards that are held by whoever began a
creation; guards are dropped in any order, and between the drops anything is written to the tracker.

While a guard is held and the tracker is not cleared the name stays in creation, unless the mark is
taken off by its name. That happens when the name is unmarked, and also when an older guard of the
same name is dropped : `clear` takes the marks off and leaves the guards, so a name can be begun
again while the guard from before is still held. `guarded_throughout_iff` says that nothing else
ends it, and that there is no older guard as long as nothing is cleared or unmarked.
-/

namespace Blueprint

namespace Tracker

variable {t : Tracker} {name other : String}

/-- To begin a creation is to mark its name and to be given a guard. -/
theorem value_begin (t : Tracker) (name : String) : (t.begin name).value =
    if t.isCreating name then .error (.circularDependency name (t.creating ++ [name]))
    else .ok (⟨name⟩, { t with creating := t.creating ++ [name] }) := by
  have h : (t.begin name).value = (t.mark name).value.map fun marked => (⟨name⟩, marked) := by
    rw [begin, Traced.value_bind]
    split <;> rename_i he <;> rw [he] <;> rfl
  rw [h, value_mark]
  split <;> rfl

theorem isCreating_unmark (t : Tracker) (name other : String) :
    (t.unmark name).2.isCreating other = (t.isCreating other && decide (other ≠ name)) := by
  rw [Bool.eq_iff_iff]
  simp [unmark, isCreating]

theorem isCreating_marked (t : Tracker) (name other : String) :
    ({ t with creating := t.creating ++ [name] } : Tracker).isCreating other =
      (t.isCreating other || decide (other = name)) := by
  rw [Bool.eq_iff_iff]
  simp [isCreating]

end Tracker

namespace Bookkeeping

variable {t : Tracker} {name : String}

/-- A mark is taken off by `clear` and by its name. -/
theorem isCreating_run (b : Bookkeeping) (hclear : b ≠ .clear) (hunmark : b ≠ .unmark name)
    (h : t.isCreating name = true) : (b.run t).isCreating name = true := by
  cases b with
  | connect dependent dependency =>
    rw [run, Tracker.value_connect]
    exact h
  | disconnect other => exact h
  | clear => exact absurd rfl hclear
  | mark other =>
    rw [run, Tracker.value_mark]
    split
    · exact h
    · exact (Tracker.isCreating_marked t other name).trans (by rw [h, Bool.true_or])
  | unmark other =>
    have hne : name ≠ other := fun heq => hunmark (heq ▸ rfl)
    rw [run, Tracker.isCreating_unmark, h, decide_eq_true hne, Bool.and_self]

end Bookkeeping

/-! ## Guards that are held -/

/-- A tracker and the guards that are held, each under the number with which it was given out. -/
structure Custody where
  tracker : Tracker := {}
  held : Table Nat CreationGuard := {}
  /-- How many guards were given out. -/
  given : Nat := 0

namespace Custody

/-- What can happen to a tracker and its guards. -/
inductive Event where
  /-- Anything that is written to the tracker. -/
  | book (entry : Bookkeeping)
  /-- A creation is begun. If that succeeds its guard is held. -/
  | begin (name : String)
  /-- The guard with this number is dropped, if it is held. -/
  | drop (number : Nat)
deriving DecidableEq

/-- The tracker and the guards after an event. -/
def after (s : Custody) : Event → Custody
  | .book entry => { s with tracker := entry.run s.tracker }
  | .begin name => match (s.tracker.begin name).value with
    | .ok (guard, tracker) => { tracker, held := s.held.insert s.given guard, given := s.given + 1 }
    | .error _ => s
  | .drop number => match s.held.get? number with
    | some guard => { s with tracker := s.tracker.release guard, held := s.held.erase number }
    | none => s

/-- The tracker and the guards after some events, one after the other. -/
def run (s : Custody) (events : List Event) : Custody := events.foldl after s

variable {s t : Custody} {name : String} {number : Nat} {guard : CreationGuard}

theorem run_cons (s : Custody) (e : Event) (events : List Event) :
    s.run (e :: events) = (s.after e).run events := rfl

/-- A creation that is refused changes nothing. -/
theorem after_begin_of_creating (h : s.tracker.isCreating name = true) :
    s.after (.begin name) = s := by
  rw [after, Tracker.value_begin, if_pos h]

theorem after_begin (h : s.tracker.isCreating name = false) : s.after (.begin name) =
    { tracker := { s.tracker with creating := s.tracker.creating ++ [name] },
      held := s.held.insert s.given ⟨name⟩, given := s.given + 1 } := by
  rw [after, Tracker.value_begin, if_neg (ne_true_of_eq_false h)]

/-- A guard that is dropped takes the mark of its name off, whoever set that. -/
theorem after_drop (h : s.held.get? number = some guard) : s.after (.drop number) =
    { s with tracker := (s.tracker.unmark guard.name).2, held := s.held.erase number } := by
  rw [after, h]
  rfl

theorem after_drop_of_none (h : s.held.get? number = none) : s.after (.drop number) = s := by
  rw [after, h]

/-- The name is in creation, and can neither be marked nor begun. -/
structure Guarded (s : Custody) (name : String) : Prop where
  isCreating : s.tracker.isCreating name = true
  mark : (s.tracker.mark name).value =
    .error (.circularDependency name (s.tracker.creating ++ [name]))
  begin : (s.tracker.begin name).value =
    .error (.circularDependency name (s.tracker.creating ++ [name]))

/-- A name in creation can neither be marked nor begun. -/
theorem guarded_of_isCreating (h : s.tracker.isCreating name = true) : s.Guarded name where
  isCreating := h
  mark := by rw [Tracker.value_mark, if_pos h]
  begin := by rw [Tracker.value_begin, if_pos h]

/-! ## Numbers are given once -/

/-- Guards are held under numbers that were given out. -/
def Numbered (s : Custody) : Prop := ∀ number, s.held.contains number = true → number < s.given

/-- An event gives out the next number, or none. -/
theorem Numbered.after (h : s.Numbered) (e : Event) : (s.after e).Numbered := by
  cases e with
  | book entry => exact h
  | begin name =>
    cases hc : s.tracker.isCreating name with
    | true => rwa [after_begin_of_creating hc]
    | false =>
      rw [after_begin hc]
      intro number hn
      rw [Table.contains_insert, Bool.or_eq_true, decide_eq_true_eq] at hn
      rcases hn with rfl | hn
      · exact Nat.lt_succ_self _
      · exact Nat.lt_succ_of_lt (h number hn)
  | drop number =>
    cases hg : s.held.get? number with
    | none => rwa [after_drop_of_none hg]
    | some guard =>
      rw [after_drop hg]
      intro other hn
      rw [Table.contains_erase, Bool.and_eq_true] at hn
      exact h other hn.2

/-- All guards of a run are held under numbers that were given out. -/
theorem Numbered.run : ∀ (events : List Event) {s : Custody}, s.Numbered → (s.run events).Numbered
  | [], _, h => h
  | e :: events, _, h => Numbered.run events (h.after e)

theorem numbered_of_run (events : List Event) : (run {} events).Numbered :=
  Numbered.run events fun number h => by simp [EmptyCollection.emptyCollection] at h

/-! ## What takes a mark off -/

/-- Whether an event takes the mark of `name` off by its name : it is unmarked, or a guard that
`s` holds for it is dropped. -/
def Unmarks (s : Custody) (name : String) : Event → Prop
  | .book entry => entry = .unmark name
  | .begin _ => False
  | .drop number => s.held.get? number = some ⟨name⟩

instance (s : Custody) (name : String) : DecidablePred (s.Unmarks name)
  | .book entry => inferInstanceAs (Decidable (entry = .unmark name))
  | .begin _ => inferInstanceAs (Decidable False)
  | .drop number => inferInstanceAs (Decidable (s.held.get? number = some ⟨name⟩))

/-- In `t` the creation of `name` that was begun in `s` goes on : the name is marked, and the guards
held for it are the one given out then and those that `s` holds. -/
structure GoesOn (s : Custody) (name : String) (t : Custody) : Prop where
  isCreating : t.tracker.isCreating name = true
  held : ∀ number, t.held.get? number = some ⟨name⟩ ↔
    number = s.given ∨ s.held.get? number = some ⟨name⟩
  given : s.given < t.given

/-- A creation goes on from the moment that it is begun. -/
theorem goesOn_begin (h : s.tracker.isCreating name = false) :
    GoesOn s name (s.after (.begin name)) := by
  rw [after_begin h]
  refine ⟨(Tracker.isCreating_marked s.tracker name name).trans (by simp), fun number => ?_,
    Nat.lt_succ_self _⟩
  rw [Table.get?_insert]
  by_cases hn : number = s.given
  · simp [hn]
  · simp [hn]

namespace GoesOn

/-- A creation goes on through every event that neither clears the marks, nor drops its guard, nor
takes its mark off by the name. -/
theorem after (h : GoesOn s name t) (hs : s.Numbered) {e : Event} (hclear : e ≠ .book .clear)
    (hdrop : e ≠ .drop s.given) (hu : ¬s.Unmarks name e) : GoesOn s name (t.after e) := by
  cases e with
  | book entry =>
    exact ⟨entry.isCreating_run (fun he => hclear (he ▸ rfl)) hu h.isCreating, h.held, h.given⟩
  | begin other =>
    cases hc : t.tracker.isCreating other with
    | true => rwa [after_begin_of_creating hc]
    | false =>
      have hne : other ≠ name := fun he =>
        Bool.false_ne_true (hc.symm.trans (he ▸ h.isCreating))
      rw [after_begin hc]
      refine ⟨(Tracker.isCreating_marked t.tracker other name).trans (by rw [h.isCreating]; rfl),
        fun number => ?_, Nat.lt_succ_of_lt h.given⟩
      rw [Table.get?_insert]
      split
      · -- The new number is later than every number that `s` knows.
        rename_i hn
        have hlt := h.given
        have hnone : s.held.get? number = none := Table.get?_eq_none_iff.mpr
          (Bool.eq_false_iff.mpr fun hk => absurd (hs number hk) (by omega))
        simp [hnone, hne]
        omega
      · exact h.held number
  | drop number =>
    cases hg : t.held.get? number with
    | none => rwa [after_drop_of_none hg]
    | some guard =>
      have hne : guard.name ≠ name := fun he => by
        obtain rfl | hold := (h.held number).mp (hg.trans (congrArg some (he ▸ rfl)))
        · exact hdrop rfl
        · exact hu hold
      rw [after_drop hg]
      refine ⟨(Tracker.isCreating_unmark t.tracker guard.name name).trans ?_, fun other => ?_,
        h.given⟩
      · rw [h.isCreating, decide_eq_true hne.symm, Bool.and_self]
      · rw [Table.get?_erase, ← h.held]
        split
        · rename_i ho
          rw [ho, hg]
          simp only [reduceCtorEq, Option.some.injEq, false_iff]
          exact fun he => hne (congrArg CreationGuard.name he)
        · rfl

/-- The mark is taken off by whoever knows its name. -/
theorem isCreating_after (h : GoesOn s name t) {e : Event} (hu : s.Unmarks name e) :
    (t.after e).tracker.isCreating name = false := by
  cases e with
  | book entry =>
    obtain rfl : entry = .unmark name := hu
    exact (Tracker.isCreating_unmark t.tracker name name).trans (by simp)
  | begin other => exact hu.elim
  | drop number =>
    rw [after_drop ((h.held number).mpr (.inr hu))]
    exact (Tracker.isCreating_unmark t.tracker name name).trans (by simp)

/-- A creation that goes on is guarded up to the end just if no event takes its mark off by the
name. -/
theorem guarded_iff (hs : s.Numbered) : ∀ {later : List Event} {t : Custody}, GoesOn s name t →
    .book .clear ∉ later → .drop s.given ∉ later →
    ((∀ done, done <+: later → (t.run done).Guarded name) ↔ ∀ e ∈ later, ¬s.Unmarks name e)
  | [], t, h, _, _ => by
    refine iff_of_true (fun done hd => ?_) (by simp)
    rw [List.prefix_nil.mp hd]
    exact guarded_of_isCreating h.isCreating
  | e :: later, t, h, hclear, hdrop => by
    obtain ⟨hclear, hclears⟩ := List.ne_and_not_mem_of_not_mem_cons hclear
    obtain ⟨hdrop, hdrops⟩ := List.ne_and_not_mem_of_not_mem_cons hdrop
    rw [List.forall_mem_cons]
    constructor
    · intro hall
      have hu : ¬s.Unmarks name e := fun hu =>
        Bool.false_ne_true ((h.isCreating_after hu).symm.trans (hall [e] (by simp)).isCreating)
      refine ⟨hu, (guarded_iff hs (h.after hs hclear.symm hdrop.symm hu) hclears hdrops).mp ?_⟩
      exact fun done hd => hall (e :: done) (List.cons_prefix_cons.mpr ⟨rfl, hd⟩)
    · rintro ⟨hu, hlater⟩ done hd
      cases done with
      | nil => exact guarded_of_isCreating h.isCreating
      | cons first done =>
        obtain ⟨rfl, hdone⟩ := List.cons_prefix_cons.mp hd
        exact (guarded_iff hs (h.after hs hclear.symm hdrop.symm hu) hclears hdrops).mpr hlater
          done hdone

end GoesOn

/-! ## Guards that outlive their marks -/

/-- A guard that is held for `name` is the only one, and its mark is there. -/
structure Sole (s : Custody) (name : String) : Prop where
  isCreating : ∀ number, s.held.get? number = some ⟨name⟩ → s.tracker.isCreating name = true
  unique : ∀ m n, s.held.get? m = some ⟨name⟩ → s.held.get? n = some ⟨name⟩ → m = n

/-- A guard stays the only one of its name as long as nothing is cleared or unmarked. -/
theorem Sole.after (h : s.Sole name) {e : Event} (hclear : e ≠ .book .clear)
    (hunmark : e ≠ .book (.unmark name)) : (s.after e).Sole name := by
  cases e with
  | book entry =>
    exact ⟨fun number hn => entry.isCreating_run (fun he => hclear (he ▸ rfl))
      (fun he => hunmark (he ▸ rfl)) (h.isCreating number hn), h.unique⟩
  | begin other =>
    cases hc : s.tracker.isCreating other with
    | true => rwa [after_begin_of_creating hc]
    | false =>
      rw [after_begin hc]
      by_cases hne : other = name
      · -- A name that is begun was held by no one.
        subst hne
        have hnone (number) : s.held.get? number ≠ some ⟨other⟩ := fun hn =>
          Bool.false_ne_true (hc.symm.trans (h.isCreating number hn))
        have hgiven {number} (hn : (s.held.insert s.given ⟨other⟩).get? number = some ⟨other⟩) :
            number = s.given := by
          rw [Table.get?_insert] at hn
          split at hn
          · assumption
          · exact absurd hn (hnone number)
        exact ⟨fun _ _ => (Tracker.isCreating_marked s.tracker other other).trans (by simp),
          fun m n hm hn => (hgiven hm).trans (hgiven hn).symm⟩
      · have hheld {number} (hn : (s.held.insert s.given ⟨other⟩).get? number = some ⟨name⟩) :
            s.held.get? number = some ⟨name⟩ := by
          rw [Table.get?_insert] at hn
          split at hn
          · exact absurd (congrArg CreationGuard.name (Option.some.inj hn)) hne
          · exact hn
        exact ⟨fun number hn => (Tracker.isCreating_marked s.tracker other name).trans
            (by rw [h.isCreating number (hheld hn), Bool.true_or]),
          fun m n hm hn => h.unique m n (hheld hm) (hheld hn)⟩
  | drop number =>
    cases hg : s.held.get? number with
    | none => rwa [after_drop_of_none hg]
    | some guard =>
      rw [after_drop hg]
      have hheld {other} (hn : (s.held.erase number).get? other = some ⟨name⟩) :
          other ≠ number ∧ s.held.get? other = some ⟨name⟩ := by
        rw [Table.get?_erase] at hn
        split at hn
        · exact absurd hn (by simp)
        · exact ⟨‹_›, hn⟩
      refine ⟨fun other hn => ?_, fun m n hm hn => h.unique m n (hheld hm).2 (hheld hn).2⟩
      have hne : name ≠ guard.name := fun he =>
        (hheld hn).1 (h.unique other number (hheld hn).2 (hg.trans (congrArg some (he ▸ rfl))))
      refine (Tracker.isCreating_unmark s.tracker guard.name name).trans ?_
      rw [h.isCreating other (hheld hn).2, decide_eq_true hne, Bool.and_self]

/-- Along a run without clearing and unmarking there is one guard for a name at most. -/
theorem Sole.run : ∀ {events : List Event} {s : Custody}, s.Sole name → .book .clear ∉ events →
    .book (.unmark name) ∉ events → (s.run events).Sole name
  | [], _, h, _, _ => h
  | e :: events, _, h, hclear, hunmark => by
    obtain ⟨hclear, hclears⟩ := List.ne_and_not_mem_of_not_mem_cons hclear
    obtain ⟨hunmark, hunmarks⟩ := List.ne_and_not_mem_of_not_mem_cons hunmark
    rw [run_cons]
    exact Sole.run (h.after hclear.symm hunmark.symm) hclears hunmarks

/-- The guards of such a run have their marks. -/
theorem sole_of_run {events : List Event} (hclear : .book .clear ∉ events)
    (hunmark : .book (.unmark name) ∉ events) : (run {} events).Sole name :=
  Sole.run ⟨fun _ hn => by simp [EmptyCollection.emptyCollection] at hn,
    fun _ _ hm => by simp [EmptyCollection.emptyCollection] at hm⟩ hclear hunmark

/-- A creation is begun after some events and its guard is held through some more, in which the
tracker is not cleared. The name is in creation all the time, so that it can be neither marked nor
begun, just if none of them takes the mark off by its name : the name is not unmarked, and no guard
is dropped that was held for it already. There is no such guard if the tracker was not cleared and
the name not unmarked before. -/
theorem guarded_throughout_iff (earlier later : List Event) {name : String} {guard : CreationGuard}
    {marked : Tracker} (hbegin : ((run {} earlier).tracker.begin name).value = .ok (guard, marked))
    (hclear : .book .clear ∉ later) (hdrop : .drop (run {} earlier).given ∉ later) :
    let before := run {} earlier
    (before.after (.begin name)).held.get? before.given = some ⟨name⟩ ∧
    ((∀ done, done <+: later → ((before.after (.begin name)).run done).Guarded name) ↔
      ∀ e ∈ later, ¬before.Unmarks name e) ∧
    (.book .clear ∉ earlier → .book (.unmark name) ∉ earlier →
      ∀ number, before.held.get? number ≠ some ⟨name⟩) := by
  intro before
  have hfree : before.tracker.isCreating name = false := by
    rw [Tracker.value_begin] at hbegin
    split at hbegin
    · cases hbegin
    · exact Bool.eq_false_iff.mpr ‹_›
  refine ⟨?_, (goesOn_begin hfree).guarded_iff (numbered_of_run earlier) hclear hdrop,
    fun hclears hunmarks number hn => ?_⟩
  · rw [after_begin hfree, Table.get?_insert_self]
  · exact Bool.false_ne_true
      (hfree.symm.trans ((sole_of_run hclears hunmarks).isCreating number hn))

/-- A guard is left over from before the tracker was cleared. The creation that is begun after that
goes on through everything but the drop of that guard. -/
theorem guarded_besides_leftover :
    let before := run {} [.begin "store", .book .clear]
    before.held.get? 0 = some ⟨"store"⟩ ∧
    ∀ done, done <+: [.book (.mark "store"), .begin "store", .begin "disk", .drop 2,
        .book (.connect "store" "disk"), .book (.disconnect "disk")] →
      ((before.after (.begin "store")).run done).Guarded "store" :=
  ⟨by decide, (guarded_throughout_iff [.begin "store", .book .clear] _ rfl (by decide)
    (by decide)).2.1.mpr (by decide)⟩

/-- The guard from before `clear` takes off the mark of the guard that is held after it, and the
name can be begun a second time while that guard is held. -/
theorem begin_beside_heldGuard :
    let s := run {} [.begin "store", .book .clear, .begin "store", .drop 0]
    s.held.get? 1 = some ⟨"store"⟩ ∧ s.tracker.isCreating "store" = false ∧
      (s.after (.begin "store")).held.get? 1 = some ⟨"store"⟩ ∧
      (s.after (.begin "store")).held.get? 2 = some ⟨"store"⟩ := by
  decide

end Custody

end Blueprint
