import Blueprint.Location.Path

/-!
# Collapsed segments

`collapse` goes through the segments with a stack of what is left of those before. What it leaves
is `Tidy` : first segments that climb, then ordinary ones (`tidy_collapse`). Tidy segments are left
as they are (`collapse_of_tidy`), so what comes behind a list of segments may as well come behind
what is left of it (`collapse_append`).
-/

namespace Blueprint.Location

/-- A segment that is a name. -/
def Segment.Ordinary (s : Segment) : Prop := s ≠ [] ∧ s ≠ Segment.here ∧ s ≠ Segment.up

instance (s : Segment) : Decidable s.Ordinary :=
  inferInstanceAs (Decidable (s ≠ [] ∧ s ≠ Segment.here ∧ s ≠ Segment.up))

/-- Segments that climb, with names behind them. -/
def Tidy (segments : List Segment) : Prop :=
  ∃ ups names, segments = List.replicate ups Segment.up ++ names ∧ ∀ s ∈ names, s.Ordinary

variable {segments more names : List Segment} {s : Segment}

/-! ## The stack -/

theorem pushSegment_of_ordinary (before : List Segment) (h : s.Ordinary) :
    pushSegment before s = s :: before := by
  simp [pushSegment, h.1, h.2.1, h.2.2]

theorem pushSegment_empty (before : List Segment) : pushSegment before [] = before := by
  simp [pushSegment]

theorem pushSegment_here (before : List Segment) : pushSegment before Segment.here = before := by
  simp [pushSegment]

/-- Climbing takes a name away. -/
theorem pushSegment_up (before : List Segment) (h : s.Ordinary) :
    pushSegment (s :: before) Segment.up = before := by
  have hup : ¬(Segment.up = [] ∨ Segment.up = Segment.here) := by decide
  simp [pushSegment, hup, h.2.2]

theorem pushSegment_up_ups (n : Nat) :
    pushSegment (List.replicate n Segment.up) Segment.up = List.replicate (n + 1) Segment.up := by
  have hup : ¬(Segment.up = [] ∨ Segment.up = Segment.here) := by decide
  cases n <;> simp [pushSegment, hup, List.replicate_succ]

/-- Names are put on the stack one after the other, whatever is there. -/
theorem foldl_pushSegment_names (h : ∀ s ∈ names, s.Ordinary) (before : List Segment) :
    names.foldl pushSegment before = names.reverse ++ before := by
  induction names generalizing before with
  | nil => rfl
  | cons s names ih =>
    rw [List.foldl_cons, pushSegment_of_ordinary before (h s List.mem_cons_self),
      ih fun s hs => h s (List.mem_cons_of_mem _ hs)]
    simp

/-- Segments that climb pile up on others. -/
theorem foldl_pushSegment_ups (m n : Nat) :
    (List.replicate n Segment.up).foldl pushSegment (List.replicate m Segment.up) =
      List.replicate (m + n) Segment.up := by
  induction n generalizing m with
  | zero => rfl
  | succ n ih => rw [List.replicate_succ, List.foldl_cons, pushSegment_up_ups, ih]; congr 1; omega

/-- Climbing often enough takes all names away. -/
theorem foldl_pushSegment_climb (h : ∀ s ∈ names, s.Ordinary) (m n : Nat) :
    (List.replicate (names.length + n) Segment.up).foldl pushSegment
        (names ++ List.replicate m Segment.up) = List.replicate (m + n) Segment.up := by
  induction names with
  | nil => simpa using foldl_pushSegment_ups m n
  | cons s names ih =>
    have hn : (s :: names).length + n = names.length + n + 1 := by rw [List.length_cons]; omega
    rw [hn, List.replicate_succ, List.foldl_cons, List.cons_append,
      pushSegment_up _ (h s List.mem_cons_self), ih fun s hs => h s (List.mem_cons_of_mem _ hs)]

/-! ## What is left -/

/-- What is left of any segments is tidy. -/
theorem tidy_collapse (segments : List Segment) : Tidy (collapse segments) := by
  -- The stack holds the names last, and the segments that climb below them.
  have stack : ∀ (segments names : List Segment) (ups : Nat), (∀ s ∈ names, s.Ordinary) →
      Tidy ((segments.foldl pushSegment (names ++ List.replicate ups Segment.up)).reverse) := by
    intro segments
    induction segments with
    | nil =>
      intro names ups h
      exact ⟨ups, names.reverse, by simp, fun s hs => h s (List.mem_reverse.mp hs)⟩
    | cons s segments ih =>
      intro names ups h
      rw [List.foldl_cons]
      by_cases hempty : s = []
      · rw [hempty, pushSegment_empty]
        exact ih names ups h
      by_cases hhere : s = Segment.here
      · rw [hhere, pushSegment_here]
        exact ih names ups h
      by_cases hup : s = Segment.up
      · subst hup
        cases names with
        | nil =>
          rw [List.nil_append, pushSegment_up_ups]
          exact ih [] (ups + 1) h
        | cons last names =>
          rw [List.cons_append, pushSegment_up _ (h last List.mem_cons_self)]
          exact ih names ups fun s hs => h s (List.mem_cons_of_mem _ hs)
      · have hs : s.Ordinary := ⟨hempty, hhere, hup⟩
        rw [pushSegment_of_ordinary _ hs]
        exact ih (s :: names) ups (List.forall_mem_cons.mpr ⟨hs, h⟩)
  exact stack segments [] 0 (by simp)

/-- Tidy segments are left as they are. -/
theorem collapse_of_tidy (h : Tidy segments) : collapse segments = segments := by
  obtain ⟨ups, names, rfl, hnames⟩ := h
  have hups := foldl_pushSegment_ups 0 ups
  rw [List.replicate_zero, Nat.zero_add] at hups
  rw [collapse, List.foldl_append, hups, foldl_pushSegment_names hnames]
  simp

theorem collapse_collapse (segments : List Segment) :
    collapse (collapse segments) = collapse segments :=
  collapse_of_tidy (tidy_collapse segments)

/-- What comes behind some segments may as well come behind what is left of them. -/
theorem collapse_append (segments more : List Segment) :
    collapse (segments ++ more) = collapse (collapse segments ++ more) := by
  have hstack : (collapse segments).foldl pushSegment [] = segments.foldl pushSegment [] :=
    List.reverse_inj.mp (collapse_collapse segments)
  rw [collapse, collapse, List.foldl_append, List.foldl_append, hstack]

theorem collapse_concat (segments : List Segment) (h : s.Ordinary) :
    collapse (segments ++ [s]) = collapse segments ++ [s] := by
  rw [collapse, List.foldl_append, List.foldl_cons, List.foldl_nil, pushSegment_of_ordinary _ h,
    List.reverse_cons, collapse]

theorem collapse_concat_empty (segments : List Segment) :
    collapse (segments ++ [[]]) = collapse segments := by
  rw [collapse, List.foldl_append, List.foldl_cons, List.foldl_nil, pushSegment_empty, collapse]

/-- Nothing gets on the stack but the segment that is pushed. -/
theorem or_of_mem_pushSegment {before : List Segment} {t : Segment}
    (h : s ∈ pushSegment before t) : s ∈ before ∨ s = t := by
  unfold pushSegment at h
  split at h
  · exact .inl h
  · split at h
    · rename_i hup
      split at h
      · exact .inr (hup ▸ List.mem_singleton.mp h)
      · split at h
        · exact (List.mem_cons.mp h).symm.imp_right fun hs => hs.trans hup.symm
        · exact .inl (List.mem_cons_of_mem _ h)
    · exact (List.mem_cons.mp h).symm

/-- Every segment that is left was there before. -/
theorem mem_of_mem_collapse (h : s ∈ collapse segments) : s ∈ segments := by
  have stack : ∀ (segments before : List Segment), ∀ s ∈ segments.foldl pushSegment before,
      s ∈ before ∨ s ∈ segments := by
    intro segments
    induction segments with
    | nil => exact fun before s hs => .inl hs
    | cons t segments ih =>
      intro before s hs
      rcases ih _ s hs with hs | hs
      · rcases or_of_mem_pushSegment hs with hs | rfl
        · exact .inl hs
        · exact .inr List.mem_cons_self
      · exact .inr (List.mem_cons_of_mem _ hs)
  simpa using stack segments [] s (List.mem_reverse.mp h)

/-- Tidy segments are not empty. -/
theorem Tidy.ne_nil (h : Tidy segments) (hs : s ∈ segments) : s ≠ [] := by
  obtain ⟨ups, names, rfl, hnames⟩ := h
  rcases List.mem_append.mp hs with hs | hs
  · rw [List.eq_of_mem_replicate hs]
    decide
  · exact (hnames s hs).1

/-- What stands behind a segment that does not climb are names. -/
theorem Tidy.ordinary_of_cons (h : Tidy (s :: more)) (hs : s ≠ Segment.up) :
    s.Ordinary ∧ ∀ t ∈ more, t.Ordinary := by
  obtain ⟨ups, names, heq, hnames⟩ := h
  cases ups with
  | zero =>
    rw [List.replicate_zero, List.nil_append] at heq
    exact List.forall_mem_cons.mp (heq ▸ hnames)
  | succ ups =>
    rw [List.replicate_succ, List.cons_append] at heq
    exact absurd (List.cons.inj heq).1 hs

theorem tidy_of_names (h : ∀ s ∈ names, s.Ordinary) : Tidy names := ⟨0, names, by simp, h⟩

/-- Behind enough segments that climb, all that is left climbs. -/
theorem exists_collapse_climb (h : Tidy segments) {n : Nat} (hn : segments.length ≤ n) :
    ∃ ups, collapse (segments ++ List.replicate n Segment.up) =
      List.replicate ups Segment.up := by
  obtain ⟨ups, names, rfl, hnames⟩ := h
  obtain ⟨more, rfl⟩ : ∃ more, n = names.reverse.length + more :=
    ⟨n - names.length, by simp at hn ⊢; omega⟩
  refine ⟨ups + more, ?_⟩
  have hups := foldl_pushSegment_ups 0 ups
  rw [List.replicate_zero, Nat.zero_add] at hups
  have hreversed : ∀ s ∈ names.reverse, s.Ordinary := fun s hs => hnames s (List.mem_reverse.mp hs)
  rw [collapse, List.foldl_append, List.foldl_append, hups, foldl_pushSegment_names hnames,
    foldl_pushSegment_climb hreversed]
  simp

end Blueprint.Location
