import Blueprint.Proofs.Location.Reading

/-!
# Cleaning a clean location

A clean location is read as the path it was written from, and its segments are tidy already, so
cleaning it again changes nothing (`cleanChars_cleanChars_of_unexposed`). It is read otherwise just
if cleaning brings a segment with a colon to the front (`Path.Exposes`). What stands up to the colon
is then taken for a scheme, and what stands behind it for a segment of its own, which the second
cleaning drops if it is a single dot. The third cleaning finds a scheme in any case, so it changes
nothing (`clean_clean_iff`).
-/

namespace Blueprint.Location

variable {cs name rest : List Char} {s : Segment} {segments : List Segment} {p : Path}

/-! ## Collapsed paths -/

/-- The path with what is left of its segments. -/
def Path.collapsed (p : Path) : Path :=
  { p with segments := if collapse p.segments = [] then [[]] else collapse p.segments }

/-- Cleaning brings a segment to the front that holds a colon. -/
structure Path.Exposes (p : Path) (name rest : List Char) (segments : List Segment) : Prop where
  scheme : p.scheme = []
  slashes : p.slashes = 0
  colon : ':' ∉ name
  left : collapse p.segments = (name ++ ':' :: rest) :: segments

/-- Collapsed segments are left as they are. -/
theorem collapse_collapsed (p : Path) : collapse p.collapsed.segments = collapse p.segments := by
  simp only [Path.collapsed]
  split
  · rename_i hnil
    rw [hnil]
    rfl
  · exact collapse_collapse p.segments

/-- A collapsed path is written with the same scheme and slashes. -/
theorem toChars_collapsed (p : Path) : p.collapsed.toChars =
    p.scheme ++ List.replicate p.slashes '/' ++ joinSegments (collapse p.segments) := by
  simp only [Path.collapsed, Path.toChars]
  split
  · rename_i hnil
    rw [hnil]
    rfl
  · rfl

/-- To clean a location is to read it, collapse its path and write it. -/
theorem cleanChars_eq (cs : List Char) : cleanChars cs = (Path.ofChars cs).collapsed.toChars := by
  rw [toChars_collapsed]
  rfl

/-- A clean location holds no backslash. -/
theorem map_forwardSlash_cleanChars (cs : List Char) :
    (cleanChars cs).map forwardSlash = cleanChars cs := by
  refine map_forwardSlash_of_not_mem fun hmem => ?_
  have hnone : '\\' ∉ (Path.ofChars cs).toChars := by
    rw [toChars_ofChars]
    exact fun h => ne_backslash_of_mem h rfl
  rw [cleanChars_eq, toChars_collapsed] at hmem
  refine hnone ?_
  rw [Path.toChars]
  rcases List.mem_append.mp hmem with hfront | hsegments
  · exact List.mem_append_left _ hfront
  · refine List.mem_append_right _ ?_
    rcases mem_joinSegments hsegments with hslash | ⟨s, hs, hc⟩
    · cases hslash
    · exact mem_joinSegments_of_mem (mem_of_mem_collapse hs) hc

/-- A collapsed path is readable if no segment with a colon comes to the front. -/
theorem Path.Readable.collapsed (hp : p.Readable)
    (h : ¬∃ name rest segments, p.Exposes name rest segments) : p.collapsed.Readable := by
  have hplain : ∀ s ∈ p.collapsed.segments, '/' ∉ s := by
    intro s hs
    simp only [Path.collapsed] at hs
    split at hs
    · rw [List.mem_singleton.mp hs]
      exact List.not_mem_nil
    · exact hp.plain s (mem_of_mem_collapse hs)
  refine ⟨hp.scheme, ?_, hplain, fun hfirst => ?_, fun hnone hzero s hs hcolon => ?_⟩
  · simp only [Path.collapsed]
    split
    · exact List.cons_ne_nil _ _
    · assumption
  · simp only [Path.collapsed] at hfirst ⊢
    split at hfirst
    · rename_i hnil
      rw [if_pos hnil]
    · exact absurd rfl ((tidy_collapse p.segments).ne_nil (List.mem_of_mem_head? hfirst))
  · simp only [Path.collapsed] at hs
    split at hs
    · obtain rfl := Option.some.inj hs
      cases hcolon
    · obtain ⟨more, hmore⟩ := List.head?_eq_some_iff.mp hs
      obtain ⟨name, rest, rfl, hname⟩ := List.eq_append_cons_of_mem hcolon
      exact h ⟨name, rest, more, hnone, hzero, hname, hmore⟩

/-- A clean location is read as what it was written from, unless it seems to have a scheme that
the first one had not. -/
theorem ofChars_cleanChars
    (h : ¬∃ name rest segments, (Path.ofChars cs).Exposes name rest segments) :
    Path.ofChars (cleanChars cs) = (Path.ofChars cs).collapsed :=
  ((readable_ofChars cs).collapsed h).ofChars_eq
    ((map_forwardSlash_cleanChars cs).trans (cleanChars_eq cs))

/-- A second cleaning changes nothing if no segment with a colon comes to the front. -/
theorem cleanChars_cleanChars_of_unexposed
    (h : ¬∃ name rest segments, (Path.ofChars cs).Exposes name rest segments) :
    cleanChars (cleanChars cs) = cleanChars cs := by
  rw [cleanChars_eq (cleanChars cs), ofChars_cleanChars h, toChars_collapsed, collapse_collapsed,
    cleanChars_eq cs, toChars_collapsed]
  rfl

/-! ## Exposed segments -/

namespace Path.Exposes

/-- All that is left are names. -/
theorem names (h : p.Exposes name rest segments) : ∀ s ∈ segments, s.Ordinary := by
  refine ((h.left ▸ tidy_collapse p.segments : Tidy _).ordinary_of_cons fun hup => ?_).2
  have hmem : ':' ∈ Segment.up := hup ▸ List.mem_append_right _ List.mem_cons_self
  exact absurd hmem (by decide)

/-- None of the parts that come to the front holds a slash. -/
theorem plain (h : p.Exposes name rest segments) (hp : p.Readable) :
    '/' ∉ name ∧ '/' ∉ rest ∧ ∀ s ∈ segments, '/' ∉ s := by
  have hleft : ∀ s ∈ (name ++ ':' :: rest) :: segments, '/' ∉ s := fun s hs =>
    hp.plain s (mem_of_mem_collapse (h.left ▸ hs))
  obtain ⟨hfirst, hsegments⟩ := List.forall_mem_cons.mp hleft
  rw [List.mem_append, List.mem_cons] at hfirst
  exact ⟨fun hs => hfirst (.inl hs), fun hs => hfirst (.inr (.inr hs)), hsegments⟩

/-- The cleaned location starts with the segment that comes to the front. -/
theorem cleanChars_eq (h : (Path.ofChars cs).Exposes name rest segments) :
    cleanChars cs = name ++ ':' :: joinSegments (rest :: segments) := by
  rw [Location.cleanChars_eq, toChars_collapsed, h.scheme, h.slashes, h.left]
  cases segments with
  | nil => rfl
  | cons s segments =>
    rw [joinSegments_cons _ (List.cons_ne_nil s segments),
      joinSegments_cons _ (List.cons_ne_nil s segments)]
    simp

/-- The clean location is read with what stands before the colon as its scheme. -/
theorem ofChars_cleanChars (h : (Path.ofChars cs).Exposes name rest segments) :
    Path.ofChars (cleanChars cs) =
      if rest = [] ∧ segments ≠ [] then ⟨name ++ [':'], 1, segments⟩
      else ⟨name ++ [':'], 0, rest :: segments⟩ := by
  obtain ⟨hname, hrest, hplain⟩ := h.plain (readable_ofChars cs)
  have hscheme : name ++ [':'] = [] ∨ ∃ name', name ++ [':'] = name' ++ [':'] ∧ ':' ∉ name' ∧
    '/' ∉ name' := .inr ⟨name, rfl, h.colon, hname⟩
  have hsome : name ++ [':'] ≠ [] := by simp
  split
  · rename_i hempty
    obtain ⟨rfl, hne⟩ := hempty
    refine Path.Readable.ofChars_eq ⟨hscheme, hne, hplain, fun hfirst => ?_,
      fun hnone => absurd hnone hsome⟩ ?_
    · exact absurd rfl (h.names [] (List.mem_of_mem_head? hfirst)).1
    · rw [map_forwardSlash_cleanChars, h.cleanChars_eq, joinSegments_cons [] hne]
      simp [Path.toChars]
  · rename_i hempty
    refine Path.Readable.ofChars_eq ⟨hscheme, List.cons_ne_nil _ _,
      List.forall_mem_cons.mpr ⟨hrest, hplain⟩, fun hfirst => ?_,
      fun hnone => absurd hnone hsome⟩ ?_
    · obtain rfl : rest = [] := Option.some.inj hfirst
      rw [not_not.mp fun hne => hempty ⟨rfl, hne⟩]
    · rw [map_forwardSlash_cleanChars, h.cleanChars_eq]
      simp [Path.toChars]

/-- The second cleaning drops a dot behind the colon, and nothing else. -/
theorem cleanChars_cleanChars (h : (Path.ofChars cs).Exposes name rest segments) :
    cleanChars (cleanChars cs) =
      name ++ ':' :: joinSegments (if rest = Segment.here then segments else rest :: segments) := by
  have htidy := collapse_of_tidy (tidy_of_names h.names)
  rw [Location.cleanChars_eq, toChars_collapsed, h.ofChars_cleanChars]
  by_cases hempty : rest = []
  · subst hempty
    cases segments with
    | nil => simp [collapse, pushSegment_empty, Segment.here, joinSegments]
    | cons s segments =>
      simp [htidy, Segment.here, joinSegments_cons [] (List.cons_ne_nil s segments)]
  · rw [if_neg fun h => hempty h.1]
    by_cases hhere : rest = Segment.here
    · subst hhere
      have hdrop : collapse (Segment.here :: segments) = collapse segments := by
        rw [collapse, List.foldl_cons, pushSegment_here, collapse]
      simp [hdrop, htidy]
    · have hkeep : Tidy (rest :: segments) := by
        by_cases hup : rest = Segment.up
        · exact ⟨1, segments, by rw [hup]; rfl, h.names⟩
        · exact tidy_of_names (List.forall_mem_cons.mpr ⟨⟨hempty, hhere, hup⟩, h.names⟩)
      simp [collapse_of_tidy hkeep, hhere]

end Path.Exposes

/-- Cleaning again changes a location just if a single dot follows the colon. -/
theorem cleanChars_cleanChars_iff (cs : List Char) : cleanChars (cleanChars cs) = cleanChars cs ↔
    ¬∃ name segments, (Path.ofChars cs).Exposes name Segment.here segments := by
  constructor
  · rintro heq ⟨name, segments, h⟩
    rw [h.cleanChars_cleanChars, h.cleanChars_eq, if_pos rfl, List.append_cancel_left_eq,
      List.cons.injEq] at heq
    have hlength := congrArg List.length heq.2
    cases segments with
    | nil => simp [joinSegments, Segment.here] at hlength
    | cons s segments =>
      rw [joinSegments_cons Segment.here (List.cons_ne_nil s segments)] at hlength
      simp only [Segment.here, List.length_append, List.length_cons, List.length_nil] at hlength
      omega
  · intro hdot
    by_cases hexposed : ∃ name rest segments, (Path.ofChars cs).Exposes name rest segments
    · obtain ⟨name, rest, segments, h⟩ := hexposed
      have hrest : rest ≠ Segment.here := fun hhere => hdot ⟨name, segments, hhere ▸ h⟩
      rw [h.cleanChars_cleanChars, h.cleanChars_eq, if_neg hrest]
    · exact cleanChars_cleanChars_of_unexposed hexposed

/-- Cleaning a clean location changes it just if the first cleaning brought a segment to the front
in which a single dot follows the first colon. Cleaning for the third time never changes
anything. -/
theorem clean_clean_iff (location : String) :
    (clean (clean location) = clean location ↔
      ¬∃ name segments, (Path.ofChars location.toList).Exposes name Segment.here segments) ∧
    clean (clean (clean location)) = clean (clean location) := by
  have chars : ∀ {s t : String}, clean s = clean t ↔ cleanChars s.toList = cleanChars t.toList :=
    String.ofList_inj
  rw [chars, chars, clean, clean, String.toList_ofList, String.toList_ofList]
  refine ⟨cleanChars_cleanChars_iff _, (cleanChars_cleanChars_iff _).mpr ?_⟩
  rintro ⟨name, segments, h⟩
  by_cases hexposed :
      ∃ name rest segments, (Path.ofChars location.toList).Exposes name rest segments
  · -- The clean location has a scheme now.
    obtain ⟨name, rest, segments, hfirst⟩ := hexposed
    have hnone := h.scheme
    rw [hfirst.ofChars_cleanChars] at hnone
    split at hnone <;> simp at hnone
  · have hleft := h.left
    rw [ofChars_cleanChars hexposed, collapse_collapsed] at hleft
    have hscheme := h.scheme
    have hslashes := h.slashes
    rw [ofChars_cleanChars hexposed] at hscheme hslashes
    exact hexposed ⟨name, _, segments, hscheme, hslashes, h.colon, hleft⟩

/-- A segment that comes to the front takes the dot behind its colon along, and the next cleaning
drops it. -/
theorem clean_clean_dotBehindColon :
    clean "./conf:./app.xml" = "conf:./app.xml" ∧
      clean (clean "./conf:./app.xml") = "conf:app.xml" := by
  decide

end Blueprint.Location
