import Blueprint.Proofs.Location.Relative
import Mathlib.Data.List.Basic
import Mathlib.Data.List.Induction

/-!
# Cleaning before and after joining

A location without a colon is `Normal` when slashes lead it, then segments climb, and then names
come. Cleaning leads to this shape and keeps the slashes in front, and what has it already stays as
it is (`cleanChars_eq_self_iff`).

Segments may be collapsed before they are pushed onto others, whatever those are
(`foldl_pushSegment_collapse`). So it makes no difference whether a relative location is cleaned
before it is put behind a directory or resolved from a base (`clean_append_slash_clean`).
-/

namespace Blueprint.Location

variable {cs relative : List Char} {segments : List Segment} {slashes : Nat}

/-! ## Collapsed segments on a stack -/

theorem collapse_concat_eq (segments : List Segment) (s : Segment) :
    collapse (segments ++ [s]) = (pushSegment (collapse segments).reverse s).reverse := by
  rw [collapse, List.foldl_concat, collapse, List.reverse_reverse]

/-- What is left of segments does the same to any stack as the segments themselves. -/
theorem foldl_pushSegment_collapse (before segments : List Segment) :
    (collapse segments).foldl pushSegment before = segments.foldl pushSegment before := by
  induction segments using List.reverseRecOn with
  | nil => rfl
  | append_singleton segments s ih =>
    rw [List.foldl_concat, ← ih, collapse_concat_eq]
    by_cases hempty : s = []
    · rw [hempty, pushSegment_empty, pushSegment_empty, List.reverse_reverse]
    by_cases hhere : s = Segment.here
    · rw [hhere, pushSegment_here, pushSegment_here, List.reverse_reverse]
    by_cases hup : s = Segment.up
    · obtain ⟨ups, names, heq, hnames⟩ := tidy_collapse segments
      rw [hup, heq]
      rcases List.eq_nil_or_concat names with rfl | ⟨init, last, rfl⟩
      · -- Where all that is left climbs, one more does as well.
        rw [List.append_nil, List.reverse_replicate, pushSegment_up_ups, List.reverse_replicate,
          List.replicate_succ', List.foldl_concat]
      · -- The last name goes away again.
        have hlast : last.Ordinary := hnames last (by simp)
        rw [List.concat_eq_append, ← List.append_assoc, List.reverse_concat, pushSegment_up _ hlast,
          List.reverse_reverse, List.foldl_concat, pushSegment_of_ordinary _ hlast,
          pushSegment_up _ hlast]
    · have hs : s.Ordinary := ⟨hempty, hhere, hup⟩
      rw [pushSegment_of_ordinary _ hs, pushSegment_of_ordinary _ hs, List.reverse_cons,
        List.reverse_reverse, List.foldl_concat, pushSegment_of_ordinary _ hs]

theorem collapse_append_collapse (before segments : List Segment) :
    collapse (before ++ collapse segments) = collapse (before ++ segments) := by
  rw [collapse, List.foldl_append, foldl_pushSegment_collapse, ← List.foldl_append, collapse]

/-! ## Segments that were written -/

/-- No slash leads segments that are not empty. -/
theorem head?_joinSegments_ne (hne : ∀ s ∈ segments, s ≠ []) (hplain : ∀ s ∈ segments, '/' ∉ s) :
    (joinSegments segments).head? ≠ some '/' := by
  cases segments with
  | nil => simp [joinSegments]
  | cons s segments =>
    obtain ⟨tail, htail, -⟩ := exists_joinSegments_eq s segments
    obtain ⟨c, s', rfl⟩ := List.exists_cons_of_ne_nil (hne s List.mem_cons_self)
    have hslash : '/' ∉ c :: s' := hplain _ List.mem_cons_self
    rw [htail, List.cons_append, List.head?_cons]
    exact fun heq => hslash (Option.some.inj heq ▸ List.mem_cons_self)

/-- Segments that were collapsed and written are read as segments with the same effect. -/
theorem collapse_append_fields (before : List Segment) (hplain : ∀ s ∈ segments, '/' ∉ s) :
    collapse (before ++ Text.fields (· = '/') (joinSegments (collapse segments))) =
      collapse (before ++ segments) := by
  rw [← collapse_append_collapse before segments]
  by_cases hnil : collapse segments = []
  · rw [hnil, List.append_nil]
    exact collapse_concat_empty before
  · rw [fields_joinSegments hnil fun s hs => hplain s (mem_of_mem_collapse hs)]

/-! ## The shape of clean locations -/

/-- How many slashes lead a location, backslashes among them. -/
def leadingSlashes (cs : List Char) : Nat := ((cs.map forwardSlash).takeWhile (· = '/')).length

/-- Some slashes lead the text, then segments climb, and then names come. -/
def Normal (slashes : Nat) (cs : List Char) : Prop :=
  ∃ ups names, cs = List.replicate slashes '/' ++
      joinSegments (List.replicate ups Segment.up ++ names) ∧
    ∀ s ∈ names, s.Ordinary ∧ '/' ∉ s ∧ '\\' ∉ s

theorem ofChars_of_no_colon (h : ':' ∉ cs) : Path.ofChars cs = ⟨[], leadingSlashes cs,
    Text.fields (· = '/') ((cs.map forwardSlash).dropWhile (· = '/'))⟩ := by
  rw [Path.ofChars, splitScheme_of_not_mem (not_mem_map_forwardSlash (by decide) h)]
  rfl

/-- Cleaning leads to the normal shape, with as many slashes in front as there were. -/
theorem normal_cleanChars (h : ':' ∉ cs) : Normal (leadingSlashes cs) (cleanChars cs) := by
  obtain ⟨ups, names, heq, hnames⟩ := tidy_collapse (Path.ofChars cs).segments
  have htext : cleanChars cs = List.replicate (leadingSlashes cs) '/' ++
      joinSegments (collapse (Path.ofChars cs).segments) := by
    rw [cleanChars_eq, toChars_collapsed, ofChars_of_no_colon h]
    rfl
  refine ⟨ups, names, heq ▸ htext, fun s hs => ?_⟩
  have hleft : s ∈ collapse (Path.ofChars cs).segments := heq ▸ List.mem_append_right _ hs
  refine ⟨hnames s hs, (readable_ofChars cs).plain s (mem_of_mem_collapse hleft), fun hback => ?_⟩
  have hmem : '\\' ∈ (cleanChars cs).map forwardSlash := by
    rw [map_forwardSlash_cleanChars, htext]
    exact List.mem_append_right _ (mem_joinSegments_of_mem hleft hback)
  exact ne_backslash_of_mem hmem rfl

/-- A location in normal shape is clean. -/
theorem cleanChars_of_normal (h : Normal slashes cs) (hcolon : ':' ∉ cs) : cleanChars cs = cs := by
  obtain ⟨ups, names, rfl, hnames⟩ := h
  have htidy : Tidy (List.replicate ups Segment.up ++ names) :=
    ⟨ups, names, rfl, fun s hs => (hnames s hs).1⟩
  have hplain : ∀ s ∈ List.replicate ups Segment.up ++ names, '/' ∉ s ∧ '\\' ∉ s := by
    intro s hs
    rcases List.mem_append.mp hs with hs | hs
    · rw [List.eq_of_mem_replicate hs]
      decide
    · exact (hnames s hs).2
  generalize List.replicate ups Segment.up ++ names = segments at htidy hplain hcolon ⊢
  have hback : '\\' ∉ List.replicate slashes '/' ++ joinSegments segments := by
    intro hmem
    rcases List.mem_append.mp hmem with hmem | hmem
    · exact absurd (List.eq_of_mem_replicate hmem) (by decide)
    · rcases mem_joinSegments hmem with heq | ⟨s, hs, hc⟩
      · exact absurd heq (by decide)
      · exact (hplain s hs).2 hc
  obtain ⟨hleading, hbody⟩ := cut_at_slashes slashes
    (head?_joinSegments_ne (fun s hs => htidy.ne_nil hs) fun s hs => (hplain s hs).1)
  rw [cleanChars_eq, toChars_collapsed, ofChars_of_no_colon hcolon, leadingSlashes,
    map_forwardSlash_of_not_mem hback, hleading, hbody, List.length_replicate]
  by_cases hnil : segments = []
  · rw [hnil]
    rfl
  · rw [fields_joinSegments hnil fun s hs => (hplain s hs).1, collapse_of_tidy htidy]
    rfl

/-- A location without a colon stays as it is just if it is normal already. -/
theorem cleanChars_eq_self_iff (h : ':' ∉ cs) :
    cleanChars cs = cs ↔ Normal (leadingSlashes cs) cs := by
  refine ⟨fun heq => ?_, fun hnormal => cleanChars_of_normal hnormal h⟩
  have hnormal := normal_cleanChars h
  rwa [heq] at hnormal

/-! ## Joining -/

/-- A relative location without a colon that no slash leads : after cleaning it is one as well, and
its segments have the same effect behind others. -/
theorem cleanChars_of_bare (hcolon : ':' ∉ relative)
    (h : (relative.map forwardSlash).head? ≠ some '/') :
    ':' ∉ cleanChars relative ∧ ((cleanChars relative).map forwardSlash).head? ≠ some '/' ∧
      ∀ before, collapse (before ++
          Text.fields (· = '/') ((cleanChars relative).map forwardSlash)) =
        collapse (before ++ Text.fields (· = '/') (relative.map forwardSlash)) := by
  have hplain (s : Segment) (hs : s ∈ Text.fields (· = '/') (relative.map forwardSlash)) :
      '/' ∉ s := not_slash_of_mem_fields hs
  have htext : cleanChars relative =
      joinSegments (collapse (Text.fields (· = '/') (relative.map forwardSlash))) := by
    rw [cleanChars_eq, toChars_collapsed, ofChars_of_bare hcolon h]
    rfl
  refine ⟨fun hmem => ?_, ?_, fun before => ?_⟩
  · rw [htext] at hmem
    rcases mem_joinSegments hmem with heq | ⟨s, hs, hc⟩
    · exact absurd heq (by decide)
    · -- The character stands in the text before cleaning.
      refine not_mem_map_forwardSlash (by decide) hcolon ?_
      rw [← joinSegments_fields (relative.map forwardSlash)]
      exact mem_joinSegments_of_mem (mem_of_mem_collapse hs) hc
  · rw [map_forwardSlash_cleanChars, htext]
    exact head?_joinSegments_ne (fun s hs => (tidy_collapse _).ne_nil hs) fun s hs =>
      hplain s (mem_of_mem_collapse hs)
  · rw [map_forwardSlash_cleanChars, htext, collapse_append_fields before hplain]

/-- A location behind a directory is cleaned with the segments of both. -/
theorem cleanChars_append_slash (dir : List Char)
    (h : (relative.map forwardSlash).head? ≠ some '/') :
    cleanChars (dir ++ '/' :: relative) = Path.toChars { Path.ofDirectory dir with
      segments := collapse ((Path.ofDirectory dir).segments ++
        Text.fields (· = '/') (relative.map forwardSlash)) } := by
  rw [cleanChars, ofChars_append_slash, followedBy_of_head? _ h]

/-- No slash leads a location, cleaned of backslashes, if neither a slash nor a backslash leads it.
-/
theorem head?_map_forwardSlash_ne (hslash : cs.head? ≠ some '/') (hback : cs.head? ≠ some '\\') :
    (cs.map forwardSlash).head? ≠ some '/' := by
  cases cs with
  | nil => simp
  | cons c cs =>
    simp only [List.head?_cons, ne_eq, Option.some.injEq] at hslash hback
    simp [forwardSlash, hslash, hback]

/-- Cleaning leads a location without a colon to its normal shape behind as many slashes as led it
before, and what has this shape stays as it is. A relative location without a colon that no slash
leads can be cleaned before it is put behind a directory, or resolved from a base, and the result is
the same. -/
theorem clean_append_slash_clean :
    (∀ path : String, ':' ∉ path.toList →
      Normal (leadingSlashes path.toList) (clean path).toList ∧
        (clean path = path ↔ Normal (leadingSlashes path.toList) path.toList)) ∧
    ∀ relative : String, ':' ∉ relative.toList → relative.toList.head? ≠ some '/' →
      relative.toList.head? ≠ some '\\' →
      (∀ dir : String, clean (dir ++ "/" ++ relative) = clean (dir ++ "/" ++ clean relative)) ∧
        ∀ base : String, resolveRelative base relative = resolveRelative base (clean relative) := by
  refine ⟨fun path hcolon => ⟨?_, ?_⟩, fun relative hcolon hslash hback => ?_⟩
  · rw [clean, String.toList_ofList]
    exact normal_cleanChars hcolon
  · rw [← cleanChars_eq_self_iff hcolon, clean, ← String.toList_inj, String.toList_ofList]
  · have hhead := head?_map_forwardSlash_ne hslash hback
    obtain ⟨hcolon', hhead', heffect⟩ := cleanChars_of_bare hcolon hhead
    refine ⟨fun dir => ?_, fun base => ?_⟩
    · have hjoined (cs : List Char) : (dir ++ "/" ++ String.ofList cs).toList =
          dir.toList ++ '/' :: cs := by
        simp
      rw [← String.ofList_toList (s := relative)]
      simp only [clean, hjoined, String.toList_ofList, String.ofList_inj]
      rw [cleanChars_append_slash _ hhead, cleanChars_append_slash _ hhead', heffect]
    · simp only [resolveRelative, applyRelative, clean, String.toList_ofList, String.ofList_inj]
      rw [cleanChars_applyRelative _ hcolon hhead, cleanChars_applyRelative _ hcolon' hhead',
        heffect]

theorem clean_append_slash_clean_dotted :
    clean "\\a/./b/../..//c" = "/c" ∧
      Normal (leadingSlashes "\\a/./b/../..//c".toList) (clean "\\a/./b/../..//c").toList ∧
      clean ("conf/../up" ++ "/" ++ "..\\x/./y") =
        clean ("conf/../up" ++ "/" ++ clean "..\\x/./y") :=
  ⟨by decide, (clean_append_slash_clean.1 "\\a/./b/../..//c" (by decide)).1,
    (clean_append_slash_clean.2 "..\\x/./y" (by decide) (by decide) (by decide)).1 "conf/../up"⟩

end Blueprint.Location
