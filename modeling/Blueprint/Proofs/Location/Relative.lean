import Blueprint.Proofs.Location.Recleaning

/-!
# Relative locations and the spelling of their base

A base location matters for a relative one by its directory alone, the path in front of its last
slash (`directoryPath?`). Two bases take every relative location to the same place just if their
directories are left with the same path and agree in whether they have segments at all
(`resolveRelative_congr_iff`).

A clean base need not have the directory of the base it was cleaned from. A backslash is a slash
only after cleaning; a directory that collapses to nothing leaves no slash behind if none leads it;
and a segment with a colon that comes to the front is a scheme from then on
(`resolveRelative_clean_iff`).
-/

namespace Blueprint.Location

variable {base relative last cs : List Char} {segments : List Segment} {p : Path}

/-! ## The directory of a location -/

/-- A location without a slash has no directory. -/
theorem directory?_of_not_mem (h : '/' ∉ cs) : directory? cs = none := by
  have hall : cs.reverse.dropWhile (fun c => c ≠ '/') = [] := by
    rw [List.dropWhile_eq_nil_iff]
    intro c hc
    have hne : c ≠ '/' := fun heq => h (heq ▸ List.mem_reverse.mp hc)
    simpa using hne
  simp only [directory?, hall]

/-- The directory is what stands in front of the last slash. -/
theorem directory?_append_slash (dir : List Char) (h : '/' ∉ last) :
    directory? (dir ++ '/' :: last) = some dir := by
  have hall : ∀ c ∈ last.reverse, decide (c ≠ '/') = true := by
    intro c hc
    have hne : c ≠ '/' := fun heq => h (heq ▸ List.mem_reverse.mp hc)
    simpa using hne
  have hcut : (dir ++ '/' :: last).reverse.dropWhile (fun c => c ≠ '/') = '/' :: dir.reverse := by
    rw [List.reverse_append, List.reverse_cons, List.append_assoc, List.singleton_append,
      List.dropWhile_append_of_pos hall]
    simp
  simp only [directory?, hcut, List.reverse_reverse]

/-- The path of the directory of a location. -/
def directoryPath? (cs : List Char) : Option Path := (directory? cs).map Path.ofDirectory

/-- Where a relative location starts from : in the directory with what is left of its segments, or
in no directory. -/
def Path.start : Option Path → Path
  | none => ⟨[], 0, []⟩
  | some p => { p with segments := collapse p.segments }

/-- Whether a directory has segments, if there is one. -/
def Path.hasSegments? (dir? : Option Path) : Option Bool := dir?.map fun p => p.segments ≠ []

theorem leads_of_directoryPath? (h : directoryPath? base = some p) : p.Leads := by
  obtain ⟨dir, -, rfl⟩ := Option.map_eq_some_iff.mp h
  exact leads_ofDirectory dir

/-- A relative location starts from tidy segments. -/
theorem tidy_start (dir? : Option Path) : Tidy (Path.start dir?).segments := by
  cases dir? with
  | none => exact tidy_of_names (by simp [Path.start])
  | some p => exact tidy_collapse p.segments

/-- A relative location starts without a scheme, or from one that ends in a colon and holds no
slash. -/
theorem scheme_start (base : List Char) : (Path.start (directoryPath? base)).scheme = [] ∨
    ∃ name, (Path.start (directoryPath? base)).scheme = name ++ [':'] ∧ ':' ∉ name ∧
      '/' ∉ name := by
  cases h : directoryPath? base with
  | none => exact .inl rfl
  | some p => exact (leads_of_directoryPath? h).scheme

/-- A relative location starts from segments without slashes. -/
theorem plain_start (base : List Char) :
    ∀ s ∈ (Path.start (directoryPath? base)).segments, '/' ∉ s := by
  intro s hs
  cases h : directoryPath? base with
  | none => simp [h, Path.start] at hs
  | some p =>
    rw [h] at hs
    exact (leads_of_directoryPath? h).plain s (mem_of_mem_collapse hs)

/-! ## Where a relative location leads -/

/-- Only slashes are added when backslashes are taken for slashes. -/
theorem not_mem_map_forwardSlash {c : Char} (hc : c ≠ '/') (h : c ∉ cs) :
    c ∉ cs.map forwardSlash := by
  intro hmem
  obtain ⟨d, hd, rfl⟩ := List.mem_map.mp hmem
  by_cases hback : d = '\\'
  · exact hc (by simp [forwardSlash, hback])
  · exact h (by simpa [forwardSlash, hback] using hd)

theorem ofChars_of_bare (hcolon : ':' ∉ cs) (h : (cs.map forwardSlash).head? ≠ some '/') :
    Path.ofChars cs = ⟨[], 0, Text.fields (· = '/') (cs.map forwardSlash)⟩ := by
  obtain ⟨hleading, hbody⟩ := cut_at_slashes 0 h
  rw [List.replicate_zero, List.nil_append] at hleading hbody
  rw [Path.ofChars, splitScheme_of_not_mem (not_mem_map_forwardSlash (by decide) hcolon)]
  simp only [hleading, hbody, List.length_nil]

/-- A relative location without a colon that no slash leads takes its segments from where it
starts. -/
theorem cleanChars_applyRelative (base : List Char) (hcolon : ':' ∉ relative)
    (h : (relative.map forwardSlash).head? ≠ some '/') :
    cleanChars (applyRelativeChars base relative) =
      Path.toChars { Path.start (directoryPath? base) with
        segments := collapse ((Path.start (directoryPath? base)).segments ++
          Text.fields (· = '/') (relative.map forwardSlash)) } := by
  cases hdir : directory? base with
  | none =>
    simp only [applyRelativeChars, directoryPath?, hdir, cleanChars, ofChars_of_bare hcolon h,
      Option.map_none, Path.start, List.nil_append]
  | some dir =>
    have hslash : relative.head? ≠ some '/' := by
      intro hhead
      obtain ⟨rest, rfl⟩ := List.head?_eq_some_iff.mp hhead
      exact h (by simp [forwardSlash])
    simp only [applyRelativeChars, directoryPath?, hdir, if_neg hslash, cleanChars,
      ofChars_append_slash, followedBy_of_head? _ h, Option.map_some, Path.start,
      collapse_append (Path.ofDirectory dir).segments]

/-- Bases with the same start cannot be told apart if both have segments in their directories or
neither has. -/
theorem cleanChars_applyRelative_congr {other : List Char}
    (hstart : Path.start (directoryPath? base) = Path.start (directoryPath? other))
    (hsegments : Path.hasSegments? (directoryPath? base) = Path.hasSegments? (directoryPath? other))
    (relative : List Char) :
    cleanChars (applyRelativeChars base relative) =
      cleanChars (applyRelativeChars other relative) := by
  unfold applyRelativeChars
  unfold directoryPath? at hstart hsegments
  cases hbase : directory? base with
  | none =>
    cases hother : directory? other with
    | none => rfl
    | some dir => simp [hbase, hother, Path.hasSegments?] at hsegments
  | some dir =>
    cases hother : directory? other with
    | none => simp [hbase, hother, Path.hasSegments?] at hsegments
    | some dir' =>
      simp only [hbase, hother, Option.map_some, Path.start, Path.hasSegments?, Option.some.injEq,
        Path.mk.injEq, decide_eq_decide, not_iff_not] at hstart hsegments
      obtain ⟨hscheme, hslashes, hleft⟩ := hstart
      -- Both texts go on with a slash and the same rest.
      obtain ⟨rest, hrest⟩ : ∃ rest,
          (if relative.head? = some '/' then relative else '/' :: relative) = '/' :: rest := by
        split
        · rename_i hhead
          exact List.head?_eq_some_iff.mp hhead
        · exact ⟨relative, rfl⟩
      simp only [hrest, cleanChars, ofChars_append_slash, Path.followedBy, hscheme, hslashes]
      by_cases hnil : (Path.ofDirectory dir).segments = []
      · rw [if_pos hnil, if_pos (hsegments.mp hnil)]
      · rw [if_neg hnil, if_neg fun h => hnil (hsegments.mpr h), collapse_append, hleft,
          ← collapse_append]

/-! ## Telling two bases apart -/

/-- The relative location that climbs a number of times before it leads to a document. -/
def climbing (n : Nat) : List Char := joinSegments (List.replicate n Segment.up ++ [['x']])

/-- A climbing location is written with slashes, dots and an `x`. -/
theorem mem_climbing {n : Nat} {c : Char} (h : c ∈ climbing n) : c = '/' ∨ c = '.' ∨ c = 'x' := by
  refine (mem_joinSegments h).imp_right fun ⟨s, hs, hc⟩ => ?_
  rcases List.mem_append.mp hs with hs | hs
  · rw [List.eq_of_mem_replicate hs] at hc
    exact .inl (by simpa [Segment.up] using hc)
  · rw [List.mem_singleton.mp hs] at hc
    exact .inr (List.mem_singleton.mp hc)

theorem colon_not_mem_climbing (n : Nat) : ':' ∉ climbing n := fun h => by
  simpa using mem_climbing h

theorem map_forwardSlash_climbing (n : Nat) : (climbing n).map forwardSlash = climbing n :=
  map_forwardSlash_of_not_mem fun h => by simpa using mem_climbing h

/-- No segment of a climbing location holds a slash. -/
theorem plain_climbing (n : Nat) : ∀ s ∈ List.replicate n Segment.up ++ [['x']], '/' ∉ s := by
  intro s hs
  rcases List.mem_append.mp hs with hs | hs
  · rw [List.eq_of_mem_replicate hs]
    decide
  · rw [List.mem_singleton.mp hs]
    decide

theorem fields_climbing (n : Nat) :
    Text.fields (· = '/') (climbing n) = List.replicate n Segment.up ++ [['x']] :=
  fields_joinSegments (by simp) (plain_climbing n)

/-- No slash leads a climbing location. -/
theorem head?_climbing (n : Nat) : (climbing n).head? ≠ some '/' := by
  obtain ⟨s, rest, hs⟩ := List.exists_cons_of_ne_nil
    (show List.replicate n Segment.up ++ [['x']] ≠ [] by simp)
  obtain ⟨tail, htail, -⟩ := exists_joinSegments_eq s rest
  have hne : s ≠ [] := by
    rcases List.mem_append.mp (hs ▸ List.mem_cons_self) with h | h
    · rw [List.eq_of_mem_replicate h]
      decide
    · rw [List.mem_singleton.mp h]
      decide
  obtain ⟨c, s', rfl⟩ := List.exists_cons_of_ne_nil hne
  have hplain : '/' ∉ c :: s' := plain_climbing n _ (hs ▸ List.mem_cons_self)
  rw [climbing, hs, htail]
  intro heq
  exact hplain (Option.some.inj heq ▸ List.mem_cons_self)

/-- A climbing location is cleaned with its segments pushed onto where it starts from. -/
theorem cleanChars_applyRelative_climbing (base : List Char) (n : Nat) :
    cleanChars (applyRelativeChars base (climbing n)) =
      Path.toChars { Path.start (directoryPath? base) with
        segments := collapse ((Path.start (directoryPath? base)).segments ++
          List.replicate n Segment.up) ++ [['x']] } := by
  have hx : Segment.Ordinary ['x'] := by decide
  rw [cleanChars_applyRelative base (colon_not_mem_climbing n)
      (by rw [map_forwardSlash_climbing]; exact head?_climbing n),
    map_forwardSlash_climbing, fields_climbing, ← List.append_assoc, collapse_concat _ hx]

/-- Far enough up, nothing but the scheme and the leading slashes is left of where a relative
location starts. -/
theorem exists_ofChars_climbing (base : List Char) {n : Nat}
    (hn : (Path.start (directoryPath? base)).segments.length ≤ n) : ∃ segments,
    Path.ofChars (cleanChars (applyRelativeChars base (climbing n))) =
      { Path.start (directoryPath? base) with segments } := by
  obtain ⟨ups, hups⟩ := exists_collapse_climb (tidy_start (directoryPath? base)) hn
  refine ⟨List.replicate ups Segment.up ++ [['x']], Path.Readable.ofChars_eq ?_ ?_⟩
  · refine ⟨scheme_start base, by simp, plain_climbing ups, fun hfirst => ?_, fun _ _ s hs => ?_⟩
    · rcases List.mem_append.mp (List.mem_of_mem_head? hfirst) with h | h
      · exact absurd (List.eq_of_mem_replicate h) (by decide)
      · exact absurd (List.mem_singleton.mp h) (by decide)
    · rcases List.mem_append.mp (List.mem_of_mem_head? hs) with h | h
      · rw [List.eq_of_mem_replicate h]
        decide
      · rw [List.mem_singleton.mp h]
        decide
  · rw [map_forwardSlash_cleanChars, cleanChars_applyRelative_climbing, hups]

/-- Bases that take every climbing location to the same place start from the same path. -/
theorem start_eq_of_climbing {other : List Char}
    (h : ∀ n, cleanChars (applyRelativeChars base (climbing n)) =
      cleanChars (applyRelativeChars other (climbing n))) :
    Path.start (directoryPath? base) = Path.start (directoryPath? other) := by
  -- Far up the scheme and the slashes are seen, and without climbing the segments.
  obtain ⟨above, habove⟩ := exists_ofChars_climbing base (le_max_left _
    (Path.start (directoryPath? other)).segments.length)
  obtain ⟨above', habove'⟩ := exists_ofChars_climbing other (le_max_right
    (Path.start (directoryPath? base)).segments.length _)
  rw [h, habove', Path.mk.injEq] at habove
  obtain ⟨hscheme, hslashes, -⟩ := habove
  have hbeside := h 0
  rw [cleanChars_applyRelative_climbing, cleanChars_applyRelative_climbing] at hbeside
  simp only [Path.toChars, hscheme, hslashes, List.replicate_zero, List.append_nil,
    collapse_of_tidy (tidy_start _), List.append_cancel_left_eq] at hbeside
  have hplain : ∀ base, ∀ s ∈ (Path.start (directoryPath? base)).segments ++ [['x']], '/' ∉ s := by
    intro base s hs
    rcases List.mem_append.mp hs with hs | hs
    · exact plain_start base s hs
    · rw [List.mem_singleton.mp hs]
      decide
  have hfields := congrArg (Text.fields (· = '/')) hbeside
  rw [fields_joinSegments (by simp) (hplain base), fields_joinSegments (by simp) (hplain other),
    List.append_cancel_right_eq] at hfields
  generalize Path.start (directoryPath? base) = p at hscheme hslashes hfields
  generalize Path.start (directoryPath? other) = q at hscheme hslashes hfields
  obtain ⟨_, _, _⟩ := p
  obtain ⟨_, _, _⟩ := q
  rw [Path.mk.injEq]
  exact ⟨hscheme.symm, hslashes.symm, hfields⟩

/-- There is a directory just if it makes no difference whether a slash leads a relative
location. -/
theorem hasSegments?_eq_none_iff (base : List Char) :
    Path.hasSegments? (directoryPath? base) = none ↔
      cleanChars (applyRelativeChars base ['x']) ≠
        cleanChars (applyRelativeChars base ['/', 'x']) := by
  cases hdir : directory? base with
  | none =>
    simp only [Path.hasSegments?, directoryPath?, applyRelativeChars, hdir]
    decide
  | some dir => simp [Path.hasSegments?, directoryPath?, applyRelativeChars, hdir]

/-- There is a directory with segments just if it makes no difference whether a backslash leads a
relative location. -/
theorem hasSegments?_eq_true_iff (base : List Char) :
    Path.hasSegments? (directoryPath? base) = some true ↔
      cleanChars (applyRelativeChars base ['x']) =
        cleanChars (applyRelativeChars base ['\\', 'x']) := by
  cases hdir : directory? base with
  | none =>
    simp only [Path.hasSegments?, directoryPath?, applyRelativeChars, hdir]
    decide
  | some dir =>
    have hx : ['x'].map forwardSlash = ['x'] := by decide
    have hslash : ['\\', 'x'].map forwardSlash = ['/', 'x'] := by decide
    have hbare : applyRelativeChars base ['x'] = dir ++ '/' :: ['x'] := by
      simp [applyRelativeChars, hdir]
    have hback : applyRelativeChars base ['\\', 'x'] = dir ++ '/' :: ['\\', 'x'] := by
      simp [applyRelativeChars, hdir]
    rw [hbare, hback, cleanChars, cleanChars, ofChars_append_slash, ofChars_append_slash, hx,
      hslash, Path.hasSegments?, directoryPath?, hdir]
    simp only [Option.map_some, Option.some.injEq, decide_eq_true_eq, Path.followedBy]
    by_cases hnil : (Path.ofDirectory dir).segments = []
    · -- One more slash is written.
      simp only [hnil, if_true, ne_eq, not_true_eq_false, false_iff]
      intro heq
      have hlength := congrArg List.length heq
      simp [Path.toChars, Text.fields, Text.extendFirst] at hlength
    · have hempty : Text.fields (· = '/') ['/', 'x'] = [[]] ++ [['x']] := by decide
      have hone : Text.fields (· = '/') ['x'] = [['x']] := by decide
      simp only [hnil, if_false, ne_eq, not_false_eq_true, true_iff]
      rw [hempty, hone, ← List.append_assoc, collapse_append (_ ++ [[]]), collapse_concat_empty,
        ← collapse_append]

/-- Resolved locations are the same just if their cleaned texts are. -/
theorem resolveRelative_eq_iff (base other relative : String) :
    resolveRelative base relative = resolveRelative other relative ↔
      cleanChars (applyRelativeChars base.toList relative.toList) =
        cleanChars (applyRelativeChars other.toList relative.toList) := by
  simp only [resolveRelative, clean, applyRelative, String.toList_ofList, String.ofList_inj]

/-- Two bases take relative locations that no slash leads to the same places just if they start from
the same path, and all relative locations just if their directories agree in whether they have
segments besides. -/
theorem resolveRelative_congr_iff (base other : String) :
    ((∀ relative : String, ':' ∉ relative.toList →
        (relative.toList.map forwardSlash).head? ≠ some '/' →
        resolveRelative base relative = resolveRelative other relative) ↔
      Path.start (directoryPath? base.toList) = Path.start (directoryPath? other.toList)) ∧
    ((∀ relative : String, ':' ∉ relative.toList →
        resolveRelative base relative = resolveRelative other relative) ↔
      Path.start (directoryPath? base.toList) = Path.start (directoryPath? other.toList) ∧
        Path.hasSegments? (directoryPath? base.toList) =
          Path.hasSegments? (directoryPath? other.toList)) := by
  simp only [resolveRelative_eq_iff]
  have hstart (h : ∀ relative : String, ':' ∉ relative.toList →
      (relative.toList.map forwardSlash).head? ≠ some '/' →
      cleanChars (applyRelativeChars base.toList relative.toList) =
        cleanChars (applyRelativeChars other.toList relative.toList)) :
      Path.start (directoryPath? base.toList) = Path.start (directoryPath? other.toList) := by
    refine start_eq_of_climbing fun n => ?_
    have hn := h (String.ofList (climbing n))
    rw [String.toList_ofList, map_forwardSlash_climbing] at hn
    exact hn (colon_not_mem_climbing n) (head?_climbing n)
  refine ⟨⟨hstart, fun heq relative hcolon hslash => ?_⟩, fun h => ⟨hstart fun relative hcolon _ =>
    h relative hcolon, ?_⟩, fun ⟨heq, hsegments⟩ relative _ =>
      cleanChars_applyRelative_congr heq hsegments relative.toList⟩
  · rw [cleanChars_applyRelative _ hcolon hslash, cleanChars_applyRelative _ hcolon hslash, heq]
  · have hsame (c : List Char) (hc : ':' ∉ c) : cleanChars (applyRelativeChars base.toList c) =
        cleanChars (applyRelativeChars other.toList c) := by
      have h' := h (String.ofList c)
      rw [String.toList_ofList] at h'
      exact h' hc
    have hnone := hasSegments?_eq_none_iff base.toList
    have htrue := hasSegments?_eq_true_iff base.toList
    rw [hsame _ (by decide), hsame _ (by decide), ← hasSegments?_eq_none_iff] at hnone
    rw [hsame _ (by decide), hsame _ (by decide), ← hasSegments?_eq_true_iff] at htrue
    generalize Path.hasSegments? (directoryPath? base.toList) = a at hnone htrue
    generalize Path.hasSegments? (directoryPath? other.toList) = b at hnone htrue
    rcases a with _ | _ | _ <;> rcases b with _ | _ | _ <;> simp_all

/-! ## Clean bases -/

theorem exists_last_slash (h : '/' ∈ cs) : ∃ dir last, cs = dir ++ '/' :: last ∧ '/' ∉ last := by
  obtain ⟨before, after, heq, hbefore⟩ := List.eq_append_cons_of_mem (List.mem_reverse.mpr h)
  refine ⟨after.reverse, before.reverse, ?_, fun hmem => hbefore (List.mem_reverse.mp hmem)⟩
  rw [← List.reverse_reverse cs, heq]
  simp

/-- The directory of a location is its path up to the last segment, if the last separator is no
backslash. -/
theorem directoryPath?_eq {last : Segment}
    (hsegments : (Path.ofChars base).segments = segments ++ [last])
    (hback : ∀ before after, base = before ++ '\\' :: after → '/' ∈ after) :
    directoryPath? base = if (Path.ofChars base).slashes = 0 ∧ segments = [] then none
      else some { Path.ofChars base with segments } := by
  by_cases hslash : '/' ∈ base
  · obtain ⟨dir, name, rfl, hname⟩ := exists_last_slash hslash
    have hplain : '\\' ∉ name := by
      intro hmem
      obtain ⟨before, after, rfl⟩ := List.append_of_mem hmem
      refine hname (List.mem_append_right _ (List.mem_cons_of_mem _ ?_))
      exact hback (dir ++ '/' :: before) after (by simp)
    have hhead : (name.map forwardSlash).head? ≠ some '/' := by
      rw [map_forwardSlash_of_not_mem hplain]
      exact fun hhead => hname (List.mem_of_mem_head? hhead)
    have hread := ofChars_append_slash dir name
    rw [followedBy_of_head? _ hhead, map_forwardSlash_of_not_mem hplain,
      fields_of_not_mem hname] at hread
    have hinit : (Path.ofDirectory dir).segments = segments := by
      rw [hread] at hsegments
      exact (List.append_inj' hsegments rfl).1
    have hleads := (leads_ofDirectory dir).slash
    rw [hinit] at hleads
    have hcond : ¬((Path.ofDirectory dir).slashes = 0 ∧ segments = []) := fun h =>
      hleads.elim (fun hne => hne h.1) fun hne => hne h.2
    rw [directoryPath?, directory?_append_slash dir hname, hread, if_neg hcond, Option.map_some,
      ← hinit]
  · have hplain : '\\' ∉ base := by
      intro hmem
      obtain ⟨before, after, rfl⟩ := List.append_of_mem hmem
      exact hslash (List.mem_append_right _ (List.mem_cons_of_mem _ (hback before after rfl)))
    have htext := toChars_ofChars base
    rw [map_forwardSlash_of_not_mem hplain, Path.toChars, hsegments,
      joinSegments_append segments (List.cons_ne_nil last [])] at htext
    have hzero : (Path.ofChars base).slashes = 0 := by
      by_contra hne
      refine hslash (htext ▸ List.mem_append_left _ (List.mem_append_right _ ?_))
      exact List.mem_replicate.mpr ⟨hne, rfl⟩
    have hnil : segments = [] := by
      cases segments with
      | nil => rfl
      | cons s segments =>
        refine absurd (htext ▸ List.mem_append_right _ (List.mem_append_left _ ?_)) hslash
        simp
    rw [directoryPath?, directory?_of_not_mem hslash, if_pos ⟨hzero, hnil⟩, Option.map_none]

/-- What is asked of the backslashes of a base holds of a cleaned one, which has none. -/
theorem slash_behind_backslash_cleanChars (base : List Char) :
    ∀ before after, cleanChars base = before ++ '\\' :: after → '/' ∈ after := by
  intro before after heq
  have hmem : '\\' ∈ (cleanChars base).map forwardSlash := by
    rw [map_forwardSlash_cleanChars, heq]
    simp
  exact absurd rfl (ne_backslash_of_mem hmem)

/-- A clean base has the directory that is left of the segments, unless that is nothing or a segment
with a colon came to its front. -/
theorem directoryPath?_cleanChars {last : Segment}
    (hsegments : (Path.ofChars base).segments = segments ++ [last]) (hlast : last.Ordinary)
    (h : ∀ name rest behind, (Path.ofChars base).Exposes name rest behind → behind = []) :
    directoryPath? (cleanChars base) =
      if (Path.ofChars base).slashes = 0 ∧ collapse segments = [] then none
      else some { Path.ofChars base with segments := collapse segments } := by
  have hback := slash_behind_backslash_cleanChars base
  have hleft : collapse (Path.ofChars base).segments = collapse segments ++ [last] := by
    rw [hsegments, collapse_concat _ hlast]
  by_cases hexposed : ∃ name rest behind, (Path.ofChars base).Exposes name rest behind
  · -- The last segment itself is taken apart, but it has no slash.
    obtain ⟨name, rest, behind, hexposes⟩ := hexposed
    obtain rfl := h name rest behind hexposes
    have hnil : collapse segments = [] := by
      have hlength := congrArg List.length (hleft.symm.trans hexposes.left)
      simpa using hlength
    have hread := hexposes.ofChars_cleanChars
    rw [if_neg fun hne => hne.2 rfl] at hread
    have hsingle : (Path.ofChars (cleanChars base)).segments = [] ++ [rest] := by
      rw [hread]
      rfl
    rw [directoryPath?_eq hsingle hback, hread, if_pos ⟨rfl, rfl⟩,
      if_pos ⟨hexposes.slashes, hnil⟩]
  · have hread := ofChars_cleanChars hexposed
    rw [Path.collapsed, hleft, if_neg (by simp)] at hread
    have hclean : (Path.ofChars (cleanChars base)).segments = collapse segments ++ [last] := by
      rw [hread]
    rw [directoryPath?_eq hclean hback, hread]

/-- A directory with a colon that comes to the front is a scheme in the clean base. -/
theorem exists_directoryPath?_cleanChars {name rest : List Char} {behind : List Segment}
    (h : (Path.ofChars base).Exposes name rest behind) (hbehind : behind ≠ []) :
    ∃ p, directoryPath? (cleanChars base) = some p ∧ p.scheme = name ++ [':'] := by
  have hback := slash_behind_backslash_cleanChars base
  have hread := h.ofChars_cleanChars
  obtain ⟨init, last, rfl⟩ := (List.eq_nil_or_concat behind).resolve_left hbehind
  rw [List.concat_eq_append] at hread hbehind
  split at hread
  · have hsegments : (Path.ofChars (cleanChars base)).segments = init ++ [last] := by rw [hread]
    refine ⟨⟨name ++ [':'], 1, init⟩, ?_, rfl⟩
    rw [directoryPath?_eq hsegments hback, hread]
    simp
  · have hsegments : (Path.ofChars (cleanChars base)).segments = (rest :: init) ++ [last] := by
      rw [hread]
      rfl
    refine ⟨⟨name ++ [':'], 0, rest :: init⟩, ?_, rfl⟩
    rw [directoryPath?_eq hsegments hback, hread]
    simp

/-- When a base and the clean base take relative locations to the same places. For every base this
is so just if their directories agree. Let its last segment be a name and let no backslash stand
behind its last slash. Then relative locations that no slash leads get the same place just if the
directory of the base does not collapse to nothing behind a scheme, and does not collapse to
segments with a colon in front that no scheme or slash leads. If a slash may lead them, the
directory must not collapse to nothing in any case. -/
theorem resolveRelative_clean_iff (base : String) :
    ((∀ relative : String, ':' ∉ relative.toList →
        resolveRelative base relative = resolveRelative (clean base) relative) ↔
      Path.start (directoryPath? base.toList) = Path.start (directoryPath? (clean base).toList) ∧
        Path.hasSegments? (directoryPath? base.toList) =
          Path.hasSegments? (directoryPath? (clean base).toList)) ∧
    ∀ segments last, (Path.ofChars base.toList).segments = segments ++ [last] → last.Ordinary →
      (∀ before after, base.toList = before ++ '\\' :: after → '/' ∈ after) →
      ((∀ relative : String, ':' ∉ relative.toList →
          (relative.toList.map forwardSlash).head? ≠ some '/' →
          resolveRelative base relative = resolveRelative (clean base) relative) ↔
        ¬((Path.ofChars base.toList).slashes = 0 ∧ (Path.ofChars base.toList).scheme ≠ [] ∧
          segments ≠ [] ∧ collapse segments = []) ∧
        ¬∃ name rest behind, (Path.ofChars base.toList).Exposes name rest behind ∧ behind ≠ []) ∧
      ((∀ relative : String, ':' ∉ relative.toList →
          resolveRelative base relative = resolveRelative (clean base) relative) ↔
        (segments = [] ∨ collapse segments ≠ []) ∧
        ¬∃ name rest behind, (Path.ofChars base.toList).Exposes name rest behind ∧
          behind ≠ []) := by
  obtain ⟨hunled, hall⟩ := resolveRelative_congr_iff base (clean base)
  refine ⟨hall, fun segments last hsegments hlast hback => ?_⟩
  rw [hunled, hall, clean, String.toList_ofList, directoryPath?_eq hsegments hback]
  by_cases hexposed : ∃ name rest behind,
      (Path.ofChars base.toList).Exposes name rest behind ∧ behind ≠ []
  · -- Only the clean base has a scheme.
    have hne : Path.start (if (Path.ofChars base.toList).slashes = 0 ∧ segments = [] then none
        else some { Path.ofChars base.toList with segments }) ≠
          Path.start (directoryPath? (cleanChars base.toList)) := by
      obtain ⟨name, rest, behind, hexposes, hbehind⟩ := hexposed
      obtain ⟨p, hp, hscheme⟩ := exists_directoryPath?_cleanChars hexposes hbehind
      intro heq
      have hsame := congrArg Path.scheme heq
      rw [hp, Path.start, hscheme] at hsame
      split at hsame <;> simp [Path.start, hexposes.scheme] at hsame
    exact ⟨iff_of_false hne fun h => h.2 hexposed, iff_of_false (fun h => hne h.1) fun h =>
      h.2 hexposed⟩
  · rw [directoryPath?_cleanChars hsegments hlast fun name rest behind h =>
      not_not.mp fun hne => hexposed ⟨name, rest, behind, h, hne⟩]
    have hcollapse : segments = [] → collapse segments = [] := fun h => by rw [h]; rfl
    by_cases hnil : segments = []
    · simp [hnil, hexposed, show collapse ([] : List Segment) = [] from rfl]
    · by_cases hleft : collapse segments = []
      · by_cases hzero : (Path.ofChars base.toList).slashes = 0
        · simp [hnil, hleft, hzero, hexposed, Path.start, Path.hasSegments?]
        · simp [hnil, hleft, hzero, hexposed, Path.start, Path.hasSegments?,
            show collapse ([] : List Segment) = [] from rfl]
      · simp [hnil, hleft, hexposed, Path.start, Path.hasSegments?, collapse_collapse]

theorem resolveRelative_clean_dotted :
    (Path.ofChars "./conf/env/../app.xml".toList).segments =
        ["." , "conf", "env", ".."].map String.toList ++ ["app.xml".toList] ∧
      Segment.Ordinary "app.xml".toList ∧
      resolveRelative "./conf/env/../app.xml" "..\\db.xml" =
        resolveRelative (clean "./conf/env/../app.xml") "..\\db.xml" := by
  have hsegments : (Path.ofChars "./conf/env/../app.xml".toList).segments =
      ["." , "conf", "env", ".."].map String.toList ++ ["app.xml".toList] := by decide
  have hlast : Segment.Ordinary "app.xml".toList := by decide
  have hback : ∀ before after, "./conf/env/../app.xml".toList = before ++ '\\' :: after →
      '/' ∈ after := by
    intro before after heq
    have hmem : '\\' ∈ "./conf/env/../app.xml".toList := by
      rw [heq]
      simp
    exact absurd hmem (by decide)
  have hfirst : ¬∃ name rest behind,
      (Path.ofChars "./conf/env/../app.xml".toList).Exposes name rest behind ∧ behind ≠ [] := by
    rintro ⟨name, rest, behind, h, -⟩
    have hleft : collapse (Path.ofChars "./conf/env/../app.xml".toList).segments =
      ["conf".toList, "app.xml".toList] := by decide
    have hconf := (List.cons.inj (hleft.symm.trans h.left)).1
    have hmem : ':' ∈ "conf".toList := by
      rw [hconf]
      simp
    exact absurd hmem (by decide)
  exact ⟨hsegments, hlast,
    ((resolveRelative_clean_iff "./conf/env/../app.xml").2 _ _ hsegments hlast hback).2.mpr
      ⟨.inr (by decide), hfirst⟩ "..\\db.xml" (by decide)⟩

/-- A backslash is no separator yet where the last segment of the base is replaced. -/
theorem resolveRelative_clean_backslash :
    (Path.ofChars "conf\\app.xml".toList).segments = ["conf".toList, "app.xml".toList] ∧
      clean "conf\\app.xml" = "conf/app.xml" ∧
      resolveRelative "conf\\app.xml" "db.xml" = "db.xml" ∧
      resolveRelative (clean "conf\\app.xml") "db.xml" = "conf/db.xml" := by
  decide

end Blueprint.Location
