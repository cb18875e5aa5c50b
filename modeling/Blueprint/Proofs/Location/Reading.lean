import Blueprint.Proofs.Location.Collapse
import Mathlib.Data.List.TakeWhile

/-!
# Reading and writing locations

A path is `Readable` if every part of it is found again in its text : the scheme is one, no slash
that leads the rest is left in the segments, and without a scheme and such slashes there is no
colon in the first segment. Every location is read as a readable path, and a readable path is the
only one that its text is read as (`ofChars_eq_iff`).

A text in front of a slash is a path as well, one that `Leads` what comes behind the slash : it is
found again in every text that starts with it (`ofChars_append_slash`).
-/

namespace Blueprint.Location

variable {cs name rest : List Char} {c : Char} {s : Segment} {segments more : List Segment}

/-! ## Segments -/

theorem joinSegments_cons (s : Segment) (h : segments ≠ []) :
    joinSegments (s :: segments) = s ++ '/' :: joinSegments segments := by
  cases segments with
  | nil => exact absurd rfl h
  | cons t ts => rfl

/-- In front of other segments every segment is followed by a slash. -/
theorem joinSegments_append (segments : List Segment) (h : more ≠ []) :
    joinSegments (segments ++ more) = segments.flatMap (· ++ ['/']) ++ joinSegments more := by
  induction segments with
  | nil => rfl
  | cons s segments ih =>
    rw [List.cons_append, joinSegments_cons s (List.append_ne_nil_of_right_ne_nil _ h), ih]
    simp

/-- The fields of a text are joined to the text. -/
theorem joinSegments_fields (cs : List Char) :
    joinSegments (Text.fields (· = '/') cs) = cs := by
  induction cs with
  | nil => rfl
  | cons c cs ih =>
    have hne := Text.fields_ne_nil (· = '/') cs
    by_cases hc : c = '/'
    · simp only [Text.fields, hc, decide_true, if_true]
      rw [joinSegments_cons _ hne, ih, List.nil_append]
    · simp only [Text.fields, hc, decide_false, Bool.false_eq_true, if_false]
      cases hfields : Text.fields (· = '/') cs with
      | nil => exact absurd hfields hne
      | cons f fs =>
        rw [hfields] at ih
        cases fs with
        | nil => exact congrArg (c :: ·) ih
        | cons g gs => exact congrArg (c :: ·) ih

/-- A text without a slash is one field. -/
theorem fields_of_not_mem (h : '/' ∉ s) : Text.fields (· = '/') s = [s] := by
  induction s with
  | nil => rfl
  | cons c s ih =>
    rw [List.mem_cons, not_or] at h
    simp [Text.fields, Ne.symm h.1, ih h.2, Text.extendFirst]

/-- What stands in front of the first slash is the first field. -/
theorem fields_append_slash (h : '/' ∉ s) (cs : List Char) :
    Text.fields (· = '/') (s ++ '/' :: cs) = s :: Text.fields (· = '/') cs := by
  induction s with
  | nil => simp [Text.fields]
  | cons c s ih =>
    rw [List.mem_cons, not_or] at h
    simp [Text.fields, Ne.symm h.1, ih h.2, Text.extendFirst]

/-- Segments without slashes are the fields of the text they are joined to. -/
theorem fields_joinSegments (hne : segments ≠ []) (h : ∀ s ∈ segments, '/' ∉ s) :
    Text.fields (· = '/') (joinSegments segments) = segments := by
  induction segments with
  | nil => exact absurd rfl hne
  | cons s segments ih =>
    have hs := h s List.mem_cons_self
    cases segments with
    | nil => exact fields_of_not_mem hs
    | cons t ts =>
      rw [joinSegments_cons s (List.cons_ne_nil t ts), fields_append_slash hs,
        ih (List.cons_ne_nil t ts) fun s hs => h s (List.mem_cons_of_mem _ hs)]

/-- The first segment is empty only if a slash leads the text or there is nothing else. -/
theorem fields_eq_of_head? (h : cs.head? ≠ some '/')
    (hfirst : (Text.fields (· = '/') cs).head? = some []) : Text.fields (· = '/') cs = [[]] := by
  cases cs with
  | nil => rfl
  | cons c cs =>
    have hc : c ≠ '/' := fun heq => h (by rw [heq]; rfl)
    simp only [Text.fields, hc, decide_false, Bool.false_eq_true, if_false] at hfirst
    cases hfields : Text.fields (· = '/') cs <;> simp [hfields, Text.extendFirst] at hfirst

theorem not_slash_of_mem_fields (h : s ∈ Text.fields (· = '/') cs) : '/' ∉ s := by
  intro hs
  have := Text.not_isSeparator_of_mem_fields h '/' hs
  simp at this

/-- Joined segments hold slashes and what is in the segments. -/
theorem mem_joinSegments (h : c ∈ joinSegments segments) : c = '/' ∨ ∃ s ∈ segments, c ∈ s := by
  induction segments with
  | nil => cases h
  | cons s segments ih =>
    cases segments with
    | nil => exact .inr ⟨s, List.mem_cons_self, h⟩
    | cons t ts =>
      rw [joinSegments_cons s (List.cons_ne_nil t ts), List.mem_append, List.mem_cons] at h
      rcases h with h | h | h
      · exact .inr ⟨s, List.mem_cons_self, h⟩
      · exact .inl h
      · exact (ih h).imp_right fun ⟨u, hu, hc⟩ => ⟨u, List.mem_cons_of_mem _ hu, hc⟩

/-- What is in a segment is in the text of it. -/
theorem mem_joinSegments_of_mem (hs : s ∈ segments) (hc : c ∈ s) : c ∈ joinSegments segments := by
  obtain ⟨before, after, rfl⟩ := List.append_of_mem hs
  rw [joinSegments_append before (List.cons_ne_nil s after)]
  refine List.mem_append_right _ ?_
  cases after with
  | nil => exact hc
  | cons t ts =>
    rw [joinSegments_cons s (List.cons_ne_nil t ts)]
    exact List.mem_append_left _ hc

/-! ## Readable paths -/

/-- A path of which every part is found again in its text. -/
structure Path.Readable (p : Path) : Prop where
  scheme : p.scheme = [] ∨ ∃ name, p.scheme = name ++ [':'] ∧ ':' ∉ name ∧ '/' ∉ name
  segments : p.segments ≠ []
  plain : ∀ s ∈ p.segments, '/' ∉ s
  /-- All slashes that lead the rest are counted. -/
  first : p.segments.head? = some [] → p.segments = [[]]
  /-- The first segment does not look like a scheme. -/
  colon : p.scheme = [] → p.slashes = 0 → ∀ s, p.segments.head? = some s → ':' ∉ s

theorem ne_backslash_of_mem (h : c ∈ cs.map forwardSlash) : c ≠ '\\' := by
  obtain ⟨d, -, rfl⟩ := List.mem_map.mp h
  by_cases hd : d = '\\' <;> simp [forwardSlash, hd]

/-- A text without backslashes stays as it is. -/
theorem map_forwardSlash_of_not_mem (h : '\\' ∉ cs) : cs.map forwardSlash = cs := by
  have hall : ∀ c ∈ cs, forwardSlash c = c := by
    intro c hc
    have hne : c ≠ '\\' := fun heq => h (heq ▸ hc)
    simp [forwardSlash, hne]
  rw [List.map_congr_left hall, List.map_id']

/-- A text without a colon has no scheme. -/
theorem splitScheme_of_not_mem (h : ':' ∉ cs) : splitScheme cs = ([], cs) := by
  have hall : cs.dropWhile (fun c => c ≠ ':') = [] := by
    rw [List.dropWhile_eq_nil_iff]
    intro c hc
    have hne : c ≠ ':' := fun heq => h (heq ▸ hc)
    simpa using hne
  simp only [splitScheme, hall]

/-- The first colon is found where it is put. -/
theorem cut_at_colon (h : ':' ∉ name) (rest : List Char) :
    (name ++ ':' :: rest).takeWhile (fun c => c ≠ ':') = name ∧
      (name ++ ':' :: rest).dropWhile (fun c => c ≠ ':') = ':' :: rest := by
  have hname : ∀ c ∈ name, decide (c ≠ ':') = true := by
    intro c hc
    have hne : c ≠ ':' := fun heq => h (heq ▸ hc)
    simpa using hne
  rw [List.takeWhile_append_of_pos hname, List.dropWhile_append_of_pos hname]
  simp

/-- What stands up to the first colon is the scheme, unless it holds a slash. -/
theorem splitScheme_append_colon (h : ':' ∉ name) (rest : List Char) :
    splitScheme (name ++ ':' :: rest) =
      if '/' ∈ name then ([], name ++ ':' :: rest) else (name ++ [':'], rest) := by
  simp only [splitScheme, (cut_at_colon h rest).1, (cut_at_colon h rest).2,
    List.contains_iff_mem]

/-- The scheme ends in the first colon, if no slash is before that. -/
theorem splitScheme_spec (cs : List Char) : (splitScheme cs).1 ++ (splitScheme cs).2 = cs ∧
    (((splitScheme cs).1 = [] ∧ ∀ name rest, cs = name ++ ':' :: rest → ':' ∉ name → '/' ∈ name) ∨
      ∃ name, (splitScheme cs).1 = name ++ [':'] ∧ ':' ∉ name ∧ '/' ∉ name) := by
  by_cases hcolon : ':' ∈ cs
  · obtain ⟨name, rest, rfl, hname⟩ := List.eq_append_cons_of_mem hcolon
    rw [splitScheme_append_colon hname]
    split
    · rename_i hslash
      refine ⟨rfl, .inl ⟨rfl, fun name' rest' heq hname' => ?_⟩⟩
      have hsame := (cut_at_colon hname rest).1
      rw [heq, (cut_at_colon hname' rest').1] at hsame
      exact hsame ▸ hslash
    · rename_i hslash
      exact ⟨by simp, .inr ⟨name, rfl, hname, hslash⟩⟩
  · rw [splitScheme_of_not_mem hcolon]
    exact ⟨rfl, .inl ⟨rfl, fun name rest heq => absurd (by simp [heq]) hcolon⟩⟩

/-- The slashes that lead a text are cut off as they were put there. -/
theorem cut_at_slashes (n : Nat) (h : rest.head? ≠ some '/') :
    (List.replicate n '/' ++ rest).takeWhile (· = '/') = List.replicate n '/' ∧
      (List.replicate n '/' ++ rest).dropWhile (· = '/') = rest := by
  have hall : ∀ c ∈ List.replicate n '/', decide (c = '/') = true := by
    intro c hc
    simp [List.eq_of_mem_replicate hc]
  rw [List.takeWhile_append_of_pos hall, List.dropWhile_append_of_pos hall]
  cases rest with
  | nil => simp
  | cons c cs =>
    have hc : c ≠ '/' := fun heq => h (by simp [heq])
    simp [hc]

/-- The text of some segments starts with the first one, which ends there or at a slash. -/
theorem exists_joinSegments_eq (s : Segment) (segments : List Segment) :
    ∃ tail, joinSegments (s :: segments) = s ++ tail ∧ (tail = [] ∨ tail.head? = some '/') := by
  cases segments with
  | nil => exact ⟨[], by simp [joinSegments], .inl rfl⟩
  | cons t ts =>
    exact ⟨_, joinSegments_cons s (List.cons_ne_nil t ts), .inr rfl⟩

/-- What is in front of a colon without a slash before it belongs to the first segment. -/
theorem mem_of_joinSegments_eq (hs : '/' ∉ s) (hname : '/' ∉ name)
    (h : joinSegments (s :: segments) = name ++ ':' :: rest) : ':' ∈ s := by
  obtain ⟨tail, htail, hend⟩ := exists_joinSegments_eq s segments
  rw [htail] at h
  have plain : ∀ {l : List Char}, '/' ∉ l → ∀ c ∈ l, decide (c ≠ '/') = true := by
    intro l hl c hc
    have hne : c ≠ '/' := fun heq => hl (heq ▸ hc)
    simpa using hne
  have hcut := congrArg (List.takeWhile fun c => c ≠ '/') h
  rw [List.takeWhile_append_of_pos (plain hs), List.takeWhile_append_of_pos (plain hname)] at hcut
  have htail : tail.takeWhile (fun c => c ≠ '/') = [] := by
    rcases hend with rfl | hhead
    · rfl
    · obtain ⟨ys, rfl⟩ := List.head?_eq_some_iff.mp hhead
      simp
  rw [htail, List.append_nil] at hcut
  simp [hcut]

/-- A path that was read is written as it was read, with slashes for backslashes. -/
theorem toChars_ofChars (cs : List Char) : (Path.ofChars cs).toChars = cs.map forwardSlash := by
  have hsplit := (splitScheme_spec (cs.map forwardSlash)).1
  rcases hrest : splitScheme (cs.map forwardSlash) with ⟨scheme, rest⟩
  rw [hrest] at hsplit
  have hleading := List.eq_replicate_of_mem (a := '/') (l := rest.takeWhile (· = '/'))
    fun c hc => by simpa using List.mem_takeWhile_imp hc
  simp only [Path.ofChars, Path.toChars, hrest, joinSegments_fields, ← hleading,
    List.append_assoc, List.takeWhile_append_dropWhile]
  exact hsplit

/-- Every location is read as a readable path. -/
theorem readable_ofChars (cs : List Char) : (Path.ofChars cs).Readable := by
  obtain ⟨hsplit, hscheme⟩ := splitScheme_spec (cs.map forwardSlash)
  have htext := toChars_ofChars cs
  have hplain : ∀ s ∈ (Path.ofChars cs).segments, '/' ∉ s := fun s => not_slash_of_mem_fields
  refine ⟨hscheme.imp_left And.left, Text.fields_ne_nil _ _, hplain, fun hfirst => ?_,
    fun hnone hzero s hs hcolon => ?_⟩
  · have hbody : ((splitScheme (cs.map forwardSlash)).2.dropWhile (· = '/')).head? ≠
        some '/' := by
      intro hslash
      have hhead := List.head?_dropWhile_not (fun c => decide (c = '/'))
        (splitScheme (cs.map forwardSlash)).2
      simp [hslash] at hhead
    exact fields_eq_of_head? hbody hfirst
  · obtain ⟨more, hmore⟩ := List.head?_eq_some_iff.mp hs
    obtain ⟨name, rest, rfl, hname⟩ := List.eq_append_cons_of_mem hcolon
    obtain ⟨tail, htail, -⟩ := exists_joinSegments_eq (name ++ ':' :: rest) more
    have hslash : '/' ∉ name := fun h => hplain _ (hmore ▸ List.mem_cons_self)
      (List.mem_append_left _ h)
    simp only [Path.toChars, hnone, hzero, hmore, htail, List.replicate_zero,
      List.nil_append] at htext
    rcases hscheme with ⟨-, hnone'⟩ | ⟨name', hscheme, -⟩
    · exact hslash (hnone' name (rest ++ tail) (by rw [← htext]; simp) hname)
    · have hnil : (splitScheme (cs.map forwardSlash)).1 = [] := hnone
      simp [hscheme] at hnil

/-- A readable path is what its text is read as. -/
theorem Path.Readable.ofChars_eq {p : Path} (hp : p.Readable)
    (h : cs.map forwardSlash = p.toChars) : Path.ofChars cs = p := by
  obtain ⟨s, more, hsegments⟩ := List.exists_cons_of_ne_nil hp.segments
  have hs : '/' ∉ s := hp.plain s (hsegments ▸ List.mem_cons_self)
  obtain ⟨tail, htail, -⟩ := exists_joinSegments_eq s more
  have hsplit : splitScheme p.toChars =
      (p.scheme, List.replicate p.slashes '/' ++ joinSegments p.segments) := by
    rcases hp.scheme with hnone | ⟨name, hscheme, hname, hslash⟩
    · obtain ⟨hparts, ⟨hnil, -⟩ | ⟨name, hscheme, -, hslash⟩⟩ := splitScheme_spec p.toChars
      · rw [hnil, List.nil_append] at hparts
        refine Prod.ext (hnil.trans hnone.symm) (hparts.trans ?_)
        simp [Path.toChars, hnone]
      · -- A slash or the first segment would have to hold the colon.
        exfalso
        rw [hscheme, Path.toChars, hnone, List.nil_append, List.append_assoc,
          List.singleton_append] at hparts
        cases hk : p.slashes with
        | zero =>
          rw [hk, List.replicate_zero, List.nil_append, hsegments] at hparts
          exact hp.colon hnone hk s (by rw [hsegments]; rfl)
            (mem_of_joinSegments_eq hs hslash hparts.symm)
        | succ k =>
          rw [hk, List.replicate_succ, List.cons_append] at hparts
          cases name with
          | nil => simp at hparts
          | cons c name =>
            obtain ⟨rfl, -⟩ := List.cons.inj hparts
            exact hslash List.mem_cons_self
    · rw [Path.toChars, hscheme, List.append_assoc, List.append_assoc, List.singleton_append,
        splitScheme_append_colon hname, if_neg hslash]
  have hhead : (joinSegments p.segments).head? ≠ some '/' := by
    cases s with
    | nil =>
      rw [hp.first (by rw [hsegments]; rfl)]
      simp [joinSegments]
    | cons c s =>
      rw [List.mem_cons, not_or] at hs
      rw [hsegments, htail, List.cons_append, List.head?_cons]
      exact fun heq => hs.1 (Option.some.inj heq).symm
  obtain ⟨hleading, hbody⟩ := cut_at_slashes p.slashes hhead
  rw [Path.ofChars, h, hsplit]
  simp only [hleading, hbody, List.length_replicate, fields_joinSegments hp.segments hp.plain]

/-- A location is read as a path just if the path is readable and written with the same text. -/
theorem ofChars_eq_iff {p : Path} :
    Path.ofChars cs = p ↔ p.Readable ∧ cs.map forwardSlash = p.toChars :=
  ⟨fun h => h ▸ ⟨readable_ofChars cs, (toChars_ofChars cs).symm⟩, fun ⟨hp, h⟩ => hp.ofChars_eq h⟩

/-! ## Directories -/

/-- A text in front of a slash, as a path. -/
def Path.ofDirectory (dir : List Char) : Path :=
  let p := Path.ofChars (dir ++ ['/'])
  { p with segments := p.segments.dropLast }

/-- The text of a path, with a slash behind every segment. -/
def Path.toDirectory (p : Path) : List Char :=
  p.scheme ++ List.replicate p.slashes '/' ++ p.segments.flatMap (· ++ ['/'])

theorem toChars_append (p : Path) (h : more ≠ []) :
    Path.toChars { p with segments := p.segments ++ more } =
      p.toDirectory ++ joinSegments more := by
  simp [Path.toChars, Path.toDirectory, joinSegments_append p.segments h]

/-- The last segment of a text that ends in a slash is empty. -/
theorem ofChars_slash (dir : List Char) : Path.ofChars (dir ++ ['/']) =
    { Path.ofDirectory dir with segments := (Path.ofDirectory dir).segments ++ [[]] } := by
  have hread := readable_ofChars (dir ++ ['/'])
  obtain ⟨segments, last, hsegments⟩ := (List.eq_nil_or_concat _).resolve_left hread.segments
  have htext := toChars_ofChars (dir ++ ['/'])
  rw [List.concat_eq_append] at hsegments
  rw [Path.toChars, hsegments, joinSegments_append _ (List.cons_ne_nil last []),
    List.map_append] at htext
  have hlast : last = [] := by
    rcases List.eq_nil_or_concat last with rfl | ⟨init, c, rfl⟩
    · rfl
    · have hend := congrArg List.getLast? htext
      have hc := hread.plain (init ++ [c]) (by rw [hsegments]; simp)
      have hslash : c = '/' := by simpa [joinSegments, ← List.append_assoc, forwardSlash] using hend
      simp [hslash] at hc
  rw [hlast] at hsegments
  simp only [Path.ofDirectory, hsegments, List.dropLast_concat]
  rw [← hsegments]

/-- A text in front of a slash is written again with a slash behind every segment. -/
theorem toDirectory_ofDirectory (dir : List Char) :
    (Path.ofDirectory dir).toDirectory = dir.map forwardSlash ++ ['/'] := by
  have htext := toChars_ofChars (dir ++ ['/'])
  rw [ofChars_slash, toChars_append _ (List.cons_ne_nil [] []), List.map_append] at htext
  simpa [joinSegments, forwardSlash] using htext

/-- A path that is found again in every text that it is in front of : its own text ends in a
slash. -/
structure Path.Leads (p : Path) : Prop where
  scheme : p.scheme = [] ∨ ∃ name, p.scheme = name ++ [':'] ∧ ':' ∉ name ∧ '/' ∉ name
  slash : p.slashes ≠ 0 ∨ p.segments ≠ []
  plain : ∀ s ∈ p.segments, '/' ∉ s
  first : p.segments.head? ≠ some []
  colon : p.scheme = [] → p.slashes = 0 → ∀ s, p.segments.head? = some s → ':' ∉ s

/-- Slashes that follow a path without segments count as leading ones. -/
theorem Path.Leads.readable {p : Path} (hp : p.Leads) (h : p.segments = [] → cs.head? ≠ some '/') :
    Path.Readable { p with segments := p.segments ++ Text.fields (· = '/') cs } := by
  have hne := Text.fields_ne_nil (· = '/') cs
  refine ⟨hp.scheme, List.append_ne_nil_of_right_ne_nil _ hne, fun s hs => ?_, fun hhead => ?_,
    fun hnone hzero s hs => ?_⟩
  · exact (List.mem_append.mp hs).elim (hp.plain s) not_slash_of_mem_fields
  · cases hsegments : p.segments with
    | nil =>
      simp only [hsegments, List.nil_append] at hhead ⊢
      exact fields_eq_of_head? (h hsegments) hhead
    | cons t ts =>
      refine absurd ?_ hp.first
      simpa [hsegments] using hhead
  · cases hsegments : p.segments with
    | nil => exact absurd hsegments (hp.slash.resolve_left (not_not.mpr hzero))
    | cons t ts => exact hp.colon hnone hzero s (by simpa [hsegments] using hs)

/-- A text in front of a slash leads what comes behind it. -/
theorem leads_ofDirectory (dir : List Char) : (Path.ofDirectory dir).Leads := by
  have hread := readable_ofChars (dir ++ ['/'])
  have htext := toDirectory_ofDirectory dir
  rw [ofChars_slash] at hread
  generalize Path.ofDirectory dir = p at hread htext ⊢
  have hhead : ∀ s, p.segments.head? = some s → (p.segments ++ [[]]).head? = some s := by
    intro s hs
    rw [List.head?_append, hs, Option.some_or]
  refine ⟨hread.scheme, ?_, fun s hs => hread.plain s (List.mem_append_left _ hs), fun hempty => ?_,
    fun hnone hzero s hs => hread.colon hnone hzero s (hhead s hs)⟩
  · by_contra hbare
    rw [not_or, not_not, not_not] at hbare
    rw [Path.toDirectory, hbare.1, hbare.2] at htext
    rcases hread.scheme with hnone | ⟨name, hname, -⟩
    · simp [show p.scheme = [] from hnone] at htext
    · have hend := congrArg List.getLast? htext
      simp [show p.scheme = name ++ [':'] from hname] at hend
  · have hsingle : p.segments ++ [[]] = [[]] := hread.first (hhead [] hempty)
    have hnil : p.segments = [] := List.append_left_eq_self.mp hsingle
    simp [hnil] at hempty

/-- The path of a text that stands behind the slash of a directory. -/
def Path.followedBy (p : Path) (cs : List Char) : Path :=
  if p.segments = [] then
    { p with
      slashes := p.slashes + (cs.takeWhile (· = '/')).length
      segments := Text.fields (· = '/') (cs.dropWhile (· = '/')) }
  else { p with segments := p.segments ++ Text.fields (· = '/') cs }

/-- No slash of the text behind a directory is lost if none leads it. -/
theorem followedBy_of_head? (p : Path) (h : cs.head? ≠ some '/') :
    p.followedBy cs = { p with segments := p.segments ++ Text.fields (· = '/') cs } := by
  obtain ⟨hleading, hbody⟩ := cut_at_slashes 0 h
  rw [List.replicate_zero, List.nil_append] at hleading hbody
  unfold Path.followedBy
  split
  · rename_i hnil
    simp only [hleading, hbody, hnil, List.length_nil, Nat.add_zero, List.nil_append]
  · rfl

/-- Behind a slash a text is read as segments, whatever colons are in it. -/
theorem ofChars_append_slash (dir cs : List Char) :
    Path.ofChars (dir ++ '/' :: cs) = (Path.ofDirectory dir).followedBy (cs.map forwardSlash) := by
  have hleads := leads_ofDirectory dir
  have htext : (dir ++ '/' :: cs).map forwardSlash =
      (Path.ofDirectory dir).toDirectory ++ cs.map forwardSlash := by
    rw [toDirectory_ofDirectory]
    simp [forwardSlash]
  rw [Path.followedBy]
  generalize Path.ofDirectory dir = p at hleads htext ⊢
  generalize cs.map forwardSlash = cs' at htext ⊢
  split
  · -- The slashes in front of the text continue those of the directory.
    rename_i hnil
    have hmore : Path.Leads { p with slashes := p.slashes + (cs'.takeWhile (· = '/')).length } :=
      ⟨hleads.scheme,
        .inl (Nat.ne_of_gt (Nat.add_pos_left (Nat.pos_of_ne_zero
          (hleads.slash.resolve_right (not_not.mpr hnil))) _)),
        hleads.plain, hleads.first, fun _ _ s hs => by simp [hnil] at hs⟩
    have hbody : (cs'.dropWhile (· = '/')).head? ≠ some '/' := by
      intro hslash
      have hhead := List.head?_dropWhile_not (fun c => decide (c = '/')) cs'
      simp [hslash] at hhead
    have hleading := List.eq_replicate_of_mem (a := '/') (l := cs'.takeWhile (· = '/'))
      fun c hc => by simpa using List.mem_takeWhile_imp hc
    have hread := hmore.readable fun _ => hbody
    simp only [hnil, List.nil_append] at hread
    refine hread.ofChars_eq (htext.trans ?_)
    simp only [Path.toDirectory, Path.toChars, hnil, joinSegments_fields, List.flatMap_nil,
      List.append_nil, ← List.replicate_append_replicate, ← hleading, List.append_assoc,
      List.takeWhile_append_dropWhile]
  · rename_i hsome
    refine (hleads.readable fun hnil => absurd hnil hsome).ofChars_eq (htext.trans ?_)
    rw [toChars_append _ (Text.fields_ne_nil _ _), joinSegments_fields]

end Blueprint.Location
