/-!
# Blank characters

White space in the sense of Unicode's property `White_Space`, which has twenty-five members. A
zero-width space is not one of them. `trim` drops blanks on both ends of a text and keeps the
ones inside; `isBlank` tells whether nothing would be left.
-/

namespace Blueprint.Text

/-- Unicode's `White_Space`. -/
def isBlankChar (c : Char) : Bool :=
  let n := c.toNat
  (9 ≤ n && n ≤ 13) || n == 0x20 || n == 0x85 || n == 0xa0 || n == 0x1680 ||
    (0x2000 ≤ n && n ≤ 0x200a) || n == 0x2028 || n == 0x2029 || n == 0x202f || n == 0x205f ||
    n == 0x3000

/-- The characters without the blanks at the start. -/
def trimStart (cs : List Char) : List Char := cs.dropWhile isBlankChar

/-- The characters without the blanks at the end. -/
def trimEnd (cs : List Char) : List Char := (trimStart cs.reverse).reverse

/-- The text without the blanks on its two ends. -/
def trim (s : String) : String := String.ofList (trimEnd (trimStart s.toList))

/-- Every character is blank. -/
def isBlank (s : String) : Bool := s.toList.all isBlankChar

theorem trimStart_eq_nil_iff {cs : List Char} :
    trimStart cs = [] ↔ cs.all isBlankChar = true := by
  induction cs with
  | nil => simp [trimStart]
  | cons c cs ih =>
    by_cases h : isBlankChar c = true
    · simp only [trimStart, List.dropWhile_cons, h, if_true, List.all_cons, Bool.true_and] at ih ⊢
      exact ih
    · simp [trimStart, h]

theorem trimEnd_eq_nil_iff {cs : List Char} :
    trimEnd cs = [] ↔ cs.all isBlankChar = true := by
  simp [trimEnd, trimStart_eq_nil_iff]

theorem all_trimStart {cs : List Char} :
    (trimStart cs).all isBlankChar = cs.all isBlankChar := by
  induction cs with
  | nil => rfl
  | cons c cs ih =>
    by_cases h : isBlankChar c = true
    · simp only [trimStart, List.dropWhile_cons, h, if_true, List.all_cons, Bool.true_and] at ih ⊢
      exact ih
    · simp [trimStart, h]

theorem all_trimEnd {cs : List Char} : (trimEnd cs).all isBlankChar = cs.all isBlankChar := by
  rw [trimEnd, List.all_reverse, all_trimStart, List.all_reverse]

/-- What is left is blank only if all of the text is. -/
theorem isBlank_trim (s : String) : isBlank (trim s) = isBlank s := by
  rw [isBlank, trim, String.toList_ofList, all_trimEnd, all_trimStart, isBlank]

/-- Nothing is left of a text exactly if all of it is blank. -/
theorem trim_eq_empty_iff {s : String} : trim s = "" ↔ isBlank s = true := by
  have h : trim s = "" ↔ trimEnd (trimStart s.toList) = [] := by
    simp [trim, String.ext_iff]
  rw [h, trimEnd_eq_nil_iff, all_trimStart, isBlank]

/-- Where no blank stands at the start, nothing is dropped there. -/
theorem trimStart_eq_self {cs : List Char} (h : ∀ c ∈ cs.head?, isBlankChar c = false) :
    trimStart cs = cs := by
  cases cs with
  | nil => rfl
  | cons c cs => simp [trimStart, h c rfl]

theorem head?_trimStart (cs : List Char) : ∀ c ∈ (trimStart cs).head?, isBlankChar c = false := by
  induction cs with
  | nil => simp [trimStart]
  | cons c cs ih =>
    by_cases h : isBlankChar c = true
    · simpa only [trimStart, List.dropWhile_cons, h, if_true] using ih
    · simp [trimStart, h]

theorem trimEnd_prefix (cs : List Char) : trimEnd cs <+: cs := by
  rw [← List.reverse_suffix, trimEnd, List.reverse_reverse]
  exact List.dropWhile_suffix _

/-- What was trimmed has no blanks on its ends. -/
@[simp] theorem trim_trim (s : String) : trim (trim s) = trim s := by
  have hstart : trimStart (trimEnd (trimStart s.toList)) = trimEnd (trimStart s.toList) := by
    refine trimStart_eq_self fun c hc => head?_trimStart s.toList c ?_
    obtain ⟨rest, hrest⟩ := trimEnd_prefix (trimStart s.toList)
    rw [← hrest, List.head?_append, Option.mem_def.mp hc]
    rfl
  have hend : trimEnd (trimEnd (trimStart s.toList)) = trimEnd (trimStart s.toList) := by
    rw [trimEnd, trimEnd, List.reverse_reverse, trimStart_eq_self (head?_trimStart _)]
  rw [trim, trim, String.toList_ofList, hstart, hend]

end Blueprint.Text
