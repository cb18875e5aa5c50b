import Blueprint.Environment.Placeholder

/-!
# Scanning for placeholders

What the two scans of `firstPlaceholder?` do at a text without sigils and closing braces, which
they pass (`splitAtOpen_append`, `splitAtClose_append`), and at the braces themselves.
-/

namespace Blueprint.Placeholder

/-- A text without anything that a scan stops at. -/
def Plain (cs : List Char) : Prop := ∀ c ∈ cs, c ≠ sigil ∧ c ≠ closeBrace

instance (cs : List Char) : Decidable (Plain cs) :=
  List.decidableBAll (fun c => c ≠ sigil ∧ c ≠ closeBrace) cs

theorem Plain.of_cons {c : Char} {cs : List Char} (h : Plain (c :: cs)) : Plain cs :=
  fun x hx => h x (List.mem_cons_of_mem c hx)

theorem splitAtOpen_open (cs : List Char) :
    splitAtOpen (sigil :: openBrace :: cs) = some ([], cs) := by
  simp [splitAtOpen]

/-- The search for a sigil with its brace passes a plain text. -/
theorem splitAtOpen_append : ∀ {before : List Char}, Plain before → ∀ (cs : List Char),
    splitAtOpen (before ++ cs) = (splitAtOpen cs).map fun x => (before ++ x.1, x.2)
  | [], _, cs => by simp
  | c :: before, h, cs => by
    have ih := splitAtOpen_append h.of_cons cs
    have hsigil := (h c List.mem_cons_self).1
    rw [List.cons_append]
    cases hcs : before ++ cs with
    | nil =>
      obtain ⟨rfl, rfl⟩ := List.append_eq_nil_iff.mp hcs
      simp [splitAtOpen]
    | cons d ds =>
      rw [hcs] at ih
      simp [splitAtOpen, hsigil, ih, Function.comp_def]

/-- The search for the closing brace passes a plain text at any depth. -/
theorem splitAtClose_append : ∀ {before : List Char}, Plain before → ∀ (depth : Nat)
    (cs : List Char), splitAtClose depth (before ++ cs) =
      (splitAtClose depth cs).map fun x => (before ++ x.1, x.2)
  | [], _, depth, cs => by simp
  | c :: before, h, depth, cs => by
    have ih := splitAtClose_append h.of_cons depth cs
    obtain ⟨hsigil, hclose⟩ := h c List.mem_cons_self
    rw [List.cons_append]
    cases hcs : before ++ cs with
    | nil =>
      obtain ⟨rfl, rfl⟩ := List.append_eq_nil_iff.mp hcs
      simp [splitAtClose, hclose]
    | cons d ds =>
      rw [hcs] at ih
      simp [splitAtClose, hsigil, hclose, ih, Function.comp_def]

/-- A brace that opens makes the search for the closing brace go one deeper. -/
theorem splitAtClose_open (depth : Nat) (cs : List Char) :
    splitAtClose depth (sigil :: openBrace :: cs) =
      (splitAtClose (depth + 1) cs).map fun x => (sigil :: openBrace :: x.1, x.2) := by
  have hne : sigil ≠ closeBrace := by decide
  simp [splitAtClose, hne]

theorem splitAtClose_zero_close (cs : List Char) :
    splitAtClose 0 (closeBrace :: cs) = some ([], cs) := by
  cases cs <;> simp [splitAtClose]

/-- A brace that closes further down brings the search up again. -/
theorem splitAtClose_succ_close (depth : Nat) (cs : List Char) :
    splitAtClose (depth + 1) (closeBrace :: cs) =
      (splitAtClose depth cs).map fun x => (closeBrace :: x.1, x.2) := by
  cases cs <;> simp [splitAtClose]

/-- The first placeholder behind a plain text. -/
theorem firstPlaceholder?_append {before rest inner after : List Char} (hb : Plain before)
    (hr : splitAtClose 0 rest = some (inner, after)) :
    firstPlaceholder? (before ++ sigil :: openBrace :: rest) = some ⟨before, inner, after⟩ := by
  simp [firstPlaceholder?, splitAtOpen_append hb, splitAtOpen_open, hr]

theorem splitAtClose_plain {inner : List Char} (h : Plain inner) (after : List Char) :
    splitAtClose 0 (inner ++ closeBrace :: after) = some (inner, after) := by
  simp [splitAtClose_append h, splitAtClose_zero_close]

theorem firstPlaceholder?_of_plain {cs : List Char} (h : Plain cs) :
    firstPlaceholder? cs = none := by
  have hopen := splitAtOpen_append h []
  rw [List.append_nil] at hopen
  simp [firstPlaceholder?, hopen, splitAtOpen]

end Blueprint.Placeholder
