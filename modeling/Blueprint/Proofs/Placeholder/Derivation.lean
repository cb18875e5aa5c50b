import Blueprint.Environment.Placeholder

/-!
# Resolutions that end

`Resolves` derives the answer of a resolution step by step. There is one rule for every way in
which `Mode.resolveFrom` goes on at the first placeholder of a text, so it has an answer just
if one is derived, and that one (`resolveFrom_eq_some_iff`). What holds of the answers is then
proved by induction on their derivations.
-/

namespace Blueprint.Placeholder

/-- What stands between the braces. -/
def Cut.placeholder (cut : Cut) : String := String.ofList cut.inner

/-- The resolution of a text has an answer. -/
inductive Resolves (mode : Mode) (lookup : String → Option String) :
    (visiting : List String) → (whole : String) → (cs : List Char) →
      Except Unresolved (List Char) → Prop
  /-- A text without placeholders is its own answer. -/
  | plain {visiting whole cs} (found : firstPlaceholder? cs = none) :
    Resolves mode lookup visiting whole cs (.ok cs)
  /-- The placeholder is being resolved already. -/
  | repeated {visiting whole cs cut} (found : firstPlaceholder? cs = some cut)
    (met : cut.placeholder ∈ visiting) :
    Resolves mode lookup visiting whole cs (.error ⟨cut.placeholder, whole⟩)
  | keyError {visiting whole cs cut e} (found : firstPlaceholder? cs = some cut)
    (new : cut.placeholder ∉ visiting)
    (key : Resolves mode lookup (cut.placeholder :: visiting) cut.placeholder cut.inner
      (.error e)) :
    Resolves mode lookup visiting whole cs (.error e)
  | valueError {visiting whole cs cut keyText value e} (found : firstPlaceholder? cs = some cut)
    (new : cut.placeholder ∉ visiting)
    (key : Resolves mode lookup (cut.placeholder :: visiting) cut.placeholder cut.inner
      (.ok keyText))
    (known : valueOf lookup (String.ofList keyText) = some value)
    (inner : Resolves mode lookup (cut.placeholder :: visiting) value value.toList (.error e)) :
    Resolves mode lookup visiting whole cs (.error e)
  | replaced {visiting whole cs cut keyText value text rest}
    (found : firstPlaceholder? cs = some cut) (new : cut.placeholder ∉ visiting)
    (key : Resolves mode lookup (cut.placeholder :: visiting) cut.placeholder cut.inner
      (.ok keyText))
    (known : valueOf lookup (String.ofList keyText) = some value)
    (inner : Resolves mode lookup (cut.placeholder :: visiting) value value.toList (.ok text))
    (behind : Resolves mode lookup visiting whole cut.after rest) :
    Resolves mode lookup visiting whole cs (rest.map fun after => cut.before ++ text ++ after)
  /-- There has to be a value, and there is none. -/
  | missing {visiting whole cs cut keyText} (required : mode = .required)
    (found : firstPlaceholder? cs = some cut) (new : cut.placeholder ∉ visiting)
    (key : Resolves mode lookup (cut.placeholder :: visiting) cut.placeholder cut.inner
      (.ok keyText))
    (unknown : valueOf lookup (String.ofList keyText) = none) :
    Resolves mode lookup visiting whole cs (.error ⟨String.ofList keyText, whole⟩)
  /-- There is no value, and the placeholder stays. -/
  | kept {visiting whole cs cut keyText rest} (lenient : mode = .lenient)
    (found : firstPlaceholder? cs = some cut) (new : cut.placeholder ∉ visiting)
    (key : Resolves mode lookup (cut.placeholder :: visiting) cut.placeholder cut.inner
      (.ok keyText))
    (unknown : valueOf lookup (String.ofList keyText) = none)
    (behind : Resolves mode lookup visiting whole cut.after rest) :
    Resolves mode lookup visiting whole cs
      (rest.map fun after => cut.before ++ sigil :: openBrace :: cut.inner ++ closeBrace :: after)

variable {mode : Mode} {lookup : String → Option String} {visiting : List String} {whole : String}
  {cs : List Char} {r r' : Except Unresolved (List Char)}

/-- An answer is derived along the recursion that finds it. -/
theorem resolves_of_resolveFrom (h : mode.resolveFrom lookup visiting whole cs = some r) :
    Resolves mode lookup visiting whole cs r := by
  refine Mode.resolveFrom.partial_correctness mode lookup (Resolves mode lookup) ?_ _ _ _ _ h
  intro resolve ih visiting whole cs r h
  cases found : firstPlaceholder? cs with
  | none =>
    simp only [found, Option.pure_def, Option.some.injEq] at h
    exact h ▸ .plain found
  | some cut =>
    simp only [found, Option.pure_def, Option.bind_eq_bind] at h
    by_cases met : cut.placeholder ∈ visiting
    · have met' : visiting.contains (String.ofList cut.inner) = true :=
        List.contains_iff_mem.mpr met
      simp only [met', if_true, Option.some.injEq] at h
      exact h ▸ .repeated found met
    · have met' : visiting.contains (String.ofList cut.inner) = false := by
        simpa [Cut.placeholder] using met
      simp only [met', Bool.false_eq_true, if_false] at h
      obtain ⟨key | keyText, hkey, h⟩ := Option.bind_eq_some_iff.mp h
      · simp only [Option.some.injEq] at h
        exact h ▸ .keyError found met (ih _ _ _ _ hkey)
      · have key := ih _ _ _ _ hkey
        cases known : valueOf lookup (String.ofList keyText) with
        | some value =>
          simp only [known] at h
          obtain ⟨e | text, hinner, h⟩ := Option.bind_eq_some_iff.mp h
          · simp only [Option.some.injEq] at h
            exact h ▸ .valueError found met key known (ih _ _ _ _ hinner)
          · obtain ⟨rest, hbehind, h⟩ := Option.bind_eq_some_iff.mp h
            simp only [Option.some.injEq] at h
            exact h ▸ .replaced found met key known (ih _ _ _ _ hinner) (ih _ _ _ _ hbehind)
        | none =>
          cases mode with
          | required =>
            simp only [known, Option.some.injEq] at h
            exact h ▸ .missing rfl found met key known
          | lenient =>
            simp only [known] at h
            obtain ⟨rest, hbehind, h⟩ := Option.bind_eq_some_iff.mp h
            simp only [Option.some.injEq] at h
            exact h ▸ .kept rfl found met key known (ih _ _ _ _ hbehind)

/-- A derived answer is the one that is found. -/
theorem Resolves.resolveFrom_eq (h : Resolves mode lookup visiting whole cs r) :
    mode.resolveFrom lookup visiting whole cs = some r := by
  induction h with
  | plain found =>
    rw [Mode.resolveFrom]
    simp [found]
  | repeated found met =>
    rw [Cut.placeholder] at met ⊢
    rw [Mode.resolveFrom]
    simp [found, met]
  | keyError found new _ ih =>
    rw [Cut.placeholder] at new ih
    rw [Mode.resolveFrom]
    simp [found, new, ih]
  | valueError found new _ known _ ihk ihv =>
    rw [Cut.placeholder] at new ihk ihv
    rw [Mode.resolveFrom]
    simp [found, new, ihk, known, ihv]
  | replaced found new _ known _ _ ihk ihv ihr =>
    rw [Cut.placeholder] at new ihk ihv
    rw [Mode.resolveFrom]
    simp [found, new, ihk, known, ihv, ihr]
  | missing required found new _ unknown ih =>
    subst required
    rw [Cut.placeholder] at new ih
    rw [Mode.resolveFrom]
    simp [found, new, ih, unknown]
  | kept lenient found new _ unknown _ ihk ihr =>
    subst lenient
    rw [Cut.placeholder] at new ihk
    rw [Mode.resolveFrom]
    simp [found, new, ihk, unknown, ihr]

/-- A resolution has just the answer that is derived. -/
theorem resolveFrom_eq_some_iff :
    mode.resolveFrom lookup visiting whole cs = some r ↔ Resolves mode lookup visiting whole cs r :=
  ⟨resolves_of_resolveFrom, Resolves.resolveFrom_eq⟩

theorem Resolves.unique (h : Resolves mode lookup visiting whole cs r)
    (h' : Resolves mode lookup visiting whole cs r') : r = r' :=
  Option.some.inj (h.resolveFrom_eq.symm.trans h'.resolveFrom_eq)

theorem resolve?_of_none (mode : Mode) (lookup : String → Option String) {text : String}
    (h : firstPlaceholder? text.toList = none) : resolve? mode lookup text = some (.ok text) := by
  rw [resolve?, (Resolves.plain h).resolveFrom_eq, Option.map_some, Except.map,
    String.ofList_toList]

end Blueprint.Placeholder
