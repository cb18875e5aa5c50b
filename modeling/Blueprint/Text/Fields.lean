/-!
# Fields of a text

`fields` cuts a list of characters at every separator; the empty stretches between two
separators count, so there is always one field more than there are separators. `tokens` keeps
the fields that are not empty.

`tokenize` reads the multi-valued attributes and location lists of a document, whose separators
are the comma, the semicolon, the space, the tab, the line feed and the carriage return. Other
white space belongs to the tokens.
-/

namespace Blueprint.Text

/-- Puts a character in front of the first field. -/
def extendFirst (c : Char) : List (List Char) → List (List Char)
  | [] => [[c]]
  | f :: fs => (c :: f) :: fs

/-- The stretches between the separators, the empty ones included. -/
def fields (isSeparator : Char → Bool) : List Char → List (List Char)
  | [] => [[]]
  | c :: cs =>
    if isSeparator c then [] :: fields isSeparator cs
    else extendFirst c (fields isSeparator cs)

/-- The fields that hold at least one character. -/
def tokens (isSeparator : Char → Bool) (cs : List Char) : List (List Char) :=
  (fields isSeparator cs).filter fun f => !f.isEmpty

/-- The separators between the values of one attribute. -/
def isDelimiter (c : Char) : Bool :=
  c == ',' || c == ';' || c == ' ' || c == '\t' || c == '\n' || c == '\r'

/-- The values of a multi-valued attribute. -/
def tokenize (s : String) : List String := (tokens isDelimiter s.toList).map String.ofList

theorem fields_ne_nil (isSeparator : Char → Bool) (cs : List Char) :
    fields isSeparator cs ≠ [] := by
  cases cs with
  | nil => simp [fields]
  | cons c cs =>
    simp only [fields]
    split
    · simp
    · cases fields isSeparator cs <;> simp [extendFirst]

theorem not_isSeparator_of_mem_fields {isSeparator : Char → Bool} {cs f : List Char}
    (hf : f ∈ fields isSeparator cs) : ∀ c ∈ f, isSeparator c = false := by
  induction cs generalizing f with
  | nil => simp [fields] at hf; simp [hf]
  | cons c cs ih =>
    simp only [fields] at hf
    split at hf
    · rcases List.mem_cons.mp hf with rfl | hf
      · simp
      · exact ih hf
    · rename_i hc
      cases hfs : fields isSeparator cs with
      | nil => exact absurd hfs (fields_ne_nil _ _)
      | cons g gs =>
        rw [hfs, extendFirst] at hf
        rcases List.mem_cons.mp hf with rfl | hf
        · intro x hx
          rcases List.mem_cons.mp hx with rfl | hx
          · simpa using hc
          · exact ih (hfs ▸ List.mem_cons_self) x hx
        · exact ih (hfs ▸ List.mem_cons_of_mem _ hf)

theorem ne_nil_of_mem_tokens {isSeparator : Char → Bool} {cs f : List Char}
    (hf : f ∈ tokens isSeparator cs) : f ≠ [] := by
  intro h
  simp [tokens, h] at hf

end Blueprint.Text
