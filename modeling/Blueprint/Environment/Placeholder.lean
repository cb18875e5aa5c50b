import Blueprint.Error

/-!
# Placeholders

A text may hold placeholders, from a dollar sign and an opening brace to the closing brace that
belongs to it. What stands between is first resolved like any text; the result is a key, or, from
its first colon on, a key and a default. The value found is resolved again and takes the place of
the placeholder; the text behind it is then scanned by itself, so what was put in is never read
together with what follows it.

A placeholder met again while it is being resolved is an error. One without a value is an error
when values are required and stays as it is otherwise.

`firstPlaceholder?` finds the first placeholder of a text, and `Mode.resolveFrom` goes from one to
the next. A default is cut out of a resolved key and resolved once more, so it can hold
placeholders that no property spells out; `resolve?` is `none` for a text whose resolution does not
end.
-/

namespace Blueprint.Placeholder

/-- The character before an opening brace. -/
def sigil : Char := '$'

/-- The opening brace. -/
def openBrace : Char := '\x7b'

/-- The closing brace. -/
def closeBrace : Char := '\x7d'

/-- The separator of a key and its default. -/
def separator : Char := ':'

/-- What is done about a placeholder without a value. -/
inductive Mode where
  /-- It is an error. -/
  | required
  /-- It stays as it is. -/
  | lenient
deriving DecidableEq, Repr

/-- Splits a text at the closing brace that belongs to an opening one before it; `depth` counts
the placeholders opened since. -/
def splitAtClose : (depth : Nat) → List Char → Option (List Char × List Char)
  | _, [] => none
  | depth, [c] => if c = closeBrace ∧ depth = 0 then some ([], []) else none
  | depth, c :: d :: cs =>
    if c = closeBrace then
      match depth with
      | 0 => some ([], d :: cs)
      | depth + 1 =>
        (splitAtClose depth (d :: cs)).map fun (inner, rest) => (c :: inner, rest)
    else if c = sigil ∧ d = openBrace then
      (splitAtClose (depth + 1) cs).map fun (inner, rest) => (c :: d :: inner, rest)
    else (splitAtClose depth (d :: cs)).map fun (inner, rest) => (c :: inner, rest)

/-- Splits a text in front of the first dollar sign with an opening brace behind it : the text
before, and the text behind the brace. -/
def splitAtOpen : List Char → Option (List Char × List Char)
  | [] | [_] => none
  | c :: d :: cs =>
    if c = sigil ∧ d = openBrace then some ([], cs)
    else (splitAtOpen (d :: cs)).map fun (before, rest) => (c :: before, rest)

/-- A text, cut at a placeholder. -/
structure Cut where
  before : List Char
  inner : List Char
  after : List Char
deriving DecidableEq, Repr

/-- The first placeholder of a text. If it is not closed there is none, whatever follows. -/
def firstPlaceholder? (cs : List Char) : Option Cut := do
  let (before, rest) ← splitAtOpen cs
  let (inner, after) ← splitAtClose 0 rest
  return ⟨before, inner, after⟩

private theorem eq_of_map_append {o : Option (List Char × List Char)} {p inner rest : List Char}
    (h : o.map (fun x => (p ++ x.1, x.2)) = some (inner, rest)) :
    ∃ tail, o = some (tail, rest) ∧ inner = p ++ tail := by
  obtain ⟨⟨i, r⟩, ho, he⟩ := Option.map_eq_some_iff.mp h
  obtain ⟨rfl, rfl⟩ := Prod.mk.inj he
  exact ⟨i, ho, rfl⟩

/-- A text is what stands before the closing brace, the brace, and what stands behind it. -/
theorem eq_of_splitAtClose {depth : Nat} {cs inner rest : List Char}
    (h : splitAtClose depth cs = some (inner, rest)) : cs = inner ++ closeBrace :: rest := by
  fun_induction splitAtClose depth cs generalizing inner rest with
  | case1 => simp at h
  | case2 depth c hc =>
    obtain ⟨rfl, rfl⟩ := Prod.mk.inj (Option.some.inj h)
    simp [hc.1]
  | case3 => simp at h
  | case4 d cs =>
    obtain ⟨rfl, rfl⟩ := Prod.mk.inj (Option.some.inj h)
    rfl
  | case5 d cs depth ih =>
    obtain ⟨i, ho, rfl⟩ := eq_of_map_append (p := [closeBrace]) h
    simp [ih ho]
  | case6 depth c d cs hc hd ih =>
    obtain ⟨i, ho, rfl⟩ := eq_of_map_append (p := [c, d]) h
    simp [ih ho]
  | case7 depth c d cs hc hd ih =>
    obtain ⟨i, ho, rfl⟩ := eq_of_map_append (p := [c]) h
    simp [ih ho]

/-- A text is what stands before the sigil with its brace, these two, and what is behind. -/
theorem eq_of_splitAtOpen {cs before rest : List Char}
    (h : splitAtOpen cs = some (before, rest)) : cs = before ++ sigil :: openBrace :: rest := by
  fun_induction splitAtOpen cs generalizing before rest with
  | case1 => simp at h
  | case2 => simp at h
  | case3 c d cs hc =>
    obtain ⟨rfl, rfl⟩ := Prod.mk.inj (Option.some.inj h)
    simp [hc.1, hc.2]
  | case4 c d cs hc ih =>
    obtain ⟨b, ho, rfl⟩ := eq_of_map_append (p := [c]) h
    simp [ih ho]

/-- A text is its cut put together again. -/
theorem eq_of_firstPlaceholder? {cs : List Char} {cut : Cut}
    (h : firstPlaceholder? cs = some cut) :
    cs = cut.before ++ sigil :: openBrace :: (cut.inner ++ closeBrace :: cut.after) := by
  simp only [firstPlaceholder?, Option.bind_eq_bind, Option.bind_eq_some_iff] at h
  obtain ⟨⟨before, rest⟩, ho, ⟨inner, after⟩, hc, he⟩ := h
  cases he
  have hr : rest = inner ++ closeBrace :: after := eq_of_splitAtClose hc
  rw [eq_of_splitAtOpen ho, hr]

theorem length_after_lt {cs : List Char} {cut : Cut} (h : firstPlaceholder? cs = some cut) :
    cut.after.length < cs.length := by
  rw [eq_of_firstPlaceholder? h]
  simp
  omega

/-- The text in front of the first separator and the text behind it. -/
def splitDefault? (key : String) : Option (String × String) :=
  match key.toList.dropWhile (· ≠ separator) with
  | [] => none
  | _ :: rest => some (String.ofList (key.toList.takeWhile (· ≠ separator)), String.ofList rest)

/-- The value of a resolved key : its own, or that of the part before the first separator, or the
default behind the separator. -/
def valueOf (lookup : String → Option String) (key : String) : Option String :=
  match lookup key with
  | some value => some value
  | none => (splitDefault? key).map fun (actual, fallback) => (lookup actual).getD fallback

/-- A placeholder that cannot be replaced, and the text it was found in. -/
structure Unresolved where
  placeholder : String
  text : String
deriving DecidableEq, Repr

/-- Resolves a text from its character list on, while the placeholders in `visiting` are being
resolved; `whole` is the text as an error shows it. What stands in a placeholder is resolved
first, then what it stands for, then the text behind it. There is no answer when placeholders keep
opening further ones. -/
def Mode.resolveFrom (mode : Mode) (lookup : String → Option String) (visiting : List String)
    (whole : String) (cs : List Char) : Option (Except Unresolved (List Char)) := do
  match firstPlaceholder? cs with
  | none => return .ok cs
  | some cut =>
    let placeholder := String.ofList cut.inner
    if visiting.contains placeholder then return .error ⟨placeholder, whole⟩
    else
      match ← (mode |>.resolveFrom lookup (placeholder :: visiting) placeholder cut.inner) with
      | .error e => return .error e
      | .ok keyText =>
        let key := String.ofList keyText
        match valueOf lookup key with
        | some value =>
          match ← (mode |>.resolveFrom lookup (placeholder :: visiting) value value.toList) with
          | .error e => return .error e
          | .ok text =>
            let rest ← mode |>.resolveFrom lookup visiting whole cut.after
            return rest.map fun after => cut.before ++ text ++ after
        | none =>
          match mode with
          | .required => return .error ⟨key, whole⟩
          | .lenient =>
            let rest ← mode |>.resolveFrom lookup visiting whole cut.after
            return rest.map fun after =>
              cut.before ++ sigil :: openBrace :: cut.inner ++ closeBrace :: after
partial_fixpoint

/-- Resolves a text; `none` when that does not end. -/
def resolve? (mode : Mode) (lookup : String → Option String) (text : String) :
    Option (Except Unresolved String) :=
  (mode.resolveFrom lookup [] text text.toList).map fun r => r.map String.ofList

/-- Resolves a text, with `Error.unbounded` for a run that does not end. -/
def resolve (mode : Mode) (lookup : String → Option String) (text : String) :
    Except Error String :=
  match resolve? mode lookup text with
  | some (.ok s) => .ok s
  | some (.error e) => .error (.unresolved e.placeholder e.text)
  | none => .error (.unbounded text)

end Blueprint.Placeholder
