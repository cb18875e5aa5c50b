import Blueprint.Proofs.Placeholder.Derivation
import Blueprint.Proofs.Placeholder.Scan

/-!
# Resolving a text in two parts

A scan that finds a placeholder in the first part of a text does not see the second part, and a scan
that finds none goes on into the second part as if it started there, unless a sigil and its brace
come together at the seam. So the answer for a text whose first part is `Closed` is put together
from the answers for its parts (`resolve_append`), whatever the first one ends in.
-/

namespace Blueprint.Placeholder

/-- Every placeholder that the scan of a text comes to is closed in it. -/
inductive Closed : List Char → Prop
  /-- There is none. -/
  | literal {cs} (none : splitAtOpen cs = none) : Closed cs
  | placeholder {cs cut} (found : firstPlaceholder? cs = some cut) (behind : Closed cut.after) :
    Closed cs

/-- A sigil at the end of a text meets a brace at the start of the next one. -/
def Meets (cs more : List Char) : Prop :=
  cs.getLast? = some sigil ∧ more.head? = some openBrace

instance (cs more : List Char) : Decidable (Meets cs more) :=
  inferInstanceAs (Decidable (_ ∧ _))

variable {cs more before inner rest : List Char}

/-! ## Scans of two parts -/

/-- A brace that is opened in a text is opened at the same place in a longer one. -/
theorem splitAtOpen_append_of_some (h : splitAtOpen cs = some (before, rest))
    (more : List Char) : splitAtOpen (cs ++ more) = some (before, rest ++ more) := by
  fun_induction splitAtOpen cs generalizing before rest with
  | case1 => cases h
  | case2 => cases h
  | case3 c d cs hc =>
    obtain ⟨rfl, rfl⟩ := Prod.mk.inj (Option.some.inj h)
    simp [splitAtOpen, hc.1, hc.2]
  | case4 c d cs hc ih =>
    obtain ⟨⟨front, behind⟩, hfront, heq⟩ := Option.map_eq_some_iff.mp h
    obtain ⟨rfl, rfl⟩ := Prod.mk.inj heq
    have hmore := ih hfront
    rw [List.cons_append] at hmore
    simp [splitAtOpen, hc, hmore]

/-- A brace that is closed in a text is closed at the same place in a longer one. -/
theorem splitAtClose_append_of_some {depth : Nat} (h : splitAtClose depth cs = some (inner, rest))
    (more : List Char) : splitAtClose depth (cs ++ more) = some (inner, rest ++ more) := by
  fun_induction splitAtClose depth cs generalizing inner rest with
  | case1 => cases h
  | case2 depth c hc =>
    obtain ⟨rfl, rfl⟩ := Prod.mk.inj (Option.some.inj h)
    cases more <;> simp [splitAtClose, hc.1, hc.2]
  | case3 => cases h
  | case4 d cs =>
    obtain ⟨rfl, rfl⟩ := Prod.mk.inj (Option.some.inj h)
    simp [splitAtClose]
  | case5 d cs depth ih =>
    obtain ⟨⟨front, behind⟩, hfront, heq⟩ := Option.map_eq_some_iff.mp h
    obtain ⟨rfl, rfl⟩ := Prod.mk.inj heq
    have hmore := ih hfront
    rw [List.cons_append] at hmore
    simp [splitAtClose, hmore]
  | case6 depth c d cs hc hd ih =>
    obtain ⟨⟨front, behind⟩, hfront, heq⟩ := Option.map_eq_some_iff.mp h
    obtain ⟨rfl, rfl⟩ := Prod.mk.inj heq
    obtain ⟨rfl, rfl⟩ := hd
    rw [List.cons_append, List.cons_append, splitAtClose_open, ih hfront]
    rfl
  | case7 depth c d cs hc hd ih =>
    obtain ⟨⟨front, behind⟩, hfront, heq⟩ := Option.map_eq_some_iff.mp h
    obtain ⟨rfl, rfl⟩ := Prod.mk.inj heq
    have hmore := ih hfront
    rw [List.cons_append] at hmore
    simp [splitAtClose, hc, hd, hmore]

/-- A text without an opened brace is passed, unless one is opened at the seam. -/
theorem splitAtOpen_append_of_none (h : splitAtOpen cs = none) (hseam : ¬Meets cs more) :
    splitAtOpen (cs ++ more) = (splitAtOpen more).map fun x => (cs ++ x.1, x.2) := by
  fun_induction splitAtOpen cs with
  | case1 => simp
  | case2 c =>
    cases more with
    | nil => rfl
    | cons d more =>
      have hopen : ¬(c = sigil ∧ d = openBrace) := fun hcd => hseam (by simp [Meets, hcd])
      simp [splitAtOpen, hopen]
  | case3 c d cs hc => cases h
  | case4 c d cs hc ih =>
    have hmore := ih (Option.map_eq_none_iff.mp h) fun hmeets =>
      hseam ⟨by rw [List.getLast?_cons_cons]; exact hmeets.1, hmeets.2⟩
    rw [List.cons_append] at hmore
    simp [splitAtOpen, hc, hmore, Function.comp_def]

/-- A placeholder that is found in the first part is found all the same. -/
theorem firstPlaceholder?_append_of_some {cut : Cut} (h : firstPlaceholder? cs = some cut)
    (more : List Char) :
    firstPlaceholder? (cs ++ more) = some { cut with after := cut.after ++ more } := by
  simp only [firstPlaceholder?, Option.bind_eq_bind, Option.bind_eq_some_iff] at h
  obtain ⟨⟨before, rest⟩, hopen, ⟨inner, after⟩, hclose, heq⟩ := h
  cases heq
  simp [firstPlaceholder?, splitAtOpen_append_of_some hopen, splitAtClose_append_of_some hclose]

/-- If nothing is opened in the first part, the first placeholder is that of the second part. -/
theorem firstPlaceholder?_append_of_none (h : splitAtOpen cs = none) (hseam : ¬Meets cs more) :
    firstPlaceholder? (cs ++ more) =
      (firstPlaceholder? more).map fun cut => { cut with before := cs ++ cut.before } := by
  simp only [firstPlaceholder?, splitAtOpen_append_of_none h hseam, Option.bind_eq_bind]
  cases splitAtOpen more with
  | none => rfl
  | some x =>
    simp only [Option.map_some, Option.bind_some]
    cases splitAtClose 0 x.2 <;> rfl

/-! ## Answers for two parts -/

variable {mode : Mode} {lookup : String → Option String} {visiting : List String} {whole : String}
  {a b x y : List Char}

/-- What takes the place of a placeholder : the answer for its value, or, where values are not
required and there is none, the placeholder itself. -/
inductive Substitutes (mode : Mode) (lookup : String → Option String) (visiting : List String)
    (inner : List Char) : List Char → Prop
  | value {keyText value text} (new : String.ofList inner ∉ visiting)
    (key : Resolves mode lookup (String.ofList inner :: visiting) (String.ofList inner) inner
      (.ok keyText))
    (known : valueOf lookup (String.ofList keyText) = some value)
    (answer : Resolves mode lookup (String.ofList inner :: visiting) value value.toList
      (.ok text)) :
    Substitutes mode lookup visiting inner text
  | kept {keyText} (lenient : mode = .lenient) (new : String.ofList inner ∉ visiting)
    (key : Resolves mode lookup (String.ofList inner :: visiting) (String.ofList inner) inner
      (.ok keyText))
    (unknown : valueOf lookup (String.ofList keyText) = none) :
    Substitutes mode lookup visiting inner (sigil :: openBrace :: (inner ++ [closeBrace]))

/-- An answer that is no error keeps the text in front of the first placeholder, and the text behind
that placeholder is resolved by itself. -/
theorem resolves_ok_iff : Resolves mode lookup visiting whole cs (.ok x) ↔
    (firstPlaceholder? cs = none ∧ x = cs) ∨
      ∃ cut put after, firstPlaceholder? cs = some cut ∧
        Substitutes mode lookup visiting cut.inner put ∧
        Resolves mode lookup visiting whole cut.after (.ok after) ∧
        x = cut.before ++ put ++ after := by
  constructor
  · intro h
    generalize hr : Except.ok x = r at h
    cases h with
    | plain found => exact .inl ⟨found, Except.ok.inj hr⟩
    | repeated | keyError | valueError | missing => cases hr
    | @replaced _ _ _ cut _ _ text rest found new key known inner behind =>
      cases rest with
      | error e => cases hr
      | ok after =>
        exact .inr ⟨cut, text, after, found, .value new key known inner, behind, Except.ok.inj hr⟩
    | @kept _ _ _ cut _ rest lenient found new key unknown behind =>
      cases rest with
      | error e => cases hr
      | ok after =>
        refine .inr ⟨cut, _, after, found, .kept lenient new key unknown, behind, ?_⟩
        simpa using Except.ok.inj hr
  · rintro (⟨found, rfl⟩ | ⟨cut, put, after, found, hput, behind, rfl⟩)
    · exact .plain found
    · cases hput with
      | value new key known answer => exact .replaced found new key known answer behind
      | kept lenient new key unknown =>
        have h := Resolves.kept lenient found new key unknown behind
        simpa [Except.map] using h

/-- Only an error tells which text it was found in. -/
theorem Resolves.of_whole {cs x : List Char} (h : Resolves mode lookup visiting whole cs (.ok x))
    (whole' : String) : Resolves mode lookup visiting whole' cs (.ok x) := by
  rcases resolves_ok_iff.mp h with hplain | ⟨cut, put, after, found, hput, behind, hx⟩
  · exact resolves_ok_iff.mpr (.inl hplain)
  · have hshort := length_after_lt found
    exact resolves_ok_iff.mpr (.inr ⟨cut, put, after, found, hput, behind.of_whole whole', hx⟩)
termination_by cs.length

theorem resolves_of_literal (h : splitAtOpen cs = none) :
    Resolves mode lookup visiting whole cs (.ok cs) :=
  .plain (by simp [firstPlaceholder?, h])

/-- What stands in front of the first placeholder is kept as it is. -/
theorem Resolves.append_of_literal (ha : splitAtOpen a = none) (hseam : ¬Meets a b)
    (hb : Resolves mode lookup visiting whole b (.ok y)) :
    Resolves mode lookup visiting whole (a ++ b) (.ok (a ++ y)) := by
  have hfirst := firstPlaceholder?_append_of_none ha hseam
  rw [resolves_ok_iff, hfirst]
  rcases resolves_ok_iff.mp hb with ⟨found, rfl⟩ | ⟨cut, put, after, found, hput, behind, rfl⟩
  · exact .inl ⟨by rw [found, Option.map_none], rfl⟩
  · refine .inr ⟨{ cut with before := a ++ cut.before }, put, after, ?_, hput, behind, by simp⟩
    rw [found, Option.map_some]

/-- The answer for a closed text is followed by the answer for what follows the text. -/
theorem Resolves.append (hclosed : Closed a) (hseam : ¬Meets a b)
    (ha : Resolves mode lookup visiting whole a (.ok x))
    (hb : Resolves mode lookup visiting whole b (.ok y)) :
    Resolves mode lookup visiting whole (a ++ b) (.ok (x ++ y)) := by
  induction hclosed generalizing x with
  | literal none =>
    obtain rfl := Except.ok.inj (ha.unique (resolves_of_literal none))
    exact hb.append_of_literal none hseam
  | @placeholder a cut found _ ih =>
    -- The text behind the placeholder ends as the whole text does.
    have hbehind : ¬Meets cut.after b := by
      refine fun hmeets => hseam ⟨?_, hmeets.2⟩
      have hparts : a = cut.before ++ sigil :: openBrace :: (cut.inner ++ [closeBrace]) ++
          cut.after := by
        simpa using eq_of_firstPlaceholder? found
      rw [hparts, List.getLast?_append, hmeets.1, Option.some_or]
    rcases resolves_ok_iff.mp ha with ⟨hnone, -⟩ | ⟨cut', put, after, hcut, hput, behind, rfl⟩
    · cases found.symm.trans hnone
    · obtain rfl := Option.some.inj (found.symm.trans hcut)
      exact resolves_ok_iff.mpr (.inr ⟨_, put, after ++ y, firstPlaceholder?_append_of_some found b,
        hput, ih hbehind behind, by simp⟩)

/-- `resolve` answers with a text just if it is derived. -/
theorem resolve_eq_ok_iff {text answer : String} : resolve mode lookup text = .ok answer ↔
    Resolves mode lookup [] text text.toList (.ok answer.toList) := by
  rw [← resolveFrom_eq_some_iff, resolve, resolve?]
  cases mode.resolveFrom lookup [] text text.toList with
  | none => simp
  | some r =>
    cases r with
    | error e => simp [Except.map]
    | ok cs =>
      simp only [Option.map_some, Except.map, Except.ok.injEq, Option.some.injEq]
      exact ⟨fun h => by rw [← h, String.toList_ofList], fun h => by rw [h, String.ofList_toList]⟩

/-- A text is resolved part by part : if every placeholder of the first part is closed in it and no
sigil and brace meet at the seam, the answers for the parts stand one after the other. Text without
placeholders is its own answer, in front of the others and behind them, and no brace that comes with
an answer is read together with what follows. -/
theorem resolve_append {a b x y : String} (hclosed : Closed a.toList)
    (hseam : ¬Meets a.toList b.toList) (ha : resolve mode lookup a = .ok x)
    (hb : resolve mode lookup b = .ok y) : resolve mode lookup (a ++ b) = .ok (x ++ y) ∧
      (splitAtOpen a.toList = none → x = a) ∧ (splitAtOpen b.toList = none → y = b) := by
  have literal {text answer : String} (h : resolve mode lookup text = .ok answer)
      (hnone : splitAtOpen text.toList = none) : answer = text :=
    String.toList_inj.mp (Except.ok.inj
      ((resolve_eq_ok_iff.mp h).unique (resolves_of_literal hnone)))
  refine ⟨resolve_eq_ok_iff.mpr ?_, literal ha, literal hb⟩
  rw [String.toList_append, String.toList_append]
  exact Resolves.append hclosed hseam ((resolve_eq_ok_iff.mp ha).of_whole _)
    ((resolve_eq_ok_iff.mp hb).of_whole _)

/-- A value that opens a placeholder does not open one in the text behind it. -/
theorem resolve_append_openingValue :
    Closed "$\x7bp\x7d".toList ∧ ¬Meets "$\x7bp\x7d".toList "name\x7d".toList ∧
      resolve .required (fun key => if key = "p" then some "$\x7b" else some "value")
        ("$\x7bp\x7d" ++ "name\x7d") = .ok ("$\x7b" ++ "name\x7d") := by
  have hfirst : firstPlaceholder? "$\x7bp\x7d".toList = some ⟨[], ['p'], []⟩ := by decide
  have hclosed : Closed "$\x7bp\x7d".toList := .placeholder hfirst (.literal (by decide))
  have hseam : ¬Meets "$\x7bp\x7d".toList "name\x7d".toList := by decide
  refine ⟨hclosed, hseam, (resolve_append hclosed hseam (resolve_eq_ok_iff.mpr ?_)
    (resolve_eq_ok_iff.mpr (.plain (by decide)))).1⟩
  have hvalue : valueOf (fun key => if key = "p" then some "$\x7b" else some "value")
      (String.ofList ['p']) = some "$\x7b" := by decide
  exact resolves_ok_iff.mpr (.inr ⟨_, "$\x7b".toList, [], hfirst,
    .value (by decide) (.plain (by decide)) hvalue (.plain (by decide)), .plain (by decide),
    by decide⟩)

end Blueprint.Placeholder
