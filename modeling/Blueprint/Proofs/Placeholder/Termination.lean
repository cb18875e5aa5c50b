import Mathlib.Data.Set.Finite.Lattice
import Mathlib.Data.Set.Finite.List
import Mathlib.Data.List.Sublists
import Mathlib.Data.List.TakeWhile
import Blueprint.Environment.Basic
import Blueprint.Proofs.Placeholder.Derivation
import Blueprint.Proofs.Placeholder.Scan

/-!
# When resolutions end

The only guard of a resolution is the list of the placeholders being resolved : none of them is
opened again. So a resolution ends if only finitely many different placeholders are opened on the
way (`exists_resolves`). Every opened one is new among those being resolved, and behind a
placeholder the text gets shorter. On the way to an answer finitely many placeholders are opened,
so the condition is also needed (`resolution_ends_iff`).

Placeholders that are spelled out in the text or in a value are finitely many. What is opened
beyond them comes from a default, which is cut out of a key that was put together from values.
-/

namespace Blueprint.Placeholder

/-- The resolution of a text opens a placeholder, there or further down. -/
inductive Opens (mode : Mode) (lookup : String → Option String) (placeholder : String) :
    (visiting : List String) → (whole : String) → (cs : List Char) → Prop
  | here {visiting whole cs cut} (found : firstPlaceholder? cs = some cut)
    (new : cut.placeholder ∉ visiting) (same : cut.placeholder = placeholder) :
    Opens mode lookup placeholder visiting whole cs
  | inKey {visiting whole cs cut} (found : firstPlaceholder? cs = some cut)
    (new : cut.placeholder ∉ visiting)
    (opens : Opens mode lookup placeholder (cut.placeholder :: visiting) cut.placeholder
      cut.inner) :
    Opens mode lookup placeholder visiting whole cs
  | inValue {visiting whole cs cut keyText value} (found : firstPlaceholder? cs = some cut)
    (new : cut.placeholder ∉ visiting)
    (key : Resolves mode lookup (cut.placeholder :: visiting) cut.placeholder cut.inner
      (.ok keyText))
    (known : valueOf lookup (String.ofList keyText) = some value)
    (opens : Opens mode lookup placeholder (cut.placeholder :: visiting) value value.toList) :
    Opens mode lookup placeholder visiting whole cs
  | behind {visiting whole cs cut keyText value text} (found : firstPlaceholder? cs = some cut)
    (new : cut.placeholder ∉ visiting)
    (key : Resolves mode lookup (cut.placeholder :: visiting) cut.placeholder cut.inner
      (.ok keyText))
    (known : valueOf lookup (String.ofList keyText) = some value)
    (inner : Resolves mode lookup (cut.placeholder :: visiting) value value.toList (.ok text))
    (opens : Opens mode lookup placeholder visiting whole cut.after) :
    Opens mode lookup placeholder visiting whole cs
  | behindKept {visiting whole cs cut keyText} (lenient : mode = .lenient)
    (found : firstPlaceholder? cs = some cut) (new : cut.placeholder ∉ visiting)
    (key : Resolves mode lookup (cut.placeholder :: visiting) cut.placeholder cut.inner
      (.ok keyText))
    (unknown : valueOf lookup (String.ofList keyText) = none)
    (opens : Opens mode lookup placeholder visiting whole cut.after) :
    Opens mode lookup placeholder visiting whole cs

/-- The placeholders that the resolution of a text opens. -/
def opened (mode : Mode) (lookup : String → Option String) (visiting : List String)
    (whole : String) (cs : List Char) : Set String :=
  {placeholder | Opens mode lookup placeholder visiting whole cs}

variable {mode : Mode} {lookup : String → Option String} {visiting : List String} {whole : String}
  {cs : List Char} {r : Except Unresolved (List Char)} {p : String}

/-! ## Finitely many placeholders are enough -/

/-- If every placeholder that is opened belongs to a finite set, the resolution ends. -/
theorem exists_resolves (few : Finset String) : ∀ (visiting : List String) (whole : String)
    (cs : List Char), (∀ p ∈ opened mode lookup visiting whole cs, p ∈ few) →
      ∃ r, Resolves mode lookup visiting whole cs r
  | visiting, whole, cs, h => by
    cases found : firstPlaceholder? cs with
    | none => exact ⟨_, .plain found⟩
    | some cut =>
      by_cases new : cut.placeholder ∈ visiting
      · exact ⟨_, .repeated found new⟩
      · have hmem : cut.placeholder ∈ few := h _ (.here found new rfl)
        -- One placeholder less can be opened within this one, and the text behind it is shorter.
        have hless : (few.filter (· ∉ cut.placeholder :: visiting)).card <
            (few.filter (· ∉ visiting)).card := by
          refine Finset.card_lt_card (Finset.ssubset_iff_of_subset ?_ |>.mpr ?_)
          · exact Finset.monotone_filter_right few fun p _ hp hv => hp (List.mem_cons_of_mem _ hv)
          · exact ⟨cut.placeholder, by simp [hmem, new], by simp⟩
        have hshort := length_after_lt found
        obtain ⟨key, hkey⟩ := exists_resolves few (cut.placeholder :: visiting) cut.placeholder
          cut.inner fun p hp => h p (.inKey found new hp)
        cases key with
        | error e => exact ⟨_, .keyError found new hkey⟩
        | ok keyText =>
          cases known : valueOf lookup (String.ofList keyText) with
          | some value =>
            obtain ⟨text, hinner⟩ := exists_resolves few (cut.placeholder :: visiting) value
              value.toList fun p hp => h p (.inValue found new hkey known hp)
            cases text with
            | error e => exact ⟨_, .valueError found new hkey known hinner⟩
            | ok text =>
              obtain ⟨rest, hrest⟩ := exists_resolves few visiting whole cut.after
                fun p hp => h p (.behind found new hkey known hinner hp)
              exact ⟨_, .replaced found new hkey known hinner hrest⟩
          | none =>
            cases hm : mode with
            | required => exact ⟨_, .missing rfl found new (hm ▸ hkey) known⟩
            | lenient =>
              obtain ⟨rest, hrest⟩ := exists_resolves few visiting whole cut.after
                fun p hp => h p (.behindKept hm found new hkey known hp)
              exact ⟨_, .kept rfl found new (hm ▸ hkey) known (hm ▸ hrest)⟩
termination_by visiting _ cs => ((few.filter (· ∉ visiting)).card, cs.length)
decreasing_by
  · exact Prod.Lex.left _ _ hless
  · exact Prod.Lex.right _ hshort
  · exact Prod.Lex.left _ _ hless
  · exact Prod.Lex.right _ hshort

/-! ## Finitely many placeholders are needed -/

/-- A placeholder is opened at the first one of the text, in its key, in its value if the key has
one, or in the text behind it if the resolution gets there. -/
theorem Opens.at_cut {cut : Cut} (h : Opens mode lookup p visiting whole cs)
    (found : firstPlaceholder? cs = some cut) :
    cut.placeholder ∉ visiting ∧
      (cut.placeholder = p ∨
        Opens mode lookup p (cut.placeholder :: visiting) cut.placeholder cut.inner ∨
        ∃ keyText, Resolves mode lookup (cut.placeholder :: visiting) cut.placeholder cut.inner
            (.ok keyText) ∧
          ((∃ value, valueOf lookup (String.ofList keyText) = some value ∧
              (Opens mode lookup p (cut.placeholder :: visiting) value value.toList ∨
                (∃ text, Resolves mode lookup (cut.placeholder :: visiting) value value.toList
                  (.ok text)) ∧ Opens mode lookup p visiting whole cut.after)) ∨
            valueOf lookup (String.ofList keyText) = none ∧ mode = .lenient ∧
              Opens mode lookup p visiting whole cut.after)) := by
  cases h with
  | here found' new same =>
    obtain rfl := Option.some.inj (found.symm.trans found')
    exact ⟨new, .inl same⟩
  | inKey found' new opens =>
    obtain rfl := Option.some.inj (found.symm.trans found')
    exact ⟨new, .inr (.inl opens)⟩
  | inValue found' new key known opens =>
    obtain rfl := Option.some.inj (found.symm.trans found')
    exact ⟨new, .inr (.inr ⟨_, key, .inl ⟨_, known, .inl opens⟩⟩)⟩
  | behind found' new key known inner opens =>
    obtain rfl := Option.some.inj (found.symm.trans found')
    exact ⟨new, .inr (.inr ⟨_, key, .inl ⟨_, known, .inr ⟨⟨_, inner⟩, opens⟩⟩⟩)⟩
  | behindKept lenient found' new key unknown opens =>
    obtain rfl := Option.some.inj (found.symm.trans found')
    exact ⟨new, .inr (.inr ⟨_, key, .inr ⟨unknown, lenient, opens⟩⟩)⟩

theorem not_opens_of_none (found : firstPlaceholder? cs = none) :
    ¬Opens mode lookup p visiting whole cs := by
  intro h
  cases h <;> simp_all

/-- On the way to an answer finitely many placeholders are opened. -/
theorem Resolves.finite_opened (h : Resolves mode lookup visiting whole cs r) :
    (opened mode lookup visiting whole cs).Finite := by
  -- What is opened in the key, in the value and behind the placeholder is finite by the derivations
  -- of their answers; the other derivations that `at_cut` allows have another answer.
  induction h with
  | plain found => exact Set.finite_empty.subset fun p hp => not_opens_of_none found hp
  | repeated found met => exact Set.finite_empty.subset fun p hp => (hp.at_cut found).1 met
  | @keyError visiting whole cs cut e found new key ih =>
    refine (ih.insert cut.placeholder).subset fun p hp => ?_
    obtain ⟨-, rfl | hopens | ⟨keyText, hkey, -⟩⟩ := hp.at_cut found
    · exact .inl rfl
    · exact .inr hopens
    · cases key.unique hkey
  | @valueError visiting whole cs cut keyText value e found new key known inner ihk ihv =>
    refine ((ihk.union ihv).insert cut.placeholder).subset fun p hp => ?_
    obtain ⟨-, rfl | hopens | ⟨keyText', hkey, hv⟩⟩ := hp.at_cut found
    · exact .inl rfl
    · exact .inr (.inl hopens)
    · obtain rfl := Except.ok.inj (key.unique hkey)
      rcases hv with ⟨value', hvalue, hv⟩ | ⟨hnone, -⟩
      · obtain rfl := Option.some.inj (known.symm.trans hvalue)
        rcases hv with hopens | ⟨⟨text, htext⟩, -⟩
        · exact .inr (.inr hopens)
        · cases inner.unique htext
      · cases known.symm.trans hnone
  | @replaced visiting whole cs cut keyText value text rest found new key known inner behind
      ihk ihv ihr =>
    refine ((ihk.union (ihv.union ihr)).insert cut.placeholder).subset fun p hp => ?_
    obtain ⟨-, rfl | hopens | ⟨keyText', hkey, hv⟩⟩ := hp.at_cut found
    · exact .inl rfl
    · exact .inr (.inl hopens)
    · obtain rfl := Except.ok.inj (key.unique hkey)
      rcases hv with ⟨value', hvalue, hv⟩ | ⟨hnone, -⟩
      · obtain rfl := Option.some.inj (known.symm.trans hvalue)
        exact .inr (.inr (hv.imp id And.right))
      · cases known.symm.trans hnone
  | @missing visiting whole cs cut keyText required found new key unknown ih =>
    refine (ih.insert cut.placeholder).subset fun p hp => ?_
    obtain ⟨-, rfl | hopens | ⟨keyText', hkey, hv⟩⟩ := hp.at_cut found
    · exact .inl rfl
    · exact .inr hopens
    · obtain rfl := Except.ok.inj (key.unique hkey)
      rcases hv with ⟨value', hvalue, -⟩ | ⟨-, lenient, -⟩
      · cases unknown.symm.trans hvalue
      · cases required.symm.trans lenient
  | @kept visiting whole cs cut keyText rest lenient found new key unknown behind ihk ihr =>
    refine ((ihk.union ihr).insert cut.placeholder).subset fun p hp => ?_
    obtain ⟨-, rfl | hopens | ⟨keyText', hkey, hv⟩⟩ := hp.at_cut found
    · exact .inl rfl
    · exact .inr (.inl hopens)
    · obtain rfl := Except.ok.inj (key.unique hkey)
      rcases hv with ⟨value', hvalue, -⟩ | ⟨-, -, hopens⟩
      · cases unknown.symm.trans hvalue
      · exact .inr (.inr hopens)

/-! ## Texts without defaults -/

/-- A key without a separator has no default. -/
theorem valueOf_of_no_separator {key : String} (h : separator ∉ key.toList) :
    valueOf lookup key = lookup key := by
  have hall : key.toList.dropWhile (· ≠ separator) = [] := by
    rw [List.dropWhile_eq_nil_iff]
    intro c hc
    have hne : c ≠ separator := fun hs => h (hs ▸ hc)
    simpa using hne
  have hnone : splitDefault? key = none := by rw [splitDefault?, hall]
  cases hl : lookup key <;> simp [valueOf, hl, hnone]

/-- The three parts of a text that is cut at a placeholder stand in it. -/
theorem infix_of_firstPlaceholder? {cut : Cut} (h : firstPlaceholder? cs = some cut) :
    cut.before <:+: cs ∧ cut.inner <:+: cs ∧ cut.after <:+: cs := by
  have hcs := eq_of_firstPlaceholder? h
  refine ⟨⟨[], _, by rw [hcs, List.nil_append]⟩,
    ⟨cut.before ++ [sigil, openBrace], closeBrace :: cut.after, by rw [hcs]; simp⟩,
    ⟨cut.before ++ sigil :: openBrace :: (cut.inner ++ [closeBrace]), [], by rw [hcs]; simp⟩⟩

/-- Without separators in the text and the values there is none in the answer. -/
theorem Resolves.no_separator
    (hv : ∀ key value, lookup key = some value → separator ∉ value.toList)
    (h : Resolves mode lookup visiting whole cs r) :
    separator ∉ cs → ∀ text, r = .ok text → separator ∉ text := by
  induction h with
  | plain found =>
    rintro hcs _ ⟨⟩
    exact hcs
  | repeated found met => rintro - _ ⟨⟩
  | keyError found new key ih => rintro - _ ⟨⟩
  | valueError found new key known inner ihk ihv => rintro - _ ⟨⟩
  | missing required found new key unknown ih => rintro - _ ⟨⟩
  | @replaced visiting whole cs cut keyText value text rest found new key known inner behind
      ihk ihv ihr =>
    intro hcs all hall
    obtain ⟨hbefore, hinner, hafter⟩ := infix_of_firstPlaceholder? found
    have hkey : separator ∉ keyText := ihk (fun hs => hcs (hinner.subset hs)) keyText rfl
    rw [valueOf_of_no_separator (by simpa using hkey)] at known
    have htext : separator ∉ text := ihv (hv _ _ known) text rfl
    cases rest with
    | error e => cases hall
    | ok rest =>
      have hrest := ihr (fun hs => hcs (hafter.subset hs)) rest rfl
      obtain rfl := Except.ok.inj hall
      have hfront : separator ∉ cut.before := fun hs => hcs (hbefore.subset hs)
      simp [hfront, htext, hrest]
  | @kept visiting whole cs cut keyText rest lenient found new key unknown behind ihk ihr =>
    intro hcs all hall
    obtain ⟨-, -, hafter⟩ := infix_of_firstPlaceholder? found
    cases rest with
    | error e => cases hall
    | ok rest =>
      have hrest := ihr (fun hs => hcs (hafter.subset hs)) rest rfl
      obtain rfl := Except.ok.inj hall
      rw [eq_of_firstPlaceholder? found] at hcs
      simp only [List.mem_append, List.mem_cons, not_or] at hcs ⊢
      tauto

/-- Without separators in the text and the values every placeholder that is opened is spelled out
in one of them. -/
theorem Opens.spelled (hv : ∀ key value, lookup key = some value → separator ∉ value.toList)
    (h : Opens mode lookup p visiting whole cs) (hcs : separator ∉ cs) :
    p.toList <:+: cs ∨ ∃ key value, lookup key = some value ∧ p.toList <:+: value.toList := by
  induction h with
  | here found new same =>
    obtain ⟨-, hinner, -⟩ := infix_of_firstPlaceholder? found
    exact .inl (by simpa [← same, Cut.placeholder] using hinner)
  | inKey found new opens ih =>
    obtain ⟨-, hinner, -⟩ := infix_of_firstPlaceholder? found
    exact (ih fun hs => hcs (hinner.subset hs)).imp_left (·.trans hinner)
  | @inValue visiting whole cs cut keyText value found new key known opens ih =>
    obtain ⟨-, hinner, -⟩ := infix_of_firstPlaceholder? found
    have hkey := key.no_separator hv (fun hs => hcs (hinner.subset hs)) keyText rfl
    rw [valueOf_of_no_separator (by simpa using hkey)] at known
    exact .inr ((ih (hv _ _ known)).elim (fun h => ⟨_, _, known, h⟩) id)
  | behind found new key known inner opens ih =>
    obtain ⟨-, -, hafter⟩ := infix_of_firstPlaceholder? found
    exact (ih fun hs => hcs (hafter.subset hs)).imp_left (·.trans hafter)
  | behindKept lenient found new key unknown opens ih =>
    obtain ⟨-, -, hafter⟩ := infix_of_firstPlaceholder? found
    exact (ih fun hs => hcs (hafter.subset hs)).imp_left (·.trans hafter)

/-- A text spells out finitely many placeholders. -/
theorem finite_spelled (cs : List Char) : {p : String | p.toList <:+: cs}.Finite := by
  refine ((List.finite_toSet cs.sublists).image String.ofList).subset fun p hp => ?_
  exact ⟨p.toList, List.mem_sublists.mpr hp.sublist, String.ofList_toList⟩

/-- Finitely many values without separators open finitely many placeholders. -/
theorem finite_opened_of_no_separator (hfin : {value | ∃ key, lookup key = some value}.Finite)
    (hv : ∀ key value, lookup key = some value → separator ∉ value.toList)
    (hcs : separator ∉ cs) : (opened mode lookup visiting whole cs).Finite := by
  refine ((finite_spelled cs).union (hfin.biUnion fun value _ =>
    finite_spelled value.toList)).subset fun p hp => ?_
  rcases hp.spelled hv hcs with h | ⟨key, value, hk, h⟩
  · exact .inl h
  · exact .inr (Set.mem_biUnion ⟨key, hk⟩ h)

/-- Settings have finitely many values. -/
theorem finite_values (s : Settings) : {value | ∃ key, s.property key = some value}.Finite :=
  (List.finite_toSet s.values).subset fun _ ⟨_, h⟩ => Settings.mem_values_of_property h

/-- The resolution of a text ends just if it opens finitely many different placeholders. It does
if neither the text nor one of finitely many values has a separator, whatever else they refer
to. -/
theorem resolution_ends_iff (mode : Mode) (lookup : String → Option String)
    (text : String) :
    ((∃ r, resolve? mode lookup text = some r) ↔
        (opened mode lookup [] text text.toList).Finite) ∧
      ({value | ∃ key, lookup key = some value}.Finite →
        (∀ key value, lookup key = some value → separator ∉ value.toList) →
          separator ∉ text.toList → ∃ r, resolve? mode lookup text = some r) := by
  have ends : (∃ r, resolve? mode lookup text = some r) ↔
      ∃ r, Resolves mode lookup [] text text.toList r := by
    constructor
    · rintro ⟨r, h⟩
      obtain ⟨r', hr', -⟩ := Option.map_eq_some_iff.mp h
      exact ⟨r', resolves_of_resolveFrom hr'⟩
    · rintro ⟨r, h⟩
      exact ⟨_, by rw [resolve?, h.resolveFrom_eq]; rfl⟩
  have exact : (∃ r, resolve? mode lookup text = some r) ↔
      (opened mode lookup [] text text.toList).Finite := by
    rw [ends]
    constructor
    · rintro ⟨r, h⟩
      exact h.finite_opened
    · intro h
      exact exists_resolves h.toFinset [] text text.toList fun p hp => by simpa using hp
  exact ⟨exact, fun hfin hv ht => exact.mpr (finite_opened_of_no_separator hfin hv ht)⟩

/-- Two properties that refer to each other are found out. -/
theorem ends_of_mutualReferences :
    ∃ r, resolve? .required
      ({ properties := .ofList [("a", "${b}"), ("b", "${a}")] } : Settings).property "${a}" =
        some r := by
  refine (resolution_ends_iff _ _ _).2 (finite_values _) ?_ (by decide)
  intro key value h
  have plain : ∀ v ∈ ["${b}", "${a}"], separator ∉ v.toList := by decide
  exact plain value (Settings.mem_values_of_property h)

/-! ## A table without an end -/

/-- The placeholder of a name with one letter. -/
def letter (c : Char) : List Char := [sigil, openBrace, c, closeBrace]

/-- Many placeholders of one letter. -/
def letters (n : Nat) (c : Char) : List Char := (List.replicate n (letter c)).flatten

/-- Three properties that assemble a new placeholder from `l`, which opens it, and `r`, which
closes it by way of `o`. The other three come to nothing, which takes `n * n` placeholders. -/
def endless (n : Nat) : Settings where
  properties := .ofList [
    ("l", String.ofList ([sigil, openBrace, 'x', separator] ++ letter 'l' ++ ['a'])),
    ("r", String.ofList (letter 'p' ++ letter 'o' ++ ['r', closeBrace, closeBrace])),
    ("o", String.ofList [sigil, openBrace]), ("p", String.ofList (letters n 'q')),
    ("q", String.ofList (letters n 's')), ("s", "")]

/-- The inside of the placeholder that is opened at a depth. -/
def endlessInner (depth : Nat) : List Char :=
  ['x', separator] ++ letter 'l' ++ List.replicate depth 'a' ++ letter 'r'

/-- The text of that placeholder. -/
def endlessText (depth : Nat) : List Char :=
  sigil :: openBrace :: (endlessInner depth ++ [closeBrace])

/-- Only names of one letter have a value in the table. -/
theorem property_endless_eq_none {n : Nat} {key : String} (h : key.toList.length ≠ 1) :
    (endless n).property key = none := by
  have hkeys : (endless n).properties.keys = ["l", "r", "o", "p", "q", "s"] := rfl
  have hnone : (endless n).properties.get? key = none := by
    rw [Table.get?_eq_none_iff, ← Bool.not_eq_true, ← Table.mem_keys, hkeys]
    intro hmem
    refine h ?_
    simp only [List.mem_cons, List.not_mem_nil, or_false] at hmem
    rcases hmem with rfl | rfl | rfl | rfl | rfl | rfl <;> rfl
  rw [Settings.property, hnone]
  rfl

/-- The placeholder of a letter with a value, behind a plain text. -/
theorem Resolves.of_letter {c : Char} {before after text rest : List Char} {value : String}
    (hb : Plain before) (hc : Plain [c]) (new : String.ofList [c] ∉ visiting)
    (known : lookup (String.ofList [c]) = some value)
    (inner : Resolves mode lookup (String.ofList [c] :: visiting) value value.toList (.ok text))
    (behind : Resolves mode lookup visiting whole after (.ok rest)) :
    Resolves mode lookup visiting whole (before ++ letter c ++ after)
      (.ok (before ++ text ++ rest)) := by
  have found : firstPlaceholder? (before ++ letter c ++ after) = some ⟨before, [c], after⟩ := by
    rw [List.append_assoc]
    exact firstPlaceholder?_append hb (splitAtClose_plain hc after)
  have hvalue : valueOf lookup (String.ofList [c]) = some value := by rw [valueOf, known]
  exact .replaced found new (.plain (firstPlaceholder?_of_plain hc)) hvalue inner behind

/-- A letter that comes to nothing does so however often it stands there. -/
theorem Resolves.of_letters {c : Char} {value : String} (hc : Plain [c])
    (new : String.ofList [c] ∉ visiting) (known : lookup (String.ofList [c]) = some value)
    (inner : Resolves mode lookup (String.ofList [c] :: visiting) value value.toList (.ok [])) :
    ∀ n, Resolves mode lookup visiting whole (letters n c) (.ok [])
  | 0 => .plain rfl
  | n + 1 => by
    have nothing : Plain [] := by decide
    exact of_letter nothing hc new known inner (of_letters hc new known inner n)

/-- The placeholders opened so far in a run on the table. -/
def Deeper (depth : Nat) (visiting : List String) : Prop :=
  ∀ s ∈ visiting, ∃ d < depth, s = String.ofList (endlessInner d)

theorem length_endlessInner (depth : Nat) : (endlessInner depth).length = depth + 10 := by
  simp [endlessInner, letter]

/-- A placeholder at a depth is longer than all that were opened before. -/
theorem Deeper.not_mem_inner {depth : Nat} (h : Deeper depth visiting) :
    String.ofList (endlessInner depth) ∉ visiting := by
  intro hmem
  obtain ⟨d, hd, heq⟩ := h _ hmem
  have hlength := congrArg List.length (String.ofList_inj.mp heq)
  simp only [length_endlessInner] at hlength
  omega

/-- No placeholder of one letter is among those opened so far. -/
theorem Deeper.not_mem_letter {depth : Nat} (h : Deeper depth visiting) (c : Char) :
    String.ofList [c] ∉ visiting := by
  intro hmem
  obtain ⟨d, hd, heq⟩ := h _ hmem
  have hlength := congrArg List.length (String.ofList_inj.mp heq)
  simp [length_endlessInner] at hlength

/-- A run on the table goes deeper with every placeholder that it opens. -/
theorem Deeper.cons {depth : Nat} (h : Deeper depth visiting) :
    Deeper (depth + 1) (String.ofList (endlessInner depth) :: visiting) := by
  intro s hs
  rcases List.mem_cons.mp hs with rfl | hs
  · exact ⟨depth, Nat.lt_succ_self _, rfl⟩
  · obtain ⟨d, hd, heq⟩ := h s hs
    exact ⟨d, by omega, heq⟩

theorem not_mem_cons_letter {c d : Char} (hcd : c ≠ d) (h : String.ofList [c] ∉ visiting) :
    String.ofList [c] ∉ String.ofList [d] :: visiting := by
  intro hmem
  rcases List.mem_cons.mp hmem with heq | hmem
  · exact hcd (List.cons.inj (String.ofList_inj.mp heq)).1
  · exact h hmem

/-- The value of `p` comes to nothing. -/
theorem resolves_endless_p {n : Nat} (hq : String.ofList ['q'] ∉ visiting)
    (hs : String.ofList ['s'] ∉ visiting) :
    Resolves mode (endless n).property visiting whole (letters n 'q') (.ok []) := by
  have hs' : String.ofList ['s'] ∉ String.ofList ['q'] :: visiting :=
    not_mem_cons_letter (by decide) hs
  have known_s : (endless n).property (String.ofList ['s']) = some "" := rfl
  have known_q : (endless n).property (String.ofList ['q']) =
    some (String.ofList (letters n 's')) := rfl
  refine .of_letters (by decide) hq known_q ?_ n
  rw [String.toList_ofList]
  exact .of_letters (by decide) hs' known_s (.plain rfl) n

/-- The value of `r` closes the placeholder that the value of `l` opens. -/
theorem resolves_endless_r {n : Nat} (fresh : ∀ c, c ≠ 'r' → String.ofList [c] ∉ visiting) :
    Resolves mode (endless n).property visiting whole
      (letter 'p' ++ (letter 'o' ++ ['r', closeBrace, closeBrace]))
      (.ok (letter 'r' ++ [closeBrace])) := by
  have nothing : Plain [] := by decide
  have known_p : (endless n).property (String.ofList ['p']) =
    some (String.ofList (letters n 'q')) := rfl
  have known_o : (endless n).property (String.ofList ['o']) =
    some (String.ofList [sigil, openBrace]) := rfl
  have hq := not_mem_cons_letter (d := 'p') (by decide) (fresh 'q' (by decide))
  have hs := not_mem_cons_letter (d := 'p') (by decide) (fresh 's' (by decide))
  have closing : Resolves mode (endless n).property visiting whole ['r', closeBrace, closeBrace]
      (.ok ['r', closeBrace, closeBrace]) := .plain rfl
  have opening : Resolves mode (endless n).property (String.ofList ['o'] :: visiting)
      (String.ofList [sigil, openBrace]) (String.ofList [sigil, openBrace]).toList
      (.ok [sigil, openBrace]) := by
    rw [String.toList_ofList]
    exact .plain rfl
  have empty_p : Resolves mode (endless n).property (String.ofList ['p'] :: visiting)
      (String.ofList (letters n 'q')) (String.ofList (letters n 'q')).toList (.ok []) := by
    rw [String.toList_ofList]
    exact resolves_endless_p hq hs
  have rest := Resolves.of_letter nothing (by decide) (fresh 'o' (by decide)) known_o opening
    closing
  have all := Resolves.of_letter nothing (by decide) (fresh 'p' (by decide)) known_p empty_p rest
  simpa [letter] using all

/-- The inside of a placeholder of the table is a key with a default, the next text. -/
theorem resolves_endlessInner {n depth : Nat} (fresh : ∀ c, String.ofList [c] ∉ visiting) :
    Resolves mode (endless n).property visiting whole (endlessInner depth)
      (.ok ('x' :: separator :: endlessText (depth + 1))) := by
  have known_l : (endless n).property (String.ofList ['l']) =
    some (String.ofList ([sigil, openBrace, 'x', separator] ++ letter 'l' ++ ['a'])) := rfl
  have known_r : (endless n).property (String.ofList ['r']) = some (String.ofList
    (letter 'p' ++ letter 'o' ++ ['r', closeBrace, closeBrace])) := rfl
  have plain_a : Plain (List.replicate depth 'a') := by
    intro c hc
    rw [List.eq_of_mem_replicate hc]
    decide
  have behind : Resolves mode (endless n).property visiting whole
      (List.replicate depth 'a' ++ letter 'r' ++ [])
      (.ok (List.replicate depth 'a' ++ (letter 'r' ++ [closeBrace]) ++ [])) := by
    refine .of_letter plain_a (by decide) (fresh 'r') known_r ?_ (.plain rfl)
    rw [String.toList_ofList, List.append_assoc]
    exact resolves_endless_r fun c hc => not_mem_cons_letter hc (fresh c)
  have whole_key := Resolves.of_letter (c := 'l') (by decide : Plain ['x', separator]) (by decide)
    (fresh 'l') known_l (by rw [String.toList_ofList]; exact .plain rfl) behind
  simpa [endlessInner, endlessText, List.replicate_succ] using whole_key

/-- The text at a depth is one placeholder, with nothing before and behind it. -/
theorem firstPlaceholder?_endlessText (depth : Nat) :
    firstPlaceholder? (endlessText depth) = some ⟨[], endlessInner depth, []⟩ := by
  have plain_x : Plain ['x', separator] := by decide
  have plain_a : Plain (List.replicate depth 'a') := by
    intro c hc
    rw [List.eq_of_mem_replicate hc]
    decide
  have plain_l : Plain ['l'] := by decide
  have plain_r : Plain ['r'] := by decide
  have closed : splitAtClose 0 (['x', separator] ++ sigil :: openBrace :: (['l'] ++ closeBrace ::
      (List.replicate depth 'a' ++ sigil :: openBrace :: (['r'] ++ [closeBrace, closeBrace])))) =
        some (endlessInner depth, []) := by
    rw [splitAtClose_append plain_x, splitAtClose_open, splitAtClose_append plain_l,
      splitAtClose_succ_close, splitAtClose_append plain_a, splitAtClose_open,
      splitAtClose_append plain_r, splitAtClose_succ_close, splitAtClose_zero_close]
    simp [endlessInner, letter]
  have text : endlessInner depth ++ [closeBrace] =
      ['x', separator] ++ sigil :: openBrace :: (['l'] ++ closeBrace ::
        (List.replicate depth 'a' ++ sigil :: openBrace ::
          (['r'] ++ [closeBrace, closeBrace]))) := by
    simp [endlessInner, letter]
  rw [endlessText, text]
  exact firstPlaceholder?_append (by decide : Plain []) closed

/-- The key of a text of the table is resolved to one with the next text as its default. -/
theorem Deeper.key_eq {n depth : Nat} {cut : Cut} (h : Deeper depth visiting)
    (found : firstPlaceholder? (endlessText depth) = some cut)
    (key : Resolves mode (endless n).property (cut.placeholder :: visiting) cut.placeholder
      cut.inner r) :
    cut.placeholder = String.ofList (endlessInner depth) ∧
      r = .ok ('x' :: separator :: endlessText (depth + 1)) := by
  obtain rfl := Option.some.inj ((firstPlaceholder?_endlessText depth).symm.trans found)
  exact ⟨rfl, key.unique (resolves_endlessInner fun c => h.cons.not_mem_letter c)⟩

/-- The value of the key at a depth is its default, the text at that depth. -/
theorem valueOf_endless (n depth : Nat) :
    valueOf (endless n).property (String.ofList ('x' :: separator :: endlessText depth)) =
      some (String.ofList (endlessText depth)) := by
  have hkey : (endless n).property (String.ofList ('x' :: separator :: endlessText depth)) = none :=
    property_endless_eq_none (by simp)
  have hx : (endless n).property (String.ofList ['x']) = none := rfl
  have hsplit : splitDefault? (String.ofList ('x' :: separator :: endlessText depth)) =
      some (String.ofList ['x'], String.ofList (endlessText depth)) := by
    rw [splitDefault?, String.toList_ofList]
    rfl
  simp only [valueOf, hkey, hsplit, Option.map_some, hx, Option.getD_none]

/-- A text of the table has no answer : its only placeholder is replaced by the next text. -/
theorem not_resolves_endlessText {n : Nat}
    (h : Resolves mode (endless n).property visiting whole cs r) :
    ∀ depth, cs = endlessText depth → ¬Deeper depth visiting := by
  -- The value at a depth is the text at the next one, so whatever derives an answer has a part that
  -- derives one further down.
  induction h with
  | plain found =>
    rintro depth rfl -
    cases (firstPlaceholder?_endlessText depth).symm.trans found
  | repeated found met =>
    rintro depth rfl hd
    obtain rfl := Option.some.inj ((firstPlaceholder?_endlessText depth).symm.trans found)
    exact hd.not_mem_inner met
  | keyError found new key ih =>
    rintro depth rfl hd
    cases (hd.key_eq found key).2
  | valueError found new key known inner ihk ihv =>
    rintro depth rfl hd
    obtain ⟨hp, hkey⟩ := hd.key_eq found key
    obtain rfl := Except.ok.inj hkey
    obtain rfl := Option.some.inj ((valueOf_endless n (depth + 1)).symm.trans known)
    exact ihv (depth + 1) String.toList_ofList (hp ▸ hd.cons)
  | replaced found new key known inner behind ihk ihv ihr =>
    rintro depth rfl hd
    obtain ⟨hp, hkey⟩ := hd.key_eq found key
    obtain rfl := Except.ok.inj hkey
    obtain rfl := Option.some.inj ((valueOf_endless n (depth + 1)).symm.trans known)
    exact ihv (depth + 1) String.toList_ofList (hp ▸ hd.cons)
  | missing required found new key unknown ih =>
    rintro depth rfl hd
    obtain rfl := Except.ok.inj (hd.key_eq found key).2
    cases (valueOf_endless n (depth + 1)).symm.trans unknown
  | kept lenient found new key unknown behind ihk ihr =>
    rintro depth rfl hd
    obtain rfl := Except.ok.inj (hd.key_eq found key).2
    cases (valueOf_endless n (depth + 1)).symm.trans unknown

/-- The resolution on the table has no answer in either mode. -/
theorem resolve?_endless (mode : Mode) (n : Nat) :
    resolve? mode (endless n).property (String.ofList (endlessText 0)) = none := by
  rw [resolve?, Option.map_eq_none_iff, Option.eq_none_iff_forall_ne_some]
  intro r h
  refine not_resolves_endlessText (resolves_of_resolveFrom h) 0 String.toList_ofList ?_
  intro s hs
  cases hs

/-- With six properties a resolution can go on without end, whether or not values are
required. -/
theorem endless_resolution :
    resolve? .required (endless 300).property (String.ofList (endlessText 0)) = none ∧
      resolve? .lenient (endless 300).property (String.ofList (endlessText 0)) = none :=
  ⟨resolve?_endless .required 300, resolve?_endless .lenient 300⟩

end Blueprint.Placeholder
