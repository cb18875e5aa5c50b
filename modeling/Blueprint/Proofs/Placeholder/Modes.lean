import Blueprint.Proofs.Placeholder.Composition
import Mathlib.Logic.Relation

/-!
# Required and lenient resolutions

The two modes part where a placeholder has no value : there a required resolution ends with an error
and a lenient one goes on. Up to that place they see the same texts, so a required answer is also
the lenient one (`Resolves.lenient`), and a lenient answer is either the required one or comes after
a required error (`Resolves.required_or_error`).

What is left to a lenient resolution to complain of is a placeholder that comes back. A `Stage` is a
text on its way, `Enters` goes from it to a text that is resolved for its first placeholder, the key
or the value, and `Next` also to the text behind that placeholder. `FoundAgain` says that a
placeholder is met at a stage that comes from its own key or value (`Resolves.finds`).
-/

namespace Blueprint.Placeholder

open Relation

variable {mode : Mode} {lookup : String → Option String} {visiting : List String} {whole : String}
  {cs text : List Char} {r : Except Unresolved (List Char)} {e : Unresolved}

/-! ## The same answers -/

/-- A required answer that is no error is the lenient one. -/
theorem Resolves.lenient (h : Resolves .required lookup visiting whole cs (.ok text)) :
    Resolves .lenient lookup visiting whole cs (.ok text) := by
  generalize hr : Except.ok text = r at h
  induction h generalizing text with
  | plain found => exact .plain found
  | repeated | keyError | valueError | missing => cases hr
  | @replaced _ _ _ _ _ _ _ rest found new _ known _ _ ihk ihv ihr =>
    cases rest with
    | error e => cases hr
    | ok after => exact .replaced found new (ihk rfl) known (ihv rfl) (ihr rfl)
  | kept lenient => cases lenient

/-- A lenient answer is the required one, unless something is required that has no value. -/
theorem Resolves.required_or_error (h : Resolves .lenient lookup visiting whole cs r) :
    Resolves .required lookup visiting whole cs r ∨
      ∃ e, Resolves .required lookup visiting whole cs (.error e) := by
  induction h with
  | plain found => exact .inl (.plain found)
  | repeated found met => exact .inl (.repeated found met)
  | keyError found new _ ih =>
    rcases ih with hkey | ⟨e, hkey⟩
    · exact .inl (.keyError found new hkey)
    · exact .inr ⟨e, .keyError found new hkey⟩
  | valueError found new _ known _ ihk ihv =>
    rcases ihk with hkey | ⟨e, hkey⟩
    · rcases ihv with hvalue | ⟨e, hvalue⟩
      · exact .inl (.valueError found new hkey known hvalue)
      · exact .inr ⟨e, .valueError found new hkey known hvalue⟩
    · exact .inr ⟨e, .keyError found new hkey⟩
  | replaced found new _ known _ _ ihk ihv ihr =>
    rcases ihk with hkey | ⟨e, hkey⟩
    · rcases ihv with hvalue | ⟨e, hvalue⟩
      · rcases ihr with hrest | ⟨e, hrest⟩
        · exact .inl (.replaced found new hkey known hvalue hrest)
        · exact .inr ⟨e, .replaced found new hkey known hvalue hrest⟩
      · exact .inr ⟨e, .valueError found new hkey known hvalue⟩
    · exact .inr ⟨e, .keyError found new hkey⟩
  | missing required => cases required
  | kept _ found new _ unknown _ ihk _ =>
    rcases ihk with hkey | ⟨e, hkey⟩
    · exact .inr ⟨_, .missing rfl found new hkey unknown⟩
    · exact .inr ⟨e, .keyError found new hkey⟩

/-! ## What a lenient resolution reports -/

/-- A text that is being resolved, with the placeholders that are being resolved around it. -/
structure Stage where
  visiting : List String
  whole : String
  cs : List Char

/-- The first placeholder of the text, whether or not it may be opened. -/
def Stage.ComesTo (s : Stage) (placeholder : String) : Prop :=
  ∃ cut, firstPlaceholder? s.cs = some cut ∧ cut.placeholder = placeholder

/-- The placeholder is opened, and the second stage is what is resolved for it. -/
inductive Stage.Enters (mode : Mode) (lookup : String → Option String) (s : Stage) :
    (placeholder : String) → Stage → Prop
  /-- What stands between the braces. -/
  | key {cut} (found : firstPlaceholder? s.cs = some cut) (new : cut.placeholder ∉ s.visiting) :
    Enters mode lookup s cut.placeholder
      ⟨cut.placeholder :: s.visiting, cut.placeholder, cut.inner⟩
  /-- The value of the key. -/
  | value {cut keyText value} (found : firstPlaceholder? s.cs = some cut)
    (new : cut.placeholder ∉ s.visiting)
    (key : Resolves mode lookup (cut.placeholder :: s.visiting) cut.placeholder cut.inner
      (.ok keyText))
    (known : valueOf lookup (String.ofList keyText) = some value) :
    Enters mode lookup s cut.placeholder ⟨cut.placeholder :: s.visiting, value, value.toList⟩

/-- What a resolution comes to from one stage. -/
inductive Stage.Next (mode : Mode) (lookup : String → Option String) (s : Stage) : Stage → Prop
  | inside {placeholder next} (enters : s.Enters mode lookup placeholder next) :
    Next mode lookup s next
  /-- Something was put in the place of the placeholder. -/
  | behind {cut put} (found : firstPlaceholder? s.cs = some cut)
    (done : Substitutes mode lookup s.visiting cut.inner put) :
    Next mode lookup s ⟨s.visiting, s.whole, cut.after⟩

/-- A resolution that starts at a stage opens the placeholder and comes to it again while it
resolves the key or the value of it. -/
def Stage.FindsAgain (mode : Mode) (lookup : String → Option String) (s : Stage)
    (placeholder : String) : Prop :=
  ∃ outer inner again, ReflTransGen (Next mode lookup) s outer ∧
    outer.Enters mode lookup placeholder inner ∧ ReflTransGen (Next mode lookup) inner again ∧
      again.ComesTo placeholder

/-- A resolution that starts at a stage comes to a placeholder that is being resolved around it. -/
def Stage.Returns (mode : Mode) (lookup : String → Option String) (s : Stage)
    (placeholder : String) : Prop :=
  placeholder ∈ s.visiting ∧ ∃ again, ReflTransGen (Next mode lookup) s again ∧
    again.ComesTo placeholder

namespace Stage

variable {s next : Stage} {p placeholder : String}

/-- What is found again from a later stage is found again. -/
theorem FindsAgain.head (hstep : s.Next mode lookup next) (h : next.FindsAgain mode lookup p) :
    s.FindsAgain mode lookup p := by
  obtain ⟨outer, inner, again, houter, rest⟩ := h
  exact ⟨outer, inner, again, .head hstep houter, rest⟩

/-- What comes back inside of an opened placeholder is that one or was being resolved before. -/
theorem Enters.finds (henters : s.Enters mode lookup placeholder next)
    (h : next.Returns mode lookup p ∨ next.FindsAgain mode lookup p) :
    s.Returns mode lookup p ∨ s.FindsAgain mode lookup p := by
  rcases h with ⟨hmem, again, hagain, hcomes⟩ | h
  · have hvisiting : next.visiting = placeholder :: s.visiting := by cases henters <;> rfl
    rw [hvisiting] at hmem
    rcases List.mem_cons.mp hmem with rfl | hmem
    · exact .inr ⟨s, next, again, .refl, henters, hagain, hcomes⟩
    · exact .inl ⟨hmem, again, .head (.inside henters) hagain, hcomes⟩
  · exact .inr (h.head (.inside henters))

/-- What comes back behind a placeholder comes back. -/
theorem finds_of_behind {cut : Cut} {put : List Char} (found : firstPlaceholder? s.cs = some cut)
    (done : Substitutes mode lookup s.visiting cut.inner put)
    (h : Returns mode lookup ⟨s.visiting, s.whole, cut.after⟩ p ∨
      FindsAgain mode lookup ⟨s.visiting, s.whole, cut.after⟩ p) :
    s.Returns mode lookup p ∨ s.FindsAgain mode lookup p := by
  rcases h with ⟨hmem, again, hagain, hcomes⟩ | h
  · exact .inl ⟨hmem, again, .head (.behind found done) hagain, hcomes⟩
  · exact .inr (h.head (.behind found done))

end Stage

/-- The placeholder that a lenient resolution reports was being resolved when it was met. -/
theorem Resolves.finds (h : Resolves .lenient lookup visiting whole cs (.error e)) :
    Stage.Returns .lenient lookup ⟨visiting, whole, cs⟩ e.placeholder ∨
      Stage.FindsAgain .lenient lookup ⟨visiting, whole, cs⟩ e.placeholder := by
  generalize hr : Except.error e = r at h
  induction h generalizing e with
  | plain => cases hr
  | @repeated _ _ _ cut found met =>
    cases hr
    exact .inl ⟨met, _, .refl, cut, found, rfl⟩
  | @keyError visiting whole cs cut _ found new _ ih =>
    exact (Stage.Enters.key (s := ⟨visiting, whole, cs⟩) found new).finds (ih hr)
  | @valueError visiting whole cs cut _ _ _ found new key known _ _ ih =>
    exact (Stage.Enters.value (s := ⟨visiting, whole, cs⟩) found new key known).finds (ih hr)
  | @replaced visiting whole cs cut _ _ _ rest found new key known inner _ _ _ ih =>
    cases rest with
    | ok after => cases hr
    | error e' =>
      cases hr
      exact Stage.finds_of_behind (s := ⟨visiting, whole, cs⟩) found (.value new key known inner)
        (ih rfl)
  | missing required => cases required
  | @kept visiting whole cs cut _ rest lenient found new key unknown _ _ ih =>
    cases rest with
    | ok after => cases hr
    | error e' =>
      cases hr
      exact Stage.finds_of_behind (s := ⟨visiting, whole, cs⟩) found (.kept lenient new key unknown)
        (ih rfl)

/-! ## Whole texts -/

/-- A placeholder of the text, or of what is resolved for it, is found again while it is being
resolved. -/
def FoundAgain (mode : Mode) (lookup : String → Option String) (text placeholder : String) : Prop :=
  Stage.FindsAgain mode lookup ⟨[], text, text.toList⟩ placeholder

/-- A text is the answer just if it is derived from the empty list of placeholders. -/
theorem resolve?_eq_ok_iff {text answer : String} : resolve? mode lookup text = some (.ok answer) ↔
    Resolves mode lookup [] text text.toList (.ok answer.toList) := by
  rw [← resolve_eq_ok_iff, resolve]
  rcases resolve? mode lookup text with _ | _ | _ <;> simp

/-- An error is the answer just if it is derived from the empty list of placeholders. -/
theorem resolve?_eq_error_iff {text : String} : resolve? mode lookup text = some (.error e) ↔
    Resolves mode lookup [] text text.toList (.error e) := by
  rw [← resolveFrom_eq_some_iff, resolve?, Option.map_eq_some_iff]
  constructor
  · rintro ⟨_ | _, h, heq⟩
    · cases heq
      exact h
    · cases heq
  · exact fun h => ⟨_, h, rfl⟩

/-- A text that is resolved when values are required has the same answer when they are not. If a
resolution that does not require them ends with an error, the placeholder it reports was found again
while it was being resolved, and the resolution that requires them ends with an error as well. -/
theorem modes_agree (lookup : String → Option String) (text : String) :
    (∀ answer, resolve? .required lookup text = some (.ok answer) →
      resolve? .lenient lookup text = some (.ok answer)) ∧
    ∀ e, resolve? .lenient lookup text = some (.error e) →
      FoundAgain .lenient lookup text e.placeholder ∧
        ∃ e', resolve? .required lookup text = some (.error e') := by
  refine ⟨fun answer h => ?_, fun e h => ?_⟩
  · exact resolve?_eq_ok_iff.mpr (resolve?_eq_ok_iff.mp h).lenient
  · have herror := resolve?_eq_error_iff.mp h
    refine ⟨herror.finds.resolve_left fun hreturns => List.not_mem_nil hreturns.1, ?_⟩
    rcases herror.required_or_error with h' | ⟨e', h'⟩
    · exact ⟨e, resolve?_eq_error_iff.mpr h'⟩
    · exact ⟨e', resolve?_eq_error_iff.mpr h'⟩

/-- Two properties that refer to each other. -/
def mutualReferences (key : String) : Option String :=
  if key = "a" then some "${b}" else if key = "b" then some "${a}" else none

/-- A default is taken in both modes. A placeholder without a value is left in its place by a
resolution that does not require one, which then comes to a reference that leads back to itself. -/
theorem modes_agree_mutualReferences :
    resolve? .required mutualReferences "${c:x}" = some (.ok "x") ∧
      resolve? .lenient mutualReferences "${c:x}" = some (.ok "x") ∧
      resolve? .lenient mutualReferences "${c}${a}" = some (.error ⟨"a", "${a}"⟩) ∧
      FoundAgain .lenient mutualReferences "${c}${a}" "a" ∧
      ∃ e, resolve? .required mutualReferences "${c}${a}" = some (.error e) := by
  have found_c : firstPlaceholder? "${c:x}".toList = some ⟨[], ['c', ':', 'x'], []⟩ := by decide
  have found_kept : firstPlaceholder? "${c}${a}".toList = some ⟨[], ['c'], "${a}".toList⟩ := by
    decide
  have found_a : firstPlaceholder? "${a}".toList = some ⟨[], ['a'], []⟩ := by decide
  have found_b : firstPlaceholder? "${b}".toList = some ⟨[], ['b'], []⟩ := by decide
  have known_a : valueOf mutualReferences (String.ofList ['a']) = some "${b}" := by decide
  have known_b : valueOf mutualReferences (String.ofList ['b']) = some "${a}" := by decide
  have known_c : valueOf mutualReferences (String.ofList ['c', ':', 'x']) = some "x" := by decide
  have fallback : Resolves .required mutualReferences [] "${c:x}" "${c:x}".toList
      (.ok "x".toList) := by
    have nothing : Resolves .required mutualReferences [] "${c:x}" [] (.ok []) :=
      .plain (by decide)
    exact .replaced found_c (by decide) (.plain (by decide)) known_c (.plain (by decide)) nothing
  have circle : Resolves .lenient mutualReferences [] "${c}${a}" "${a}".toList
      (.error ⟨"a", "${a}"⟩) :=
    .valueError found_a (by decide) (.plain (by decide)) known_a
      (.valueError found_b (by decide) (.plain (by decide)) known_b
        (.repeated found_a (by decide)))
  have reported : resolve? .lenient mutualReferences "${c}${a}" = some (.error ⟨"a", "${a}"⟩) :=
    resolve?_eq_error_iff.mpr
      (.kept rfl found_kept (by decide) (.plain (by decide)) (by decide) circle)
  exact ⟨resolve?_eq_ok_iff.mpr fallback,
    (modes_agree mutualReferences "${c:x}").1 "x" (resolve?_eq_ok_iff.mpr fallback), reported,
    (modes_agree mutualReferences "${c}${a}").2 _ reported⟩

end Blueprint.Placeholder
