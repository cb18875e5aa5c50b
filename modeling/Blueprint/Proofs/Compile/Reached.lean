import Blueprint.Proofs.Compile.Depth

/-!
# The points that a compilation comes to

`Reached` are the points that compiling a document comes to : the entries of the document one after
the other, and at an import the entries of the document that it opens. At every point the open
documents are nested (`Reached.nested`).

A failure at a point ends the whole compilation (`Reached.failure?`), and only an import that finds
no document to compile fails (`exists_failing_import`). `ImportFailure` lists the reasons.
-/

namespace Blueprint

open Walk

/-- A document of which some entries are still to be compiled, in a session. -/
structure Point where
  location : String
  index : Nat
  declared : Declared
  entries : List OutlineEntry
  session : Session

namespace Compiler

/-- The point at which a document is opened. -/
def first (c : Compiler) (location : String) (root : Element) (s : Session) : Point :=
  ⟨location, 0, {}, root.outline c.environment {}, s⟩

/-- The points that compiling a document comes to in a library. -/
inductive Reached (c : Compiler) (l : Library) (base : String) (root : Element) (start : Session) :
    Point → Prop
  | start : Reached c l base root start (c.first base root start)
  /-- An entry was carried out. -/
  | next {location : String} {index : Nat} {declared declared' : Declared} {entry : OutlineEntry}
      {entries : List OutlineEntry} {s t : Session}
      (before : Reached c l base root start ⟨location, index, declared, entry :: entries, s⟩)
      (done : c.compileEntry (c.compileFrom base) base location index declared entry s =
        .ok declared' t) :
      Reached c l base root start
        ⟨location, if entry.takesNumber then index + 1 else index, declared', entries, t⟩
  /-- An import opens a document. -/
  | enter {location : String} {index : Nat} {declared : Declared} {e : Element}
      {entries : List OutlineEntry} {s : Session} {i : Import}
      (before : Reached c l base root start ⟨location, index, declared, .importing e :: entries, s⟩)
      (found : c.findImport l base location s.opened e = .ok i) :
      Reached c l base root start (c.first i.target i.root (s.entering i))

variable {c : Compiler} {l : Library} {base location : String} {root : Element} {start : Session}
  {p : Point} {index : Nat} {declared declared' : Declared} {entry : OutlineEntry}
  {entries : List OutlineEntry} {cause : Error} {s t : Session}

/-- Compiling what is left at a point. -/
def compileRest (c : Compiler) (base : String) (p : Point) : Walk (Nat × Declared) :=
  c.compileEntries (c.compileFrom base) base p.location p.index p.declared p.entries

/-- Entries that are carried out leave the same documents open. -/
theorem opened_of_compileEntry (hc : c.source = l.source)
    (done : c.compileEntry (c.compileFrom base) base location index declared entry s =
      .ok declared' t) : t.opened = s.opened := by
  have hsteady := steady_compileEntry hc (steady_compileFrom hc base) base location index
    declared entry s
  rw [final_of_ok done] at hsteady
  exact hsteady.opened

/-- At every point that compiling comes to, the open documents are nested. -/
theorem Reached.nested (hc : c.source = l.source) (hstart : Nested l base start.opened)
    (hp : c.Reached l base root start p) : Nested l base p.session.opened := by
  induction hp with
  | start => exact hstart
  | next before done ih => exact opened_of_compileEntry hc done ▸ ih
  | enter before found ih => exact ih.entering found

/-! ## Failures -/

/-- A document fails as its entries do. -/
theorem failure?_compileFrom (hc : c.source = l.source) (hs : Nested l base s.opened)
    (location : String) (root : Element) : failure? (c.compileFrom base location root) s =
      failure? (c.compileRest base (c.first location root s)) s := by
  rw [failure?, compileFrom_eq hc hs]
  exact failure?_bind_pure _ _ _

/-- An import fails if it finds no document to compile, or as the document does. -/
theorem failure?_compileImport (hc : c.source = l.source) (hs : Nested l base s.opened)
    (location : String) (e : Element) :
    failure? (c.compileImport (c.compileFrom base) base location e) s =
      match c.findImport l base location s.opened e with
      | .error cause => some cause
      | .ok i => failure? (c.compileRest base (c.first i.target i.root (s.entering i)))
          (s.entering i) := by
  rw [failure?, compileImport_eq hc]
  cases hfind : c.findImport l base location s.opened e with
  | error cause => rfl
  | ok i =>
    have hi := failure?_compileFrom hc (hs.entering hfind) i.target i.root
    rw [failure?] at hi
    simp only [carryOut, ← hi]
    cases c.compileFrom base i.target i.root (s.entering i) <;> rfl

/-- Where an import fails, the rest of the document is not compiled. -/
theorem failure?_compileRest_of_import {e : Element}
    (h : failure? (c.compileImport (c.compileFrom base) base location e) s = some cause) :
    failure? (c.compileRest base ⟨location, index, declared, .importing e :: entries, s⟩) s =
      some cause :=
  failure?_bind_of_some (failure?_bind_of_some h)

/-- What fails at a point fails altogether. -/
theorem Reached.failure? (hc : c.source = l.source) (hstart : Nested l base start.opened)
    (hp : c.Reached l base root start p)
    (hfail : Walk.failure? (c.compileRest base p) p.session = some cause) :
    Walk.failure? (c.compileFrom base base root) start = some cause := by
  induction hp with
  | start => exact (failure?_compileFrom hc hstart base root).trans hfail
  | next before done ih => exact ih ((failure?_bind_of_ok done).trans hfail)
  | @enter location index declared e entries s i before found ih =>
    have himport := failure?_compileImport hc (before.nested hc hstart) location e
    rw [found] at himport
    exact ih (failure?_compileRest_of_import (himport.trans hfail))

/-- Where compiling fails, it came to an import that finds no document to compile. -/
theorem exists_failing_import (hc : c.source = l.source) (hstart : Nested l base start.opened)
    (hp : c.Reached l base root start p)
    (hfail : failure? (c.compileRest base p) p.session = some cause) :
    ∃ q e rest, c.Reached l base root start q ∧ q.entries = .importing e :: rest ∧
      c.findImport l base q.location q.session.opened e = .error cause := by
  -- Entries are left behind one after the other, and a document that is opened is one less to open.
  induction hn : l.size + 1 - p.session.opened.length using Nat.strong_induction_on
    generalizing p with
  | _ n deeper =>
  obtain ⟨location, index, declared, entries, s⟩ := p
  induction entries generalizing index declared s with
  | nil => cases hfail
  | cons entry entries later =>
    cases hentry : c.compileEntry (c.compileFrom base) base location index declared entry s with
    | ok declared' t =>
      have hopened := opened_of_compileEntry hc hentry
      exact later _ _ _ (hp.next hentry) ((failure?_bind_of_ok hentry).symm.trans hfail)
        (by rw [← hn]; simp only [hopened])
    | error cause' t =>
      have hentry' := failure?_of_error hentry
      obtain rfl : cause' = cause :=
        Option.some.inj ((failure?_bind_of_some hentry').symm.trans hfail)
      obtain ⟨e, rfl, himport⟩ := exists_import_of_failure? hentry'
      have hs := hp.nested hc hstart
      rw [failure?_compileImport hc hs] at himport
      cases hfind : c.findImport l base location s.opened e with
      | error cause =>
        rw [hfind] at himport
        exact ⟨_, e, entries, hp, rfl, hfind.trans (congrArg _ (Option.some.inj himport))⟩
      | ok i =>
        rw [hfind] at himport
        have henter := hp.enter hfind
        have hlength : (s.entering i).opened.length = s.opened.length + 1 := by
          simp [Session.entering]
        have hle : (s.entering i).opened.length ≤ l.size + 1 := (henter.nested hc hstart).length_le
        refine deeper _ ?_ henter himport rfl
        rw [← hn]
        show l.size + 1 - (s.entering i).opened.length < l.size + 1 - s.opened.length
        omega

/-- Why an import finds no document to compile, if its placeholders can be resolved. -/
inductive ImportFailure : Error → Prop
  | invalid (fault : ImportFault) : ImportFailure (.invalidImport fault)
  | unresolved (placeholder text : String) : ImportFailure (.unresolved placeholder text)
  | circular (target : String) (opened : List String) :
      ImportFailure (.importFailed target (.circular (opened ++ [target])))
  | missing (target : String) :
      ImportFailure (.importFailed target (.resource (.notFound target)))

/-- Resolving the placeholders of the imports in a document ends. -/
def Resolvable (c : Compiler) (document : Element) : Prop :=
  ∀ e raw, .importing e ∈ document.outline c.environment {} → e.given "resource" = some raw →
    Placeholder.resolve? .required c.environment.property raw ≠ none

/-- An import without a location fails for the reason that its location has. -/
theorem importFailure_of_importLocation {e : Element}
    (hends : ∀ raw, e.given "resource" = some raw →
      Placeholder.resolve? .required c.environment.property raw ≠ none)
    (h : c.importLocation location e = .error cause) : ImportFailure cause := by
  rw [importLocation] at h
  split at h
  · cases h
    exact .invalid _
  · rename_i raw hraw
    rw [Environment.resolveRequired, Placeholder.resolve] at h
    split at h
    · rename_i cause' hcause
      cases h
      split at hcause
      · cases hcause
      · cases hcause
        exact .unresolved _ _
      · exact absurd ‹_› (hends raw hraw)
    · dsimp only at h
      split at h
      · cases h
        exact .invalid _
      · cases h

/-- An import finds no document if it has no location, or if its target is open or not stored. -/
theorem importFailure_of_findImport {opened : List String} {e : Element}
    (hends : ∀ raw, e.given "resource" = some raw →
      Placeholder.resolve? .required c.environment.property raw ≠ none)
    (h : c.findImport l base location opened e = .error cause) : ImportFailure cause := by
  rw [findImport] at h
  split at h
  · cases h
    exact importFailure_of_importLocation hends ‹_›
  · rw [Library.importAt] at h
    split at h
    · cases h
      exact .circular _ _
    · split at h
      · cases h
        exact .missing _
      · cases h

end Compiler

end Blueprint
