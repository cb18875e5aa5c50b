import Blueprint.Proofs.Compile.Reached
import Mathlib.Logic.Relation

/-!
# The imports that a compilation follows

`Follows` is the graph of the imports that compiling a document followed : from one location to
another if a point at the first opened the document at the second. A path in it can be repeated
wherever its first document is compiled, because the target of an import does not depend on what is
open (`Follows.asks`). So a path that leads back to where it began would run into a document that is
open, and there is none if compiling does not fail (`not_transGen_follows`).

`imports_end` is the whole : compiling ends, with every document open once at most, and an import of
one that is open is always reported.
-/

namespace Blueprint

open Walk Relation

variable {c : Compiler} {l : Library} {base location : String} {root : Element} {start : Session}
  {p : Point} {index : Nat} {declared : Declared} {entries : List OutlineEntry} {s : Session}

namespace Compiler

/-- The document that compiling finds at a location, where `root` stands for `base`. -/
def documentAt? (l : Library) (base : String) (root : Element) (location : String) :
    Option Element :=
  if location = base then some root else l.find? location

/-- A document that an import opens is not the first one. -/
theorem documentAt?_of_findImport (root : Element) {opened : List String}
    (hs : Nested l base opened) {e : Element} {i : Import}
    (hfind : c.findImport l base location opened e = .ok i) :
    documentAt? l base root i.target = some i.root := by
  obtain ⟨-, -, hnot, hroot⟩ := findImport_eq_ok_iff.mp hfind
  rw [documentAt?, if_neg fun h : i.target = base => hnot (h ▸ hs.base_mem), hroot]

/-- What is left at a point belongs to the document at its location, which is open and was entered
before. -/
theorem Reached.document (hc : c.source = l.source) (hstart : Nested l base start.opened)
    (hp : c.Reached l base root start p) :
    p.location ∈ p.session.opened ∧ ∃ r s, documentAt? l base root p.location = some r ∧
      p.entries <:+ r.outline c.environment {} ∧
      c.Reached l base root start (c.first p.location r s) := by
  induction hp with
  | start => exact ⟨hstart.base_mem, root, start, if_pos rfl, List.suffix_rfl, .start⟩
  | next before done ih =>
    obtain ⟨hopen, r, s, hr, hsuffix, hentered⟩ := ih
    exact ⟨opened_of_compileEntry hc done ▸ hopen, r, s, hr,
      (List.suffix_cons _ _).trans hsuffix, hentered⟩
  | @enter location index declared e entries s i before found ih =>
    have hdocument := documentAt?_of_findImport root (before.nested hc hstart) found
    exact ⟨List.mem_append_right _ List.mem_cons_self, i.root, s.entering i, hdocument,
      List.suffix_rfl, before.enter found⟩

/-- Compiling from one document came to an import in it that opened another. -/
def Follows (c : Compiler) (l : Library) (base : String) (root : Element) (start : Session)
    (a b : String) : Prop :=
  ∃ p e rest i, c.Reached l base root start p ∧ p.location = a ∧ p.entries = .importing e :: rest ∧
    c.findImport l base a p.session.opened e = .ok i ∧ i.target = b

/-- A document has an import of another, whether it is followed or not. -/
def Asks (c : Compiler) (l : Library) (base : String) (root : Element) (a b : String) : Prop :=
  ∃ r e asked, documentAt? l base root a = some r ∧ .importing e ∈ r.outline c.environment {} ∧
    c.importLocation a e = .ok asked ∧ c.importTarget base a asked = b

/-- An import that was followed leads to its target whatever is open. -/
theorem Follows.asks {a b : String} (hc : c.source = l.source) (hstart : Nested l base start.opened)
    (h : c.Follows l base root start a b) : c.Asks l base root a b := by
  obtain ⟨p, e, rest, i, hp, rfl, hentries, hfind, rfl⟩ := h
  obtain ⟨-, r, s, hr, hsuffix, -⟩ := hp.document hc hstart
  obtain ⟨hasked, htarget, -, -⟩ := findImport_eq_ok_iff.mp hfind
  exact ⟨r, e, i.location, hr, hsuffix.subset (hentries ▸ List.mem_cons_self), hasked, htarget⟩

/-- Where the entries of a document do not fail, each import among them was compiled. -/
theorem exists_of_mem_entries (hc : c.source = l.source) {e : Element}
    (hok : failure? (c.compileRest base ⟨location, index, declared, entries, s⟩) s = none)
    (he : .importing e ∈ entries) : ∃ s', s'.opened = s.opened ∧
      failure? (c.compileImport (c.compileFrom base) base location e) s' = none := by
  induction entries generalizing index declared s with
  | nil => cases he
  | cons entry entries ih =>
    cases hentry : c.compileEntry (c.compileFrom base) base location index declared entry s with
    | ok declared' t =>
      rcases List.mem_cons.mp he with rfl | hlater
      · exact ⟨s, rfl, (failure?_bind_pure _ _ _).symm.trans (failure?_of_ok hentry)⟩
      · obtain ⟨s', hs', himport⟩ := ih ((failure?_bind_of_ok hentry).symm.trans hok) hlater
        exact ⟨s', hs'.trans (opened_of_compileEntry hc hentry), himport⟩
    | error cause t =>
      have hfail := failure?_bind_of_some (failure?_of_error hentry) |>.symm.trans hok
      cases hfail

/-- No document that is open can be asked for, over any number of imports, by one that does not
fail. -/
theorem not_mem_opened_of_asks (hc : c.source = l.source) {a b : String}
    (hpath : TransGen (c.Asks l base root) a b) : ∀ {r : Element} {s : Session},
      documentAt? l base root a = some r → Nested l base s.opened →
      failure? (c.compileFrom base a r) s = none → b ∉ s.opened := by
  -- What the first import of the path opens does not fail either.
  have first_import {a b : String} (hasks : c.Asks l base root a b) {r : Element} {s : Session}
      (hr : documentAt? l base root a = some r) (hs : Nested l base s.opened)
      (hok : failure? (c.compileFrom base a r) s = none) : b ∉ s.opened ∧ ∃ r' s',
        documentAt? l base root b = some r' ∧ s'.opened = s.opened ++ [b] ∧
          Nested l base s'.opened ∧ failure? (c.compileFrom base b r') s' = none := by
    obtain ⟨r', e, asked, hr', he, hasked, rfl⟩ := hasks
    obtain rfl := Option.some.inj (hr.symm.trans hr')
    rw [failure?_compileFrom hc hs] at hok
    obtain ⟨s', hs', himport⟩ := exists_of_mem_entries hc hok he
    have hnested : Nested l base s'.opened := hs' ▸ hs
    rw [failure?_compileImport hc hnested] at himport
    cases hfind : c.findImport l base a s'.opened e with
    | error cause => simp [hfind] at himport
    | ok i =>
      rw [hfind] at himport
      have hdocument := documentAt?_of_findImport root hnested hfind
      obtain ⟨hasked', htarget, hnot, -⟩ := findImport_eq_ok_iff.mp hfind
      obtain rfl := Except.ok.inj (hasked.symm.trans hasked')
      rw [htarget]
      refine ⟨hs' ▸ hnot, i.root, s'.entering i, hdocument, ?_, hnested.entering hfind, ?_⟩
      · rw [Session.entering, hs']
      · rw [failure?_compileFrom hc (hnested.entering hfind)]
        exact himport
  induction hpath using TransGen.head_induction_on with
  | single hasks => exact fun hr hs hok => (first_import hasks hr hs hok).1
  | head hasks _ ih =>
    intro r s hr hs hok
    obtain ⟨-, r', s', hr', hopened, hs', hok'⟩ := first_import hasks hr hs hok
    have hnot := ih hr' hs' hok'
    rw [hopened] at hnot
    exact fun hmem => hnot (List.mem_append_left _ hmem)

/-- If compiling does not fail, no path of followed imports leads back to where it began. -/
theorem not_transGen_follows (hc : c.source = l.source) (hstart : Nested l base start.opened)
    (hok : failure? (c.compileFrom base base root) start = none) (a : String) :
    ¬ TransGen (c.Follows l base root start) a a := by
  intro hcycle
  obtain ⟨b, hfirst, -⟩ := TransGen.head'_iff.mp hcycle
  obtain ⟨p, -, -, -, hp, rfl, -⟩ := hfirst
  obtain ⟨-, r, s, hr, -, hentered⟩ := hp.document hc hstart
  have hopen := (hentered.document hc hstart).1
  have hs : Nested l base s.opened := hentered.nested hc hstart
  have hdocument : failure? (c.compileFrom base p.location r) s = none := by
    rw [failure?_compileFrom hc hs]
    cases hfail : failure? (c.compileRest base (c.first p.location r s)) s with
    | none => rfl
    | some cause => simp [hentered.failure? hc hstart hfail] at hok
  have hasks : TransGen (c.Asks l base root) p.location p.location :=
    TransGen.mono (fun _ _ h => Follows.asks hc hstart h) _ _ hcycle
  exact not_mem_opened_of_asks hc hasks hr hs hdocument hopen

/-! ## Whole compilations -/

/-- A compilation that is broken off answers with the reason. -/
theorem outcome_compile_of_failure? {registry : Registry} {cause : Error}
    (h : failure? (c.compileFrom base base root) (.start base registry) = some cause) :
    (c.compile root base registry).value.outcome = .error cause := by
  rw [value_compile]
  cases hrun : c.compileFrom base base root (.start base registry) with
  | ok u s => simp [failure?_of_ok hrun] at h
  | error cause' s =>
    rw [failure?_of_error hrun] at h
    exact congrArg Except.error (Option.some.inj h)

/-- Compiling fails as the walk fails, or because of the invalid declarations it met. -/
theorem failure?_or_rejected {registry : Registry} {cause : Error}
    (h : (c.compile root base registry).value.outcome = .error cause) :
    failure? (c.compileFrom base base root) (.start base registry) = some cause ∨
      ∃ rejections, cause = .rejected base rejections := by
  rw [value_compile] at h
  cases hrun : c.compileFrom base base root (.start base registry) with
  | ok u s =>
    rw [hrun] at h
    dsimp only at h
    split at h
    · cases h
    · exact .inr ⟨_, (Except.error.inj h).symm⟩
  | error cause' s =>
    rw [hrun] at h
    rw [failure?_of_error hrun]
    exact .inl (congrArg some (Except.error.inj h))

/-- A compilation that succeeds was not broken off. -/
theorem failure?_of_outcome_ok {registry : Registry} {n : Nat}
    (h : (c.compile root base registry).value.outcome = .ok n) :
    failure? (c.compileFrom base base root) (.start base registry) = none := by
  cases hfail : failure? (c.compileFrom base base root) (.start base registry) with
  | none => rfl
  | some cause => cases (outcome_compile_of_failure? hfail).symm.trans h

/-- What can be said about the documents that are open while a document is compiled. -/
structure ImportsEnd (c : Compiler) (l : Library) (base : String) (root : Element)
    (registry : Registry) : Prop where
  /-- Compiling does not go deeper than there are documents, however deep it may. -/
  deeper : ∀ depth, l.size < depth →
    c.compileWithin base depth base root (.start base registry) =
      c.compileFrom base base root (.start base registry)
  /-- If it gives no count, it tells an import that finds no document, or invalid declarations. -/
  failure : ∀ cause, (c.compile root base registry).value.outcome = .error cause →
    ImportFailure cause ∨ ∃ rejections, cause = .rejected base rejections
  /-- No document is open twice, and so there are not more than all. -/
  distinct : ∀ p, c.Reached l base root (.start base registry) p →
    p.session.opened.Nodup ∧ p.session.opened.length ≤ l.size + 1
  /-- An import leaves those documents open that were, also when it fails. -/
  restored : ∀ p e rest, c.Reached l base root (.start base registry) p →
    p.entries = .importing e :: rest →
    (final (c.compileImport (c.compileFrom base) base p.location e) p.session).opened =
      p.session.opened
  /-- An import of a document that is open is what compiling fails with. -/
  circular : ∀ p e rest asked, c.Reached l base root (.start base registry) p →
    p.entries = .importing e :: rest → c.importLocation p.location e = .ok asked →
    c.importTarget base p.location asked ∈ p.session.opened →
    (c.compile root base registry).value.outcome =
      .error (.importFailed (c.importTarget base p.location asked)
        (.circular (p.session.opened ++ [c.importTarget base p.location asked])))
  /-- Otherwise the imports that were followed make no cycle. -/
  acyclic : ((∃ n, (c.compile root base registry).value.outcome = .ok n) ∨
      ∃ rejections, (c.compile root base registry).value.outcome =
        .error (.rejected base rejections)) →
    ∀ a, ¬ TransGen (c.Follows l base root (.start base registry)) a a

/-- Compiling a document from a library ends, and reports every import of a document that is open,
if resolving the placeholders of the imports ends. -/
theorem imports_end (hc : c.source = l.source) (hroot : c.Resolvable root)
    (hstored : ∀ location document, l.find? location = some document → c.Resolvable document)
    (base : String) (registry : Registry) : ImportsEnd c l base root registry := by
  have hstart : Nested l base (Session.start base registry).opened := .singleton l base
  have hlimit : c.source.depthLimit = l.size := by rw [hc]; rfl
  have hfailure : ∀ cause, failure? (c.compileFrom base base root) (.start base registry) =
      some cause → ImportFailure cause := by
    intro cause hfail
    rw [failure?_compileFrom hc hstart] at hfail
    obtain ⟨q, e, rest, hq, hentries, hfind⟩ := exists_failing_import hc hstart .start hfail
    obtain ⟨-, document, -, hdocument, hsuffix, -⟩ := hq.document hc hstart
    have hresolvable : c.Resolvable document := by
      rw [documentAt?] at hdocument
      split at hdocument
      · exact Option.some.inj hdocument ▸ hroot
      · exact hstored _ _ hdocument
    exact importFailure_of_findImport
      (hresolvable e · (hsuffix.subset (hentries ▸ List.mem_cons_self))) hfind
  refine ⟨fun depth hdepth => ?_, fun cause h => ?_, fun p hp => ?_, fun p e rest hp _ => ?_,
    fun p e rest asked hp hentries hasked hopen => ?_, fun h => ?_⟩
  · exact compileWithin_congr hc hstart (by simp [Session.start]; omega)
      (by simp [Session.start]; omega)
  · exact (failure?_or_rejected h).imp_left (hfailure cause)
  · have hnested := hp.nested hc hstart
    exact ⟨hnested.nodup, hnested.length_le⟩
  · exact (steady_compileImport hc (steady_compileFrom hc base) base p.location e p.session).opened
  · obtain ⟨location, index, declared, entries, s⟩ := p
    obtain rfl : entries = .importing e :: rest := hentries
    refine outcome_compile_of_failure? (hp.failure? hc hstart (failure?_compileRest_of_import ?_))
    rw [failure?_compileImport hc (hp.nested hc hstart), findImport, hasked]
    simp only [Library.importAt, if_pos hopen]
  · refine not_transGen_follows hc hstart ?_
    rcases h with ⟨n, h⟩ | ⟨rejections, h⟩
    · exact failure?_of_outcome_ok h
    · cases hfail : failure? (c.compileFrom base base root) (.start base registry) with
      | none => rfl
      | some cause =>
        have hcause := (outcome_compile_of_failure? hfail).symm.trans h
        cases Except.error.inj hcause ▸ hfailure cause hfail

/-! ## Two documents that import each other -/

end Compiler

/-- The root imports `part`, which imports it. -/
def Library.mutualImports : Library where
  documents := .ofList [("main", .components [.importing "part"]),
    ("part", .components [.importing "main"])]

namespace Compiler

/-- An import whose location holds no placeholder can be resolved. -/
theorem resolvable_importing (c : Compiler) {location : String} (h : IsLiteral location) :
    c.Resolvable (.components [.importing location]) := by
  obtain ⟨hgiven, -, -, hplain⟩ := h
  intro e raw he hraw
  have houtline : (Element.components [.importing location]).outline c.environment {} =
      [.enter (.components [.importing location]), .importing (.importing location),
        .leave (.components [.importing location])] := rfl
  obtain rfl : e = .importing location := by simpa [houtline] using he
  obtain rfl := Option.some.inj (hgiven.symm.trans hraw)
  simp [Placeholder.resolve?_of_none _ _ hplain]

/-- Compiling a document that begins with an import comes to it. -/
theorem Reached.first_import {asked : String} {elements : List Element}
    (hp : c.Reached l base root start
      (c.first location (.components (.importing asked :: elements)) s)) :
    ∃ index declared rest t, t.opened = s.opened ∧ c.Reached l base root start
      ⟨location, index, declared, .importing (.importing asked) :: rest, t⟩ := by
  have hentry : ∀ e, OutlineEntry.enter (.components (.importing asked :: elements)) ≠
    .importing e := by simp
  obtain ⟨declared, t, hdone, ht⟩ :=
    tame_compileEntry c (c.compileFrom base) base location 0 {} hentry s
  exact ⟨_, declared, _, t, ht.opened, hp.next hdone⟩

/-- The imports of both documents hold no placeholders. -/
theorem resolvable_mutualImports (c : Compiler) {location : String} {document : Element}
    (h : Library.mutualImports.find? location = some document) : c.Resolvable document := by
  have hmem : (location, document) ∈ Library.mutualImports.documents.entries :=
    Table.mem_entries_iff.mpr h
  have hentries : Library.mutualImports.documents.entries =
    [("main", .components [.importing "part"]), ("part", .components [.importing "main"])] := rfl
  rw [hentries] at hmem
  simp only [List.mem_cons, Prod.mk.injEq, List.not_mem_nil, or_false] at hmem
  rcases hmem with ⟨-, rfl⟩ | ⟨-, rfl⟩
  · exact resolvable_importing c (by decide)
  · exact resolvable_importing c (by decide)

theorem circular_mutualImports :
    ImportsEnd { source := Library.mutualImports.source } .mutualImports "main"
        (.components [.importing "part"]) {} ∧
      (({ source := Library.mutualImports.source } : Compiler).compile
        (.components [.importing "part"]) "main" {}).value.outcome =
          .error (.importFailed "main" (.circular ["main", "part", "main"])) := by
  generalize hcompiler : ({ source := Library.mutualImports.source } : Compiler) = c
  have hc : c.source = Library.mutualImports.source := by rw [← hcompiler]
  have htarget : c.importTarget "main" "main" "part" = "part" ∧
      c.importTarget "main" "part" "main" = "main" := by
    rw [← hcompiler]
    decide
  have hend := imports_end hc (resolvable_importing c (show IsLiteral "part" by decide))
    (fun _ _ h => resolvable_mutualImports c h) "main" {}
  refine ⟨hend, ?_⟩
  have hstart : c.Reached .mutualImports "main" (.components [.importing "part"])
      (.start "main" {}) (c.first "main" (.components [.importing "part"]) (.start "main" {})) :=
    .start
  obtain ⟨_, _, _, s, hs, atPart⟩ := hstart.first_import
  have inPart := atPart.enter (i := ⟨"part", "part", .components [.importing "main"]⟩)
    (findImport_eq_ok_iff.mpr ⟨importLocation_importing c _ (by decide), htarget.1,
      by simp [hs, Session.start], rfl⟩)
  obtain ⟨_, _, _, t, ht, atMain⟩ := inPart.first_import
  have hopened : t.opened = ["main", "part"] := by simp [ht, hs, Session.entering, Session.start]
  have houtcome := hend.circular _ _ _ "main" atMain rfl
    (importLocation_importing c _ (by decide)) (by simp [htarget.2, hopened])
  simpa [htarget.2, hopened] using houtcome

end Compiler

end Blueprint
