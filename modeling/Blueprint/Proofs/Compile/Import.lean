import Blueprint.Proofs.Compile.Walk
import Blueprint.Proofs.Placeholder.Derivation

/-!
# Imports of a library

An import leads to one target, which its location and the stored documents decide.
`Compiler.findImport` is the document found there, or why there is none to compile : the target is
open already, or it is not stored. `compileImport_eq` says that an import compiles this document
while it is open, and does nothing else.

So the documents are open after an import that were open before, and so it is for every entry and
every document, also where compiling fails (`steady_compileEntry`, `steady_compileWithin`).
-/

namespace Blueprint

/-- What an import asks for, where that leads, and the document there. -/
structure Import where
  location : String
  target : String
  root : Element

namespace Session

/-- The session in which the document of an import is compiled. -/
def entering (s : Session) (i : Import) : Session :=
  { s with
    opened := s.opened ++ [i.target]
    events := s.events ++ [.importing i.location i.target (s.opened.getLast?.getD "")] }

/-- The session after the innermost document is closed. -/
def leaving (s : Session) : Session := { s with opened := s.opened.dropLast }

/-- The session after an import. -/
def imported (s : Session) (i : Import) : Session :=
  { s.leaving with notices := s.notices ++ [.imported i.location [i.target]] }

end Session

/-- The import of the document that is stored at a target, unless the document is open. -/
def Library.importAt (l : Library) (opened : List String) (location target : String) :
    Except Error Import :=
  if target ∈ opened then .error (.importFailed target (.circular (opened ++ [target])))
  else match l.find? target with
    | none => .error (.importFailed target (.resource (.notFound target)))
    | some root => .ok ⟨location, target, root⟩

namespace Compiler

open Walk

variable {c : Compiler} {l : Library} {walk : DocumentWalk} {base location target : String}
  {opened : List String} {index : Nat} {declared : Declared} {entry : OutlineEntry}
  {entries : List OutlineEntry} {e : Element} {i : Import} {s t : Session}

/-! ## Targets -/

/-- The location of the document that an import asks for : as it is, or beside its document if
something is there, or else beside the document that compiling started from. -/
def importTarget (c : Compiler) (base document location : String) : String :=
  if c.standsAlone location then location
  else if c.source.available (Location.resolveRelative document location) then
    Location.resolveRelative document location
  else Location.resolveRelative base location

/-- The document that an import has to compile, while some documents are open. -/
def findImport (c : Compiler) (l : Library) (base document : String) (opened : List String)
    (e : Element) : Except Error Import :=
  match c.importLocation document e with
  | .error cause => .error cause
  | .ok location => l.importAt opened location (c.importTarget base document location)

/-- What is found at a target is stored there and not open. -/
theorem importAt_eq_ok_iff : l.importAt opened location target = .ok i ↔
    i.location = location ∧ i.target = target ∧ target ∉ opened ∧ l.find? target = some i.root := by
  obtain ⟨location', target', root'⟩ := i
  rw [Library.importAt]
  split
  · simp_all
  · cases l.find? target <;> simp_all [eq_comm]

/-- What an import has to compile is stored where its location leads, and not open. -/
theorem findImport_eq_ok_iff : c.findImport l base location opened e = .ok i ↔
    c.importLocation location e = .ok i.location ∧
      c.importTarget base location i.location = i.target ∧ i.target ∉ opened ∧
      l.find? i.target = some i.root := by
  rw [findImport]
  cases c.importLocation location e with
  | error cause => simp
  | ok asked =>
    rw [importAt_eq_ok_iff]
    refine ⟨?_, ?_⟩
    · rintro ⟨rfl, htarget, hnot, hroot⟩
      exact ⟨rfl, htarget.symm, htarget ▸ hnot, htarget ▸ hroot⟩
    · rintro ⟨hasked, htarget, hnot, hroot⟩
      obtain rfl := Except.ok.inj hasked
      exact ⟨rfl, htarget.symm, htarget ▸ hnot, htarget ▸ hroot⟩

/-- A library reads what it stores and nothing else. -/
theorem readDocument_of_library (hc : c.source = l.source) (target : String) :
    c.readDocument target = match l.find? target with
      | some root => .ok root
      | none => .error (.importFailed target (.resource (.notFound target))) := by
  simp only [readDocument, hc, Library.source, Library.load, Library.read, Library.contains,
    Library.find?]
  cases h : l.documents.get? target with
  | none => simp [Table.get?_eq_none_iff.mp h]
  | some root => simp [Table.contains_of_get? h, h]

/-! ## Compiling an import -/

/-- What compiling an import does, once it is known what the import has to compile. -/
def carryOut (walk : DocumentWalk) (s : Session) :
    Except Error Import → EStateM.Result Error Session Unit
  | .error cause => .error cause s
  | .ok i =>
    match walk i.target i.root (s.entering i) with
    | .ok _ t => .ok () (t.imported i)
    | .error cause t => .error cause t.leaving

/-- A target for which there is no other place to look, because it is stored or the last one. -/
theorem compileTarget_eq (hc : c.source = l.source) (walk : DocumentWalk) (location : String)
    {fallback : Option String} (hlast : l.contains target = true ∨ fallback = none) (s : Session) :
    c.compileTarget walk location target fallback s =
      match carryOut walk s (l.importAt s.opened location target) with
      | .ok _ t => .ok true t
      | .error cause t => .error cause t := by
  rw [compileTarget, bind_of_ok (show (get : Walk Session) s = .ok s s from rfl),
    readDocument_of_library hc, Library.importAt]
  by_cases hopen : target ∈ s.opened
  · rw [if_pos hopen, if_pos (List.contains_iff_mem.mpr hopen)]
    rfl
  · rw [if_neg hopen, if_neg (fun h => hopen (List.contains_iff_mem.mp h))]
    cases hfind : l.find? target with
    | none =>
      have hnone : fallback = none :=
        hlast.resolve_left (by simp [Library.contains, Table.get?_eq_none_iff.mp hfind])
      rw [hnone]
      rfl
    | some root =>
      show (Walk.opening target (walk target root) >>= fun _ => _) _ = _
      simp only [carryOut]
      cases hwalk : walk target root (s.entering ⟨location, target, root⟩) with
      | ok u t =>
        rw [bind_of_ok (opening_of_ok target hwalk)]
        rfl
      | error cause t =>
        rw [bind_of_error (opening_of_error target hwalk)]
        rfl

/-- An import does what it has to, and whether there are two places to look at makes no difference.
-/
theorem compileImport_eq (hc : c.source = l.source) (walk : DocumentWalk) (base document : String)
    (e : Element) (s : Session) : c.compileImport walk base document e s =
      carryOut walk s (c.findImport l base document s.opened e) := by
  rw [compileImport, findImport]
  cases c.importLocation document e with
  | error cause => rfl
  | ok location =>
    -- The answer of an attempt that has to be the last one is not looked at.
    have discarded (target : String) {fallback : Option String}
        (hlast : l.contains target = true ∨ fallback = none) {k : Bool → Walk Unit}
        (hk : k true = pure ()) :
        (c.compileTarget walk location target fallback >>= k) s =
          carryOut walk s (l.importAt s.opened location target) := by
      have htarget := compileTarget_eq hc walk location hlast s
      cases hcarry : carryOut walk s (l.importAt s.opened location target) with
      | ok u t =>
        rw [hcarry] at htarget
        rw [bind_of_ok htarget, hk]
        rfl
      | error cause t =>
        rw [hcarry] at htarget
        rw [bind_of_error htarget]
    have last := fun target => discarded target (.inr rfl) (k := fun _ => pure ()) rfl
    simp only [importTarget]
    by_cases halone : c.standsAlone location = true
    · rw [if_pos halone, if_pos halone]
      exact last _
    · rw [if_neg halone, if_neg halone]
      by_cases hbeside : c.source.available (Location.resolveRelative document location) = true
      · rw [if_pos hbeside, if_pos hbeside]
        exact discarded _ (.inl (by rw [hc] at hbeside; exact hbeside)) rfl
      · rw [if_neg hbeside, if_neg hbeside]
        exact last _

/-- An import succeeds just if there is something to compile and compiling it succeeds. -/
theorem compileImport_eq_ok_iff (hc : c.source = l.source) {u : Unit} :
    c.compileImport walk base location e s = .ok u t ↔
      ∃ i t', c.findImport l base location s.opened e = .ok i ∧
        walk i.target i.root (s.entering i) = .ok () t' ∧ t'.imported i = t := by
  rw [compileImport_eq hc]
  cases c.findImport l base location s.opened e with
  | error cause => simp [carryOut]
  | ok i => cases hwalk : walk i.target i.root (s.entering i) <;> simp [carryOut, hwalk]

/-! ## Steadiness -/

/-- An import leaves the documents open that were, and takes no rejection back. -/
theorem steady_compileImport (hc : c.source = l.source)
    (hwalk : ∀ target root, Steady (walk target root)) (base document : String) (e : Element) :
    Steady (c.compileImport walk base document e) := by
  intro s
  rw [final, compileImport_eq hc]
  cases c.findImport l base document s.opened e with
  | error cause => exact .refl s
  | ok i =>
    have hrun := hwalk i.target i.root (s.entering i)
    have closed (t : Session) (ht : t.opened = s.opened ++ [i.target]) :
        t.opened.dropLast = s.opened := by
      rw [ht, List.dropLast_concat]
    rw [carryOut]
    cases hw : walk i.target i.root (s.entering i) with
    | ok u t =>
      rw [final_of_ok hw] at hrun
      exact ⟨closed t hrun.opened, hrun.rejections⟩
    | error cause t =>
      rw [final_of_error hw] at hrun
      exact ⟨closed t hrun.opened, hrun.rejections⟩

/-- Every entry leaves the documents open that were, and all but imports open nothing at all. -/
theorem steady_compileEntry (hc : c.source = l.source)
    (hwalk : ∀ target root, Steady (walk target root)) (base location : String) (index : Nat)
    (declared : Declared) (entry : OutlineEntry) :
    Steady (c.compileEntry walk base location index declared entry) := by
  by_cases himport : ∃ e, entry = .importing e
  · obtain ⟨e, rfl⟩ := himport
    exact (steady_compileImport hc hwalk base location e).bind fun _ => (tame_pure _).steady
  · exact (tame_compileEntry c walk base location index declared fun e h => himport ⟨e, h⟩).steady

theorem steady_compileEntries (hc : c.source = l.source)
    (hwalk : ∀ target root, Steady (walk target root)) (base location : String) (index : Nat)
    (declared : Declared) (entries : List OutlineEntry) :
    Steady (c.compileEntries walk base location index declared entries) := by
  induction entries generalizing index declared with
  | nil => exact (tame_pure _).steady
  | cons entry entries ih =>
    exact (steady_compileEntry hc hwalk base location index declared entry).bind fun _ => ih _ _

/-- Compiling a document leaves the documents open that were, however deep its imports go. -/
theorem steady_compileWithin (hc : c.source = l.source) (base : String) (depth : Nat)
    (location : String) (root : Element) : Steady (c.compileWithin base depth location root) := by
  induction depth generalizing location root with
  | zero => exact fun s => .refl s
  | succ depth ih =>
    exact (steady_compileEntries hc ih base location 0 {} _).bind fun _ => (tame_pure _).steady

end Compiler

/-! ## Import elements without placeholders -/

/-- A group of elements. -/
def Element.components (children : List Element) : Element := { name := "components", children }

/-- An element that imports the document at a location. -/
def Element.importing (location : String) : Element :=
  { name := "import", attributes := .ofList [("resource", location)] }

namespace Compiler

/-- An import element can name a location as it is. -/
def IsLiteral (location : String) : Prop :=
  (Element.importing location).given "resource" = some location ∧
    Text.trim location = location ∧ location.isEmpty = false ∧
    Placeholder.firstPlaceholder? location.toList = none
deriving Decidable

theorem importLocation_importing (c : Compiler) (document : String) {location : String}
    (h : IsLiteral location) : c.importLocation document (.importing location) = .ok location := by
  obtain ⟨hgiven, htrim, hne, hplain⟩ := h
  simp only [importLocation, hgiven, Environment.resolveRequired, Placeholder.resolve,
    Placeholder.resolve?_of_none _ _ hplain, htrim, hne, Bool.false_eq_true, if_false]

end Compiler

end Blueprint
