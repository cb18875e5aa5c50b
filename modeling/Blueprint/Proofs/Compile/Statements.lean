import Blueprint.Proofs.Compile.Alike

/-!
# What a document states

The entries of an outline that take a number are what a document states (`Element.statements`). The
others mark where groups are skipped, entered and left, and leave nothing behind that is watched.
So a compilation depends on the statements of the documents alone : those of the document that is
compiled, and those of the documents that are read on the way (`compile_of_sameStatements`). It
makes no difference which groups the statements are in.
-/

namespace Blueprint

open Walk

/-- What a document states inside groups with some defaults. -/
def Element.statements (env : Environment) (enclosing : Defaults) (e : Element) :
    List OutlineEntry :=
  (e.outline env enclosing).filter (·.takesNumber)

/-- The documents state the same. -/
def SameStatements (env : Environment) (root root' : Element) : Prop :=
  root'.statements env {} = root.statements env {}

variable {R R' : Element → Element → Prop}

/-- The second source has a document wherever the first has one, and the two are related. -/
structure Source.Alike (R : Element → Element → Prop) (a b : Source) : Prop where
  load : b.load = a.load
  available : b.available = a.available
  depthLimit : b.depthLimit = a.depthLimit
  read : ∀ resource, (∃ cause, a.read resource = .error cause ∧ b.read resource = .error cause) ∨
    ∃ root root', a.read resource = .ok root ∧ b.read resource = .ok root' ∧ R root root'

theorem Source.Alike.refl (hR : ∀ root, R root root) (a : Source) : a.Alike R a where
  load := rfl
  available := rfl
  depthLimit := rfl
  read resource := by
    cases h : a.read resource with
    | error cause => exact .inl ⟨cause, rfl, rfl⟩
    | ok root => exact .inr ⟨root, root, rfl, rfl, hR root⟩

/-- Sources that are alike for a relation are alike for every weaker one. -/
theorem Source.Alike.mono {a b : Source} (h : a.Alike R b)
    (hR : ∀ root root', R root root' → R' root root') : a.Alike R' b where
  load := h.load
  available := h.available
  depthLimit := h.depthLimit
  read resource := (h.read resource).imp_right fun ⟨root, root', ha, hb, hroot⟩ =>
    ⟨root, root', ha, hb, hR root root' hroot⟩

/-- Libraries with related documents at the same locations. -/
theorem Library.source_alike {l l' : Library}
    (h : ∀ location, Option.Rel R (l.find? location) (l'.find? location)) :
    l.source.Alike R l'.source := by
  have hcontains : l'.contains = l.contains := by
    funext location
    have hfind := h location
    rw [Library.contains, Library.contains, ← Table.isSome_get?, ← Table.isSome_get?]
    rw [Library.find?, Library.find?] at hfind
    generalize l.documents.get? location = found, l'.documents.get? location = found' at hfind ⊢
    cases hfind <;> rfl
  refine ⟨?_, hcontains, Table.size_eq_of_contains fun location => congrFun hcontains location,
    fun resource => ?_⟩
  · funext location
    show l'.load location = l.load location
    rw [Library.load, Library.load, hcontains]
  · have hfind := h resource.location
    show (∃ cause, l.read resource = _ ∧ l'.read resource = _) ∨
      ∃ root root', l.read resource = _ ∧ l'.read resource = _ ∧ _
    rw [Library.read, Library.read]
    generalize l.find? resource.location = found,
      l'.find? resource.location = found' at hfind ⊢
    cases hfind with
    | none => exact .inl ⟨_, rfl, rfl⟩
    | some hroot => exact .inr ⟨_, _, rfl, rfl, hroot⟩

/-- The second compilation ends like the first and leaves the same registry, and apart from groups
the observer was told the same. -/
structure Compilation.Alike (a b : Compilation) : Prop where
  outcome : b.outcome = a.outcome
  registry : b.registry = a.registry
  notices : (b.notices.filter fun n => !n.ofGroup) = a.notices.filter fun n => !n.ofGroup

/-- The compiler with another source. -/
def Compiler.withSource (c : Compiler) (source : Source) : Compiler := { c with source }

namespace Compiler

variable {c : Compiler} {source : Source} {walk walk' : DocumentWalk}
  {base location : String} {index : Nat} {declared : Declared} {e root root' : Element}
  {entry : OutlineEntry}

/-! ## Entries

What an entry does is the same in all sessions that are alike. Imports apart, it is the same with
all sources. -/

/-- A mark leaves nothing that is watched. -/
theorem same_compileEntry_mark (hentry : entry.takesNumber = false) :
    Same (c.compileEntry walk base location index declared entry) (pure declared) := by
  cases entry with
  | skipped profiles => exact (same_emit_pure _).bind fun _ => same_pure declared
  | enter group =>
    exact (same_emit_pure _).bind fun _ =>
      (same_notify_of_group rfl).bind fun _ => same_pure declared
  | leave group => exact (same_notify_of_group rfl).bind fun _ => same_pure declared
  | _ => cases hentry

theorem same_registerDeclaration (read : Except Error Declaration) :
    Same (c.registerDeclaration e read) (c.registerDeclaration e read) := by
  cases read with
  | error cause => exact same_pure _
  | ok d =>
    refine (same_notify _).bind fun _ => ?_
    cases c.hooks.decorate e d with
    | error cause => exact same_pure _
    | ok d => exact (same_onRegistry _).bind fun _ => same_pure _

theorem same_reportComponent (outcome : Except Error Declaration) :
    Same (reportComponent location index e outcome) (reportComponent location index e outcome) := by
  cases outcome with
  | error cause => exact same_reject _ _ _ _
  | ok d => exact (same_emit _ _).bind fun _ => same_notify _

/-- A component is compiled alike wherever the same is kept of the session. -/
theorem same_compileComponent (defaults : Defaults) :
    Same (c.compileComponent declared location index e defaults)
      (c.compileComponent declared location index e defaults) := by
  refine same_get_bind fun s t hst => ?_
  rw [(Session.bare_eq_iff.mp hst).1]
  exact (same_trace _).bind fun _ =>
    (same_registerDeclaration _).bind fun _ => (same_reportComponent _).bind fun _ => same_pure _

theorem same_compileAlias :
    Same (compileAlias location index e) (compileAlias location index e) := by
  rw [compileAlias]
  split
  · refine (same_onRegistry _).bind fun outcome => ?_
    cases outcome with
    | error cause => exact same_reject _ _ _ _
    | ok _ => exact same_notify _
  · exact same_reject _ _ _ _
  · exact same_reject _ _ _ _

theorem same_compileCustom :
    Same (c.compileCustom location index e) (c.compileCustom location index e) := by
  refine (same_notify _).bind fun _ => (same_onRegistry _).bind fun outcome => ?_
  cases outcome with
  | error cause => exact same_reject _ _ _ _
  | ok _ => exact same_pure _

/-! ## Imports -/

/-- Both find related documents, or both miss them for the same reason. -/
theorem readDocument_of_alike (h : c.source.Alike R source) (target : String) :
    (∃ cause, c.readDocument target = .error cause ∧
        (c.withSource source).readDocument target = .error cause) ∨
      ∃ root root', c.readDocument target = .ok root ∧
        (c.withSource source).readDocument target = .ok root' ∧ R root root' := by
  simp only [readDocument, withSource, h.load]
  cases c.source.load target with
  | error cause => exact .inl ⟨_, rfl, rfl⟩
  | ok resource =>
    rcases h.read resource with ⟨cause, ha, hb⟩ | ⟨root, root', ha, hb, hroot⟩
    · exact .inl ⟨.importFailed target (.markup cause), by simp only [ha], by simp only [hb]⟩
    · exact .inr ⟨root, root', by simp only [ha], by simp only [hb], hroot⟩

/-- The walks compile related documents alike. -/
def SameWalks (R : Element → Element → Prop) (walk walk' : DocumentWalk) : Prop :=
  ∀ target root root', R root root' → Same (walk target root) (walk' target root')

/-- Related documents are compiled alike at whichever target they are found. -/
theorem same_compileTarget (h : c.source.Alike R source) (hwalk : SameWalks R walk walk')
    (location target : String) (fallback : Option String) :
    Same (c.compileTarget walk location target fallback)
      ((c.withSource source).compileTarget walk' location target fallback) := by
  refine same_get_bind fun s t hst => ?_
  rw [(Session.bare_eq_iff.mp hst).2.1]
  cases hopen : s.opened.contains target with
  | true =>
    simp only [hopen, if_true]
    exact same_throw (.importFailed target (.circular (s.opened ++ [target])))
  | false =>
    simp only [hopen, Bool.false_eq_true, if_false]
    rcases readDocument_of_alike h target with ⟨cause, ha, hb⟩ | ⟨root, root', ha, hb, hroot⟩
    · simp only [ha, hb]
      split
      · exact (same_emit _ _).bind fun _ => same_pure false
      · exact same_throw cause
    · simp only [ha, hb]
      exact (same_emit _ _).bind fun _ =>
        ((hwalk target root root' hroot).opening target).bind fun _ =>
          (same_notify _).bind fun _ => same_pure true

/-- An import is compiled alike with sources that are alike. -/
theorem same_compileImport (h : c.source.Alike R source) (hwalk : SameWalks R walk walk') :
    Same (c.compileImport walk base location e)
      ((c.withSource source).compileImport walk' base location e) := by
  have last := fun asked target =>
    (same_compileTarget h hwalk asked target none).bind fun _ => same_pure ()
  have hasked : (c.withSource source).importLocation = c.importLocation := rfl
  rw [compileImport, compileImport, hasked]
  cases c.importLocation location e with
  | error cause => exact same_throw cause
  | ok asked =>
    show Same (if c.standsAlone asked then _ else _) (if c.standsAlone asked then _ else _)
    split
    · exact last asked asked
    · simp only [withSource, h.available]
      split
      · refine (same_compileTarget h hwalk asked _ _).bind fun found => ?_
        cases found with
        | true => exact same_pure ()
        | false => exact last asked _
      · exact last asked _

/-! ## Documents -/

/-- Every entry is compiled alike with sources that are alike. -/
theorem same_compileEntry (h : c.source.Alike R source) (hwalk : SameWalks R walk walk')
    (entry : OutlineEntry) :
    Same (c.compileEntry walk base location index declared entry)
      ((c.withSource source).compileEntry walk' base location index declared entry) := by
  cases entry with
  | invalidDefaults cause => exact (same_reject _ _ _ _).bind fun _ => same_pure declared
  | component e defaults => exact same_compileComponent defaults
  | aliasing e => exact same_compileAlias.bind fun _ => same_pure declared
  | importing e => exact (same_compileImport h hwalk).bind fun _ => same_pure declared
  | custom e => exact same_compileCustom.bind fun _ => same_pure declared
  | skipped _ | enter _ | leave _ =>
    exact (same_compileEntry_mark rfl).trans (same_compileEntry_mark rfl).symm

/-- The marks can be left out. -/
theorem same_compileEntries_filter (h : c.source.Alike R source) (hwalk : SameWalks R walk walk')
    (base location : String) (index : Nat) (declared : Declared) (entries : List OutlineEntry) :
    Same (c.compileEntries walk base location index declared entries)
      ((c.withSource source).compileEntries walk' base location index declared
        (entries.filter (·.takesNumber))) := by
  induction entries generalizing index declared with
  | nil => exact same_pure _
  | cons entry entries ih =>
    cases hentry : entry.takesNumber with
    | true =>
      rw [List.filter_cons_of_pos hentry, compileEntries, compileEntries, hentry]
      exact (same_compileEntry h hwalk entry).bind fun _ => ih _ _
    | false =>
      rw [List.filter_cons_of_neg (by simp [hentry]), compileEntries, hentry]
      exact (same_compileEntry_mark hentry).bind (g := fun declared =>
        (c.withSource source).compileEntries walk' base location index declared _)
        fun _ => ih _ _

/-- Compiling documents that state the same is the same, from sources of which the documents state
the same. -/
theorem same_compileWithin (base : String) (depth : Nat) :
    ∀ {c : Compiler} {source : Source} {root root' : Element},
      c.source.Alike (SameStatements c.environment) source →
      SameStatements c.environment root root' → ∀ location,
        Same (c.compileWithin base depth location root)
          ((c.withSource source).compileWithin base depth location root') := by
  induction depth with
  | zero => exact fun _ _ location => same_throw (.importFailed location .tooDeep)
  | succ depth ih =>
    intro c source root root' h hroot location
    have hself : source.Alike (SameStatements c.environment) source :=
      .refl (R := SameStatements c.environment) (fun _ => rfl) source
    -- Both sides are the same as going through the statements with the second source.
    have hstatements := same_compileEntries_filter h (fun target _ _ hr => ih h hr target)
      base location 0 {} (root.outline c.environment {})
    have hstatements' := same_compileEntries_filter (c := c.withSource source) hself
      (fun target _ _ hr => ih (c := c.withSource source) hself hr target)
      base location 0 {} (root'.outline c.environment {})
    rw [SameStatements, Element.statements, Element.statements] at hroot
    rw [hroot] at hstatements'
    exact (hstatements.trans hstatements'.symm).bind fun _ => same_pure ()

/-- A compilation depends on what the documents state : the one that is compiled, and those that
are read for imports. -/
theorem compile_of_sameStatements (h : c.source.Alike (SameStatements c.environment) source)
    (hroot : SameStatements c.environment root root') (location : String) (registry : Registry) :
    (c.compile root location registry).value.Alike
      ((c.withSource source).compile root' location registry).value := by
  have hsame := same_compileWithin location (c.source.depthLimit + 1) h hroot location
  have hfrom : (c.withSource source).compileFrom location location root' =
      (c.withSource source).compileWithin location (c.source.depthLimit + 1) location root' := by
    rw [compileFrom, withSource, h.depthLimit]
  rw [value_compile, value_compile, hfrom, compileFrom]
  rcases hsame.ends (s := .start location registry) rfl with
    ⟨u, s, t, hrun, hrun', hst⟩ | ⟨e, s, t, hrun, hrun', hst⟩
  · obtain ⟨hregistry, -, hrejections, hnotices⟩ := Session.bare_eq_iff.mp hst
    rw [hrun, hrun']
    exact ⟨by simp only [hregistry, hrejections], hregistry, hnotices⟩
  · obtain ⟨hregistry, -, -, hnotices⟩ := Session.bare_eq_iff.mp hst
    rw [hrun, hrun']
    exact ⟨rfl, hregistry, hnotices⟩

end Compiler

end Blueprint
