import Blueprint.Proofs.Compile.LastStatement

/-!
# What entries and imports do to a session

Whatever the hooks and the source are, carrying out an entry that is no import changes the registry
by at most one operation (`Compiler.Writes`), and notes a rejection only for a reason of its own
(`Compiler.Refuses`). Both together are its `Compiler.Effect`
(`exists_effect_compileEntry`). An import compiles at most one document, and does nothing else to
the registry and the rejections (`level_or_opens_compileImport`).

So what all effects have in common holds from the beginning of a compilation to its end, even if
it fails at an import (`compileWithin_induction`).
-/

namespace Blueprint

open Walk

/-- Both sessions have the same registry and the same rejections. -/
structure Session.Level (s t : Session) : Prop where
  registry : t.registry = s.registry
  rejections : t.rejections = s.rejections

namespace Session.Level

theorem refl (s : Session) : s.Level s := ⟨rfl, rfl⟩

theorem trans {s t u : Session} (h : s.Level t) (h' : t.Level u) : s.Level u :=
  ⟨h'.registry.trans h.registry, h'.rejections.trans h.rejections⟩

end Session.Level

namespace Compiler

/-! ## Effects -/

/-- What an entry of the document at a location may make of a registry. -/
inductive Writes (c : Compiler) (location : String) (r : Registry) : Registry → Prop
  | nothing : Writes c location r r
  | declaration (d : Declaration) : Writes c location r (r.declare d).value.2
  | aliasing (name aliasName : String) :
      Writes c location r (r.registerAlias name aliasName).value.2
  | custom (e : Element) : Writes c location r (c.hooks.handle e location r).value.2

/-- Why an entry of the document at a location is refused, when its document has declared some
names and some registry is there, and the name that it is reported with. -/
inductive Refuses (c : Compiler) (location : String) (declared : Declared) (r : Registry) :
    OutlineEntry → (name : Option String) → (cause : Error) → Prop
  | invalidDefaults (cause : Error) :
      Refuses c location declared r (.invalidDefaults cause) none cause
  /-- The component cannot be read. -/
  | unread {e : Element} {defaults : Defaults} {cause : Error}
      (read : (declared.readComponent r.names location defaults e).value.1 = .error cause) :
      Refuses c location declared r (.component e defaults) (e.given "id") cause
  /-- The hooks refuse the component. -/
  | vetoed {e : Element} {defaults : Defaults} {d : Declaration} {cause : Error}
      (read : (declared.readComponent r.names location defaults e).value.1 = .ok d)
      (veto : c.hooks.decorate e d = .error cause) :
      Refuses c location declared r (.component e defaults) (e.given "id") cause
  /-- The registry refuses what the hooks make of the component. -/
  | unregistered {e : Element} {defaults : Defaults} {d d' : Declaration} {cause : Error}
      (read : (declared.readComponent r.names location defaults e).value.1 = .ok d)
      (decorated : c.hooks.decorate e d = .ok d')
      (refused : (r.declare d').value.1 = .error cause) :
      Refuses c location declared r (.component e defaults) (e.given "id") cause
  | unnamed {e : Element} (no_name : e.given "name" = none) :
      Refuses c location declared r (.aliasing e) none
        (.invalidAlias "" ((e.given "alias").getD "") .blankName)
  | noAlias {e : Element} {name : String} (name_given : e.given "name" = some name)
      (no_alias : e.given "alias" = none) :
      Refuses c location declared r (.aliasing e) (some name) (.invalidAlias name "" .blankAlias)
  /-- The registry refuses the alias. -/
  | unpointed {e : Element} {name aliasName : String} {cause : Error}
      (name_given : e.given "name" = some name) (alias_given : e.given "alias" = some aliasName)
      (refused : (r.registerAlias name aliasName).value.1 = .error cause) :
      Refuses c location declared r (.aliasing e) (some name) cause
  /-- The hooks refuse the element. -/
  | unhandled {e : Element} {cause : Error}
      (refused : (c.hooks.handle e location r).value.1 = .error cause) :
      Refuses c location declared r (.custom e) (some e.name) cause

/-- What carrying out an entry does. -/
structure Effect (c : Compiler) (location : String) (index : Nat) (declared : Declared)
    (entry : OutlineEntry) (s t : Session) : Prop where
  registry : c.Writes location s.registry t.registry
  rejections : t.rejections = s.rejections ∨ ∃ name cause,
    c.Refuses location declared s.registry entry name cause ∧
      t.rejections = s.rejections ++ [⟨location, index, name, cause⟩]

variable {c : Compiler} {walk : DocumentWalk} {base location : String} {index : Nat}
  {declared : Declared} {entry : OutlineEntry} {e : Element} {s t : Session}

/-- Where the registry and the rejections stay, any entry could have been carried out. -/
theorem Effect.of_level (h : s.Level t) : c.Effect location index declared entry s t :=
  ⟨h.registry ▸ .nothing, .inl h.rejections⟩

/-- A declaration that the hooks let pass is tried as they leave it. -/
theorem registerDeclaration_of_decorate {d d' : Declaration} (h : c.hooks.decorate e d = .ok d')
    (s : Session) :
    c.registerDeclaration e (.ok d) s = .ok ((s.registry.declare d').value.1.map fun _ => d')
      { s with
        registry := (s.registry.declare d').value.2
        notices := s.notices ++ [.decorating e.name d.name]
        events := s.events ++ (s.registry.declare d').events } := by
  simp only [registerDeclaration, h]
  rfl

/-- A component is tried once at most, and refused for one of three reasons. -/
theorem exists_effect_compileComponent (c : Compiler) (declared : Declared) (location : String)
    (index : Nat) (e : Element) (defaults : Defaults) (s : Session) :
    ∃ declared' t, c.compileComponent declared location index e defaults s = .ok declared' t ∧
      c.Effect location index declared (.component e defaults) s t := by
  rw [compileComponent_eq]
  cases hread : (declared.readComponent s.registry.names location defaults e).value.1 with
  | error cause => exact ⟨_, _, rfl, .nothing, .inr ⟨_, _, .unread hread, rfl⟩⟩
  | ok d =>
    cases hdecorate : c.hooks.decorate e d with
    | error cause =>
      simp only [registerDeclaration, hdecorate]
      exact ⟨_, _, rfl, .nothing, .inr ⟨_, _, .vetoed hread hdecorate, rfl⟩⟩
    | ok d' =>
      rw [bind_of_ok (registerDeclaration_of_decorate hdecorate _)]
      cases hanswer : (s.registry.declare d').value.1 with
      | error cause =>
        exact ⟨_, _, rfl, .declaration d', .inr ⟨_, _, .unregistered hread hdecorate hanswer, rfl⟩⟩
      | ok u => exact ⟨_, _, rfl, .declaration d', .inl rfl⟩

/-- An alias is pointed once at most, and refused if it is incomplete or by the registry. -/
theorem exists_effect_compileAlias (c : Compiler) (declared : Declared) (location : String)
    (index : Nat) (e : Element) (s : Session) :
    ∃ t, compileAlias location index e s = .ok () t ∧
      c.Effect location index declared (.aliasing e) s t := by
  rw [compileAlias]
  cases hname : e.given "name" with
  | none => exact ⟨_, rfl, .nothing, .inr ⟨_, _, .unnamed hname, rfl⟩⟩
  | some name =>
    cases halias : e.given "alias" with
    | none => exact ⟨_, rfl, .nothing, .inr ⟨_, _, .noAlias hname halias, rfl⟩⟩
    | some aliasName =>
      simp only
      rw [bind_of_ok (onRegistry_eq _ s)]
      cases hanswer : (s.registry.registerAlias name aliasName).value.1 with
      | error cause =>
        exact ⟨_, rfl, .aliasing name aliasName, .inr ⟨_, _, .unpointed hname halias hanswer, rfl⟩⟩
      | ok u => exact ⟨_, rfl, .aliasing name aliasName, .inl rfl⟩

/-- The hooks alone decide what an unknown element does. -/
theorem exists_effect_compileCustom (c : Compiler) (declared : Declared) (location : String)
    (index : Nat) (e : Element) (s : Session) :
    ∃ t, c.compileCustom location index e s = .ok () t ∧
      c.Effect location index declared (.custom e) s t := by
  have noticed : notify (.custom e.name location) s =
      .ok () { s with notices := s.notices ++ [.custom e.name location] } := rfl
  rw [compileCustom, bind_of_ok noticed, bind_of_ok (onRegistry_eq _ _)]
  cases hanswer : (c.hooks.handle e location s.registry).value.1 with
  | error cause => exact ⟨_, rfl, .custom e, .inr ⟨_, _, .unhandled hanswer, rfl⟩⟩
  | ok u => exact ⟨_, rfl, .custom e, .inl rfl⟩

/-- An entry that is no import is carried out, with an effect that belongs to it. -/
theorem exists_effect_compileEntry (c : Compiler) (walk : DocumentWalk) (base location : String)
    (index : Nat) (declared : Declared) (hentry : ∀ e, entry ≠ .importing e) (s : Session) :
    ∃ declared' t, c.compileEntry walk base location index declared entry s = .ok declared' t ∧
      c.Effect location index declared entry s t := by
  cases entry with
  | skipped profiles => exact ⟨_, _, rfl, .of_level ⟨rfl, rfl⟩⟩
  | invalidDefaults cause =>
    exact ⟨_, _, rfl, .nothing, .inr ⟨_, _, .invalidDefaults cause, rfl⟩⟩
  | enter group => exact ⟨_, _, rfl, .of_level ⟨rfl, rfl⟩⟩
  | leave group => exact ⟨_, _, rfl, .of_level ⟨rfl, rfl⟩⟩
  | component e defaults =>
    exact exists_effect_compileComponent c declared location index e defaults s
  | aliasing e =>
    obtain ⟨t, hrun, heffect⟩ := exists_effect_compileAlias c declared location index e s
    exact ⟨declared, t, bind_of_ok hrun, heffect⟩
  | importing e => exact absurd rfl (hentry e)
  | custom e =>
    obtain ⟨t, hrun, heffect⟩ := exists_effect_compileCustom c declared location index e s
    exact ⟨declared, t, bind_of_ok hrun, heffect⟩

/-! ## Imports -/

/-- One document is read and compiled from the first session on, and what it leaves of the registry
and the rejections is what the second session has. -/
def Opens (c : Compiler) (walk : DocumentWalk) (s t : Session) : Prop :=
  ∃ target root u, c.readDocument target = .ok root ∧ s.Level u ∧
    (final (walk target root) u).Level t

/-- A target is compiled, or nothing happens. There is another place to look at only if nothing
happened. -/
theorem level_or_opens_compileTarget (c : Compiler) (walk : DocumentWalk)
    (location target : String) (fallback : Option String) (s : Session) :
    s.Level (final (c.compileTarget walk location target fallback) s) ∨
      c.Opens walk s (final (c.compileTarget walk location target fallback) s) ∧
        ∀ t, c.compileTarget walk location target fallback s ≠ .ok false t := by
  rw [compileTarget, final, bind_of_ok (show (get : Walk Session) s = .ok s s from rfl)]
  cases hopen : s.opened.contains target with
  | true => exact .inl ⟨rfl, rfl⟩
  | false =>
    simp only [Bool.false_eq_true, if_false]
    cases hread : c.readDocument target with
    | error cause =>
      left
      cases fallback.any (· ≠ target) <;> exact ⟨rfl, rfl⟩
    | ok root =>
      right
      have announced : emit (.importing location target (s.opened.getLast?.getD "")) s = .ok ()
        { s with events := s.events ++ [.importing location target (s.opened.getLast?.getD "")] } :=
        rfl
      simp only
      rw [bind_of_ok announced]
      cases hwalk : walk target root (s.entering ⟨location, target, root⟩) with
      | ok u t =>
        rw [bind_of_ok (opening_of_ok target hwalk)]
        refine ⟨⟨target, root, s.entering ⟨location, target, root⟩, hread, ⟨rfl, rfl⟩, ?_⟩,
          fun t' h => by cases h⟩
        rw [final_of_ok hwalk]
        exact ⟨rfl, rfl⟩
      | error cause t =>
        rw [bind_of_error (opening_of_error target hwalk)]
        refine ⟨⟨target, root, s.entering ⟨location, target, root⟩, hread, ⟨rfl, rfl⟩, ?_⟩,
          fun t' h => by cases h⟩
        rw [final_of_error hwalk]
        exact ⟨rfl, rfl⟩

theorem Opens.of_level {u : Session} (h : s.Level t) (opens : c.Opens walk t u) :
    c.Opens walk s u := by
  obtain ⟨target, root, v, hread, hlevel, hfinal⟩ := opens
  exact ⟨target, root, v, hread, h.trans hlevel, hfinal⟩

/-- An import tries two places at most, and looks at the second only if the first changed nothing.
-/
theorem level_or_opens_compileImport (c : Compiler) (walk : DocumentWalk) (base document : String)
    (e : Element) (s : Session) :
    s.Level (final (c.compileImport walk base document e) s) ∨
      c.Opens walk s (final (c.compileImport walk base document e) s) := by
  rw [compileImport]
  cases c.importLocation document e with
  | error cause => exact .inl (.refl s)
  | ok location =>
    have last (target : String) (t : Session) :
        t.Level (final (c.compileTarget walk location target none >>= fun _ => pure ()) t) ∨
          c.Opens walk t
            (final (c.compileTarget walk location target none >>= fun _ => pure ()) t) := by
      rw [final_bind_pure]
      exact (level_or_opens_compileTarget c walk location target none t).imp_right And.left
    simp only
    split
    · exact last location s
    · split
      · -- The first place is tried, and the other one only if nothing happened there.
        have first := level_or_opens_compileTarget c walk location
          (Location.resolveRelative document location)
          (some (Location.resolveRelative base location)) s
        cases hrun : c.compileTarget walk location (Location.resolveRelative document location)
            (some (Location.resolveRelative base location)) s with
        | error cause t =>
          rw [final_of_error hrun] at first
          rw [final_bind_of_error hrun]
          exact first.imp_right And.left
        | ok found t =>
          rw [final_of_ok hrun] at first
          rw [final_bind_of_ok hrun]
          cases found with
          | true => exact first.imp_right And.left
          | false =>
            have hlevel : s.Level t := first.resolve_right fun h => h.2 t hrun
            exact (last _ t).imp hlevel.trans (.of_level hlevel)
      · exact last _ s

/-! ## Whole documents -/

/-- One more entry is carried out behind those that were carried out before. -/
theorem compileEntries_concat {entries : List OutlineEntry} {declared' declared'' : Declared}
    {index' : Nat} {u : Session}
    (run : c.compileEntries walk base location index declared entries s = .ok (index', declared') t)
    (last : c.compileEntry walk base location index' declared' entry t = .ok declared'' u) :
    c.compileEntries walk base location index declared (entries ++ [entry]) s =
      .ok (if entry.takesNumber then index' + 1 else index', declared'') u := by
  rw [compileEntries_append, bind_of_ok run, compileEntries, bind_of_ok last]
  rfl

section Induction

variable {R : Session → Session → Prop} {D : (location : String) → Element → Prop}

/-- What entries and imports do to sessions, step by step, the rest of the entries of a document
does. A step is taken with the entries that were carried out before it, so that it may depend on
them. -/
theorem compileEntries_induction {entries : List OutlineEntry} {start : Session}
    (level : ∀ {s t : Session}, s.Level t → R s t)
    (trans : ∀ {s t u : Session}, R s t → R t u → R s u)
    (imports : ∀ {s t : Session}, c.Opens walk s t → R s t)
    (step : ∀ {before after entry declared declared' s t}, entries = before ++ entry :: after →
      (∀ e, entry ≠ .importing e) →
      c.compileEntries walk base location 0 {} before start =
        .ok (before.countP (·.takesNumber), declared) s →
      c.compileEntry walk base location (before.countP (·.takesNumber)) declared entry s =
        .ok declared' t →
      c.Effect location (before.countP (·.takesNumber)) declared entry s t → R s t) :
    ∀ {before after : List OutlineEntry} {declared : Declared} {s : Session},
      entries = before ++ after →
      c.compileEntries walk base location 0 {} before start =
        .ok (before.countP (·.takesNumber), declared) s →
      R s (final (c.compileEntries walk base location (before.countP (·.takesNumber)) declared
        after) s) := by
  intro before after
  induction after generalizing before with
  | nil => exact fun _ _ => level (.refl _)
  | cons entry after ih =>
    intro declared s hentries hbefore
    have numbers : (if entry.takesNumber then before.countP (·.takesNumber) + 1
        else before.countP (·.takesNumber)) = (before ++ [entry]).countP (·.takesNumber) := by
      rw [List.countP_append, List.countP_singleton]
      split <;> rfl
    have rest {declared' : Declared} {t : Session}
        (done : c.compileEntry walk base location (before.countP (·.takesNumber)) declared entry s =
          .ok declared' t) :
        R t (final (c.compileEntries walk base location
          ((before ++ [entry]).countP (·.takesNumber)) declared' after) t) :=
      ih (by simp [hentries]) (numbers ▸ compileEntries_concat hbefore done)
    rw [compileEntries]
    -- Only an import can fail, and then nothing comes after it.
    by_cases himport : ∃ e, entry = .importing e
    · obtain ⟨e, rfl⟩ := himport
      have himported : R s (final (c.compileImport walk base location e) s) :=
        (level_or_opens_compileImport c walk base location e s).elim level imports
      cases hrun : c.compileImport walk base location e s with
      | ok u t =>
        have done : c.compileEntry walk base location (before.countP (·.takesNumber)) declared
            (.importing e) s = .ok declared t := bind_of_ok hrun
        rw [final_of_ok hrun] at himported
        rw [final_bind_of_ok done, numbers]
        exact trans himported (rest done)
      | error cause t =>
        have failed : c.compileEntry walk base location (before.countP (·.takesNumber)) declared
            (.importing e) s = .error cause t := bind_of_error hrun
        rw [final_of_error hrun] at himported
        rwa [final_bind_of_error failed]
    · have hentry : ∀ e, entry ≠ .importing e := fun e he => himport ⟨e, he⟩
      obtain ⟨declared', t, done, heffect⟩ := exists_effect_compileEntry c walk base location
        (before.countP (·.takesNumber)) declared hentry s
      rw [final_bind_of_ok done, numbers]
      exact trans (step hentries hentry hbefore done heffect) (rest done)

/-- What is so of sessions with the same registry and rejections, and of every entry that is carried
out when compiling its document comes to it, is so of compiling whole documents, if it goes on from
one session to the next. The documents can be confined to those with a property that every document
has that can be read. -/
theorem compileWithin_induction (level : ∀ {s t : Session}, s.Level t → R s t)
    (trans : ∀ {s t u : Session}, R s t → R t u → R s u)
    (read : ∀ {target root}, c.readDocument target = .ok root → D target root)
    (step : ∀ {depth location root before after entry declared declared' start s t},
      D location root →
      root.outline c.environment {} = before ++ entry :: after → (∀ e, entry ≠ .importing e) →
      c.compileEntries (c.compileWithin base depth) base location 0 {} before start =
        .ok (before.countP (·.takesNumber), declared) s →
      c.compileEntry (c.compileWithin base depth) base location (before.countP (·.takesNumber))
        declared entry s = .ok declared' t →
      c.Effect location (before.countP (·.takesNumber)) declared entry s t → R s t)
    (depth : Nat) {location : String} {root : Element} (doc : D location root) (s : Session) :
    R s (final (c.compileWithin base depth location root) s) := by
  induction depth generalizing location root s with
  | zero => exact level (.refl s)
  | succ depth ih =>
    have imports {s t : Session} (h : c.Opens (c.compileWithin base depth) s t) : R s t := by
      obtain ⟨target, root, u, hread, hlevel, hfinal⟩ := h
      exact trans (level hlevel) (trans (ih (read hread) u) (level hfinal))
    have walked := compileEntries_induction level trans imports (step doc)
      (List.nil_append _).symm (rfl : _ = EStateM.Result.ok _ s)
    exact (final_bind_pure (c.compileEntries _ base location 0 {} _) (fun _ => ()) s) ▸ walked

end Induction

end Compiler

end Blueprint
