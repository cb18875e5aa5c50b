import Blueprint.Proofs.Compile.LastStatement
import Blueprint.Proofs.Declaration.Recipe
import Blueprint.Proofs.Registry.Introduction

/-!
# Compiling what was compiled before

What a document introduces can be read off its course if every component on it states its name
(`Occurrence.introductions`), because then no registry has a part in what an element means.

A run of a computation is `Replayed` if it introduces certain names into the registry of its
session, and if it would run the same way in every session with the same open documents whose
registry accepts these names. Replayed runs can be put one behind the other (`Replayed.bind`).

Compiling a document without a rejection is replayed if every component states its name
(`compositional_replayed`) : the registry has no part in what its elements mean, and the documents
that are imported are the same as before.
-/

namespace Blueprint

open Walk

/-! ## What occurrences introduce -/

namespace Occurrence

/-- What the element declares as a component, if it states a name. -/
def declaration? (o : Occurrence) : Option Declaration :=
  match Declared.statedNames o.element, o.definition with
  | (some name, aliases), .ok d => some ⟨name, aliases, d⟩
  | _, _ => none

/-- What the element introduces when nobody else takes part in that. -/
def introductions (o : Occurrence) : List Introduction :=
  match o.element.kind with
  | .component => (o.declaration?.map Declaration.introductions).getD []
  | .aliasing =>
    match o.element.given "name", o.element.given "alias" with
    | some name, some aliasName => [.aliasing aliasName name]
    | _, _ => []
  | .group | .importing | .custom => []

/-- The element is no component without a name of its own. -/
def Named (o : Occurrence) : Prop := o.element.kind = .component → o.name? ≠ none

instance (o : Occurrence) : Decidable o.Named :=
  inferInstanceAs (Decidable (o.element.kind = .component → o.name? ≠ none))

end Occurrence

/-! ## Replayed runs -/

/-- The session has another registry, and nothing else that later work depends on. -/
structure Session.Moves (s : Session) (r : Registry) (t : Session) : Prop where
  opened : t.opened = s.opened
  rejections : t.rejections = s.rejections
  registry : t.registry = r

theorem Session.Moves.trans {s t u : Session} {r r' : Registry} (h : s.Moves r t)
    (h' : t.Moves r' u) : s.Moves r' u :=
  ⟨h'.opened.trans h.opened, h'.rejections.trans h.rejections, h'.registry⟩

/-- A run that introduces some names, and that ends likewise wherever they can be introduced. -/
structure Replayed {α : Type} (x : Walk α) (s : Session) (a : α) (t : Session)
    (is : List Introduction) : Prop where
  run : x s = .ok a t
  introduced : Introduced s.registry is t.registry
  again : ∀ {s' : Session} {r : Registry}, s'.opened = s.opened → Introduced s'.registry is r →
    ∃ t', x s' = .ok a t' ∧ s'.Moves r t'

namespace Replayed

variable {α β : Type} {x : Walk α} {f : α → Walk β} {s t u : Session} {a : α} {b : β}
  {is js : List Introduction}

theorem moves (h : Replayed x s a t is) : s.Moves t.registry t := by
  obtain ⟨t', hrun, hmoves⟩ := h.again rfl h.introduced
  obtain ⟨-, rfl⟩ := EStateM.Result.ok.inj (hrun.symm.trans h.run)
  exact hmoves

/-- Replayed runs can be put one behind the other, and introduce what both do. -/
theorem bind (hx : Replayed x s a u is) (hf : Replayed (f a) u b t js) :
    Replayed (x >>= f) s b t (is ++ js) where
  run := (bind_of_ok hx.run).trans hf.run
  introduced := Introduced.append_iff.mpr ⟨u.registry, hx.introduced, hf.introduced⟩
  again hopened h := by
    obtain ⟨r', his, hjs⟩ := Introduced.append_iff.mp h
    obtain ⟨u', hrun, hmoves⟩ := hx.again hopened his
    obtain ⟨t', hrun', hmoves'⟩ := hf.again
      (hmoves.opened.trans (hopened.trans hx.moves.opened.symm)) (hmoves.registry.symm ▸ hjs)
    exact ⟨t', (bind_of_ok hrun).trans hrun', hmoves.trans hmoves'⟩

/-- What leaves the registry alone introduces nothing. -/
theorem of_quiet (hx : ∀ s, ∃ t, x s = .ok a t ∧ s.Moves s.registry t) (h : x s = .ok a t) :
    Replayed x s a t [] where
  run := h
  introduced := by
    obtain ⟨t', hrun, hmoves⟩ := hx s
    obtain ⟨-, rfl⟩ := EStateM.Result.ok.inj (hrun.symm.trans h)
    exact introduced_nil_iff.mpr hmoves.registry.symm
  again _ hnil := introduced_nil_iff.mp hnil ▸ hx _

theorem pure (a : α) (s : Session) : Replayed (Pure.pure a) s a s [] :=
  of_quiet (fun s => ⟨s, rfl, rfl, rfl, rfl⟩) rfl

theorem bind_pure (h : Replayed x s a t is) (b : α → β) :
    Replayed (x >>= fun a => Pure.pure (b a)) s (b a) t is := by
  have hall := h.bind (f := fun a => Pure.pure (b a)) (Replayed.pure (b a) t)
  rwa [List.append_nil] at hall

end Replayed

variable {c : Compiler} {l : Library} {walk : DocumentWalk} {base location : String} {index : Nat}
  {defaults : Defaults} {declared declared' : Declared} {e : Element} {s t : Session}
  {r : Registry}

namespace Compiler

/-! ## Elements -/

/-- A component that is read and accepted leaves no rejection, and the registry that accepted it. -/
theorem compileComponent_of_declare (hhooks : c.hooks = {}) (location : String) (index : Nat)
    {d : Declaration}
    (hread : (declared.readComponent s.registry.names location defaults e).value =
      (.ok d, declared'))
    (hdeclare : (s.registry.declare d).value = (.ok (), r)) :
    ∃ t, c.compileComponent declared location index e defaults s = .ok declared' t ∧
      s.Moves r t := by
  rw [compileComponent_eq, hread, bind_of_ok (registerDeclaration_of_ok hhooks e d _), hdeclare]
  exact ⟨_, rfl, rfl, rfl, rfl⟩

/-- What a component declares that was read with a name. -/
theorem introductions_of_readComponent (hkind : e.kind = .component)
    (hnamed : (⟨location, defaults, e⟩ : Occurrence).Named) {registered : Names} {d : Declaration}
    (h : (declared.readComponent registered location defaults e).value = (.ok d, declared')) :
    (⟨location, defaults, e⟩ : Occurrence).introductions = d.introductions ∧
      ∀ registered, (declared.readComponent registered location defaults e).value =
        (.ok d, declared') := by
  have hname : (Declared.statedNames e).1 ≠ none :=
    Declared.statedNames_fst e ▸ hnamed hkind
  rcases hstated : Declared.statedNames e with ⟨_ | name, aliases⟩
  · exact absurd (congrArg Prod.fst hstated) hname
  · rw [Declared.value_readComponent_of_stated hstated] at h
    refine ⟨?_, fun registered =>
      (Declared.value_readComponent_of_stated hstated registered).trans h⟩
    cases hd : e.toDefinition defaults location with
    | error cause => simp [hd, Except.map] at h
    | ok recipe =>
      simp only [hd, Except.map, Prod.mk.injEq, Except.ok.injEq] at h
      simp only [Occurrence.introductions, hkind, Occurrence.declaration?, hstated,
        Occurrence.definition, hd, Option.map_some, Option.getD_some, h.1]

/-- A component that states its name means the same to every registry. -/
theorem replayed_compileComponent (hhooks : c.hooks = {}) (hkind : e.kind = .component)
    (h : c.compileComponent declared location index e defaults s = .ok declared' t)
    (hclean : t.rejections = []) (hnamed : (⟨location, defaults, e⟩ : Occurrence).Named) :
    Replayed (c.compileComponent declared location index e defaults) s declared' t
      (⟨location, defaults, e⟩ : Occurrence).introductions := by
  obtain ⟨d, hread, hdeclare⟩ := of_compileComponent hhooks h hclean
  obtain ⟨hmeans, hreads⟩ := introductions_of_readComponent hkind hnamed hread
  rw [hmeans]
  exact {
    run := h
    introduced := declare_eq_ok_iff.mp hdeclare
    again := fun _ hagain => compileComponent_of_declare hhooks location index (hreads _)
      (declare_eq_ok_iff.mpr hagain) }

theorem compileAlias_of_given {name aliasName : String} (location : String) (index : Nat)
    (hname : e.given "name" = some name) (halias : e.given "alias" = some aliasName) :
    compileAlias location index e =
      (onRegistry (·.registerAlias name aliasName) >>= fun
        | .ok () => notify (.aliased name aliasName)
        | .error cause => reject location index (some name) cause) := by
  have h := compileAlias.eq_def location index e
  rw [hname, halias] at h
  exact h

/-- An alias that is accepted leaves no rejection, and the registry that accepted it. -/
theorem compileAlias_of_registerAlias {name aliasName : String} (location : String) (index : Nat)
    (hname : e.given "name" = some name) (halias : e.given "alias" = some aliasName)
    (h : (s.registry.registerAlias name aliasName).value = (.ok (), r)) :
    ∃ t, compileAlias location index e s = .ok () t ∧ s.Moves r t := by
  rw [compileAlias_of_given location index hname halias, bind_of_ok (onRegistry_eq _ s), h]
  exact ⟨_, rfl, rfl, rfl, rfl⟩

/-- An alias element means the same to every registry. -/
theorem replayed_compileAlias (hkind : e.kind = .aliasing) {u : Unit}
    (h : compileAlias location index e s = .ok u t) (hclean : t.rejections = []) :
    Replayed (compileAlias location index e) s u t
      (⟨location, defaults, e⟩ : Occurrence).introductions := by
  cases hname : e.given "name" with
  | none =>
    rw [compileAlias, hname] at h
    cases h
    exact absurd hclean (by simp)
  | some name =>
    cases halias : e.given "alias" with
    | none =>
      rw [compileAlias, hname, halias] at h
      cases h
      exact absurd hclean (by simp)
    | some aliasName =>
      have hmeans : (⟨location, defaults, e⟩ : Occurrence).introductions =
          [.aliasing aliasName name] := by
        simp only [Occurrence.introductions, hkind, hname, halias]
      rw [hmeans]
      rcases hregister : (s.registry.registerAlias name aliasName).value with ⟨cause | ⟨⟩, r⟩
      · rw [compileAlias_of_given location index hname halias, bind_of_ok (onRegistry_eq _ s),
          hregister] at h
        cases h
        exact absurd hclean (by simp)
      · obtain ⟨t', hrun, hmoves⟩ := compileAlias_of_registerAlias location index hname halias
          hregister
        obtain ⟨-, rfl⟩ := EStateM.Result.ok.inj (hrun.symm.trans h)
        exact {
          run := h
          introduced := .cons (hregister.trans (by rw [hmoves.registry])) (.nil _)
          again := fun _ hagain => by
            obtain ⟨r', accepted, hnil⟩ := introduced_cons_iff.mp hagain
            exact compileAlias_of_registerAlias location index hname halias
              (introduced_nil_iff.mp hnil ▸ accepted) }

/-- Without hooks an unknown element introduces nothing. -/
theorem replayed_compileCustom (hhooks : c.hooks = {}) {u : Unit}
    (h : c.compileCustom location index e s = .ok u t) :
    Replayed (c.compileCustom location index e) s u t [] := by
  refine .of_quiet (fun s => ?_) h
  rw [compileCustom, hhooks]
  exact ⟨_, rfl, rfl, rfl, rfl⟩

/-! ## Documents -/

/-- An import is the run of the document that it finds, which depends on the open documents
alone. -/
theorem replayed_compileImport (hc : c.source = l.source) {i : Import} {is : List Introduction}
    (hfind : c.findImport l base location s.opened e = .ok i)
    (h : Replayed (walk i.target i.root) (s.entering i) () t is) :
    Replayed (c.compileImport walk base location e) s () (t.imported i) is where
  run := (compileImport_eq_ok_iff hc).mpr ⟨i, t, hfind, h.run, rfl⟩
  introduced := h.introduced
  again {s' r} hopened his := by
    have hentering : (s'.entering i).opened = (s.entering i).opened := by
      rw [Session.entering, hopened]
      rfl
    obtain ⟨t', hrun, hmoves⟩ := h.again hentering his
    refine ⟨t'.imported i,
      (compileImport_eq_ok_iff hc).mpr ⟨i, t', hopened ▸ hfind, hrun, rfl⟩, ?_,
      hmoves.rejections, hmoves.registry⟩
    show t'.opened.dropLast = s'.opened
    rw [hmoves.opened]
    exact List.dropLast_concat

/-- Where a group is skipped, entered or left, the observer is told and nothing else is done. -/
theorem replayed_mark {entry : OutlineEntry} (hentry : entry.takesNumber = false)
    (h : c.compileEntry walk base location index declared entry s = .ok declared' t) :
    Replayed (c.compileEntry walk base location index declared entry) s declared' t [] := by
  cases entry with
  | skipped profiles => cases h; exact .of_quiet (fun _ => ⟨_, rfl, rfl, rfl, rfl⟩) rfl
  | enter group => cases h; exact .of_quiet (fun _ => ⟨_, rfl, rfl, rfl, rfl⟩) rfl
  | leave group => cases h; exact .of_quiet (fun _ => ⟨_, rfl, rfl, rfl, rfl⟩) rfl
  | _ => cases hentry

/-- An element that stands for itself introduces what it says. -/
theorem replayed_single (hhooks : c.hooks = {}) {entry : OutlineEntry}
    (hsingle : Single e defaults entry)
    (h : c.compileEntry walk base location index declared entry s = .ok declared' t)
    (hclean : t.rejections = []) (hnamed : (⟨location, defaults, e⟩ : Occurrence).Named) :
    Replayed (c.compileEntry walk base location index declared entry) s declared' t
      (⟨location, defaults, e⟩ : Occurrence).introductions := by
  cases hsingle with
  | component hkind => exact replayed_compileComponent hhooks hkind h hclean hnamed
  | aliasing hkind =>
    obtain ⟨_, s₁, halias, hpure⟩ := bind_eq_ok_iff.mp h
    cases hpure
    exact (replayed_compileAlias hkind halias hclean).bind_pure _
  | custom hkind =>
    obtain ⟨_, s₁, hcustom, hpure⟩ := bind_eq_ok_iff.mp h
    cases hpure
    have hmeans : (⟨location, defaults, e⟩ : Occurrence).introductions = [] := by
      simp only [Occurrence.introductions, hkind]
    rw [hmeans]
    exact (replayed_compileCustom hhooks hcustom).bind_pure _

/-- A run without rejections is replayed if the components that it meets state their names. -/
theorem compositional_replayed (hc : c.source = l.source) (hhooks : c.hooks = {}) :
    c.Compositional l fun x s a t os => (∀ o ∈ os, o.Named) →
      Replayed x s a t (os.flatMap Occurrence.introductions) where
  pure a s _ := .pure a s
  bind h h' hnamed := by
    obtain ⟨hfirst, hlater⟩ := List.forall_mem_append.mp hnamed
    rw [List.flatMap_append]
    exact (h hfirst).bind (h' hlater)
  mark hentry h _ := replayed_mark hentry h
  single hsingle h hclean hnamed := by
    rw [List.flatMap_singleton]
    exact replayed_single hhooks hsingle h hclean (hnamed _ List.mem_cons_self)
  importing hfind h hnamed := replayed_compileImport hc hfind (h hnamed)

end Compiler

end Blueprint
