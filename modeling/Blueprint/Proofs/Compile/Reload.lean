import Blueprint.Proofs.Compile.Replay
import Blueprint.Proofs.Registry.Repetition

/-!
# Compiling into a registry that has all of it

Documents in which every component states its name introduce the same names into every registry
that accepts them (`introduced_of_compile`). So compiling them again depends on whether the registry
accepts the same introductions a second time (`compile_again`). If it does, it holds what it held
before. It does not if a component has the name of an alias that points elsewhere : compiled first,
the definition takes the place of the alias, and when the alias comes again it is invalid.
-/

namespace Blueprint.Compiler

open Walk

variable {c : Compiler} {l : Library} {base : String} {root : Element} {registry : Registry}

/-- A compilation that succeeds ran to its end and rejected nothing. -/
theorem exists_run_of_compile {n : Nat}
    (h : (c.compile root base registry).value.outcome = .ok n) :
    ∃ t, c.compileFrom base base root (.start base registry) = .ok () t ∧ t.rejections = [] ∧
      (c.compile root base registry).value.registry = t.registry := by
  cases hrun : c.compileFrom base base root (.start base registry) with
  | error cause t => simp [value_compile, hrun] at h
  | ok u t =>
    refine ⟨t, rfl, Decidable.byContradiction fun hne => ?_, by rw [value_compile, hrun]⟩
    simp [value_compile, hrun, hne] at h

/-- A compilation that rejects nothing introduces what the documents say, if all components state
their names, and so it does with every registry that accepts it. -/
theorem introduced_of_compile (hc : c.source = l.source) (hhooks : c.hooks = {}) (root : Element)
    (base : String) {n : Nat} (hok : (c.compile root base registry).value.outcome = .ok n) :
    ∃ os, CourseOf c l base base root os ∧ ((∀ o ∈ os, o.Named) →
      Introduced registry (os.flatMap Occurrence.introductions)
          (c.compile root base registry).value.registry ∧
        ∀ before after, Introduced before (os.flatMap Occurrence.introductions) after →
          (c.compile root base before).value.outcome = .ok (after.count - before.count) ∧
            (c.compile root base before).value.registry = after) := by
  obtain ⟨t, hrun, hclean, hregistry⟩ := exists_run_of_compile hok
  obtain ⟨os, hcourse, hreplayed⟩ :=
    (recounts_compileWithin (compositional_replayed hc hhooks) hc base _).told hrun hclean
  refine ⟨os, hcourse, fun hnamed => ⟨hregistry ▸ (hreplayed hnamed).introduced, ?_⟩⟩
  intro before after h
  obtain ⟨t', hrun', hmoves⟩ := (hreplayed hnamed).again
    (show (Session.start base before).opened = _ from rfl) h
  have hempty : t'.rejections.isEmpty = true := by rw [hmoves.rejections]; rfl
  rw [value_compile, show c.compileFrom base base root (.start base before) = _ from hrun']
  simp only [hempty, if_true, hmoves.registry]
  trivial

/-- Compiles documents that name all components, first into an empty registry and then into the
one that this gives. If the second time succeeds nothing is added or changed. It succeeds if the
introductions do not contradict each other. Unless an alias that is pointed at another name is
pointed at itself, too, it succeeds just if no such alias is the name of a component. -/
theorem compile_again (hc : c.source = l.source) (hhooks : c.hooks = {})
    (hnames : registry.names = {}) (hpolicy : registry.policy = {}) {first again : Compilation}
    (hfirst : (c.compile root base registry).value = first)
    (hagain : (c.compile root base first.registry).value = again) {n : Nat}
    (hok : first.outcome = .ok n) :
    ∃ os, CourseOf c l base base root os ∧
      (∀ os', CourseOf c l base base root os' → os' = os) ∧
      ∀ is, os.flatMap Occurrence.introductions = is → (∀ o ∈ os, o.Named) →
        (∀ added, again.outcome = .ok added → added = 0 ∧
          again.registry.names.definitions = first.registry.names.definitions ∧
          ∀ aliasName, again.registry.names.aliases.get? aliasName =
            first.registry.names.aliases.get? aliasName) ∧
        (Consistent is → again.outcome = .ok 0) ∧
        ((∀ aliasName target, States is aliasName target → .aliasing aliasName aliasName ∉ is) →
          (again.outcome = .ok 0 ↔
            ∀ aliasName target, States is aliasName target → ∀ d, .definition aliasName d ∉ is) ∧
          (again.outcome = .ok 0 → again.registry.names = first.registry.names)) := by
  have hsound : registry.names.Sound := hnames ▸ Names.sound_empty
  obtain ⟨os, hcourse, hintroduced⟩ := introduced_of_compile hc hhooks root base (hfirst ▸ hok)
  refine ⟨os, hcourse, fun os' h' => h'.unique hcourse, ?_⟩
  rintro is rfl hnamed
  obtain ⟨hfirstly, hany⟩ := hintroduced hnamed
  rw [hfirst] at hfirstly
  have accepted : ∀ added, again.outcome = .ok added →
      Introduced first.registry (os.flatMap Occurrence.introductions) again.registry := by
    intro added h
    -- The second compilation goes along the same course.
    obtain ⟨os', hcourse', hagainly⟩ := introduced_of_compile hc hhooks root base (hagain ▸ h)
    obtain rfl := hcourse'.unique hcourse
    exact hagain ▸ (hagainly hnamed).1
  have repeated : ∀ s, Introduced first.registry (os.flatMap Occurrence.introductions) s →
      again.outcome = .ok 0 := by
    intro s h
    obtain ⟨houtcome, -⟩ := hany first.registry s h
    rw [hagain, Registry.count, hfirstly.definitions_again h hsound, Registry.count,
      Nat.sub_self] at houtcome
    exact houtcome
  have consistently : Consistent (os.flatMap Occurrence.introductions) →
      again.outcome = .ok 0 := by
    intro h
    obtain ⟨s, hs⟩ := hfirstly.exists_again hnames (hpolicy ▸ rfl) h
    exact repeated s hs
  refine ⟨fun added h => ?_, consistently, fun hdropped => ?_⟩
  · have hagainly := accepted added h
    have hzero := Except.ok.inj (h.symm.trans (repeated _ hagainly))
    exact ⟨hzero, hfirstly.definitions_again hagainly hsound,
      (hfirstly.agrees_again hagainly hsound).target⟩
  · have standing := hfirstly.standing hnames (hpolicy ▸ rfl) hdropped
    have undefined : again.outcome = .ok 0 → ∀ aliasName target,
        States (os.flatMap Occurrence.introductions) aliasName target →
        ∀ d, .definition aliasName d ∉ os.flatMap Occurrence.introductions := fun h _ _ hstates _ =>
      hfirstly.undefined_again (accepted 0 h) hsound hstates
    refine ⟨⟨undefined, fun hdefined => ?_⟩, fun h => ?_⟩
    · exact consistently ((standing hdefined).consistent (hfirstly.sound hsound))
    · exact hfirstly.names_again (accepted 0 h) hsound (standing (undefined h))

end Blueprint.Compiler

namespace Blueprint

/-- An element that points an alias at a name. -/
def Element.aliasing (name aliasName : String) : Element :=
  { name := "alias", attributes := .ofList [("name", name), ("alias", aliasName)] }

/-- An alias of a component that is declared behind it. -/
def Element.forwardAlias : Element :=
  .components [.aliasing "store" "cache", .component "store" "Memory"]

/-- An alias that has the name of a component which is declared behind it. -/
def Element.displacedAlias : Element :=
  .components [.aliasing "store" "cache", .component "cache" "Memory"]

/-- An alias that is dropped and then pointed at another name. -/
def Element.droppedAlias : Element :=
  .components [.aliasing "disk" "store", .aliasing "store" "store", .aliasing "memory" "store"]

namespace Compiler

variable {c : Compiler} {l : Library} {base : String}

/-- Two elements that stand for themselves are on the course of their document. -/
theorem course_of_two {e e' : Element} (he : e.kind ≠ .group ∧ e.kind ≠ .importing)
    (he' : e'.kind ≠ .group ∧ e'.kind ≠ .importing) (location : String) :
    CourseOf c l base location (.components [e, e'])
      [⟨location, {}, e⟩, ⟨location, {}, e'⟩] := by
  have h : Course c l base location {} [e, e'] _ := .single he (.single he' .nil)
  exact h

/-- The alias may come again, because no component has its name. -/
theorem compile_forwardAlias_again : ∃ first again : Compilation,
    (compile { source := ({} : Library).source } .forwardAlias "main" {}).value = first ∧
      (compile { source := ({} : Library).source } .forwardAlias "main" first.registry).value =
        again ∧
      first.outcome = .ok 1 ∧ again.outcome = .ok 0 ∧
      again.registry.names = first.registry.names := by
  obtain ⟨first, hfirst, hok⟩ : ∃ first : Compilation,
      (compile { source := ({} : Library).source } .forwardAlias "main" {}).value = first ∧
        first.outcome = .ok 1 := ⟨_, rfl, rfl⟩
  refine ⟨first, _, hfirst, rfl, hok, ?_⟩
  obtain ⟨os, -, hunique, hall⟩ := compile_again rfl rfl rfl rfl hfirst rfl hok
  have hos := hunique _ (course_of_two (by decide) (by decide) "main")
  obtain ⟨-, -, hagain⟩ := hall
    [.aliasing "cache" "store",
      .definition "store" { className := some "Memory", resource := some "main" }]
    (hos ▸ rfl) (hos ▸ by decide)
  have stated : ∀ a t, States [.aliasing "cache" "store", .definition "store"
      { className := some "Memory", resource := some "main" }] a t → a = "cache" := by
    rintro a t ⟨-, hmem⟩
    have hboth : a = "cache" ∧ t = "store" := by simpa using hmem
    exact hboth.1
  obtain ⟨hiff, hsame⟩ := hagain fun a t hat => by simp [stated a t hat]
  have hok := hiff.mpr fun a t hat => by simp [stated a t hat]
  exact ⟨hok, hsame hok⟩

/-- The component takes the place of the alias, which may not come again then. -/
theorem compile_displacedAlias_again : ∃ first : Compilation,
    (compile { source := ({} : Library).source } .displacedAlias "main" {}).value = first ∧
      first.outcome = .ok 1 ∧
      (∀ os, CourseOf { source := ({} : Library).source } {} "main" "main" .displacedAlias os →
        ∀ o ∈ os, o.Named) ∧
      (compile { source := ({} : Library).source } .displacedAlias "main"
        first.registry).value.outcome = .error (.rejected "main"
          [⟨"main", 0, some "store", .invalidAlias "store" "cache" .defined⟩]) := by
  refine ⟨_, rfl, rfl, fun os hos => ?_, rfl⟩
  have hcourse : os = _ := hos.unique (course_of_two (by decide) (by decide) "main")
  rw [hcourse]
  decide

-- An alias that was dropped in between has another target in the end, and may not get its first
-- one again.
example : ∃ first : Compilation,
    (compile { source := ({} : Library).source } .droppedAlias "main" {}).value = first ∧
      first.outcome = .ok 0 ∧
      (compile { source := ({} : Library).source } .droppedAlias "main"
        first.registry).value.outcome = .error (.rejected "main"
          [⟨"main", 0, some "disk", .invalidAlias "disk" "store" (.taken "memory")⟩]) :=
  ⟨_, rfl, rfl, rfl⟩

end Compiler

end Blueprint
