import Blueprint.Proofs.Compile.Effects
import Blueprint.Proofs.Names.Extension
import Blueprint.Proofs.Registry.Declare

/-!
# Compiling only adds definitions

A declaration adds its name behind all others, or keeps the place of the name if it is taken. One
that is refused halfway gives back the definitions that it found. So without hooks that interfere
every entry of a document keeps the names that there were before, in their order
(`Writes.prefix_definedNames`), and so does compiling with all imports, whether it succeeds or not
(`definedNames_compile`). What is counted when it succeeds are the names that came in.
-/

namespace Blueprint

/-- A declaration keeps the names that there were, also when it is refused halfway. -/
theorem Registry.prefix_definedNames_declare (r : Registry) (d : Declaration) :
    r.definedNames <+: (r.declare d).value.2.definedNames := by
  rcases h : (r.declare d).value with ⟨e | u, r'⟩
  · rw [definedNames, definedNames, definitions_declare_of_error h]
  · rw [definedNames, definedNames, definitions_declare_of_ok h]
    exact Names.prefix_keys_insert _ _ _

namespace Compiler

open Walk

variable {c : Compiler}

/-- Without hooks every entry keeps the names that there were. -/
theorem Writes.prefix_definedNames (hhooks : c.hooks = {}) {location : String} {r r' : Registry}
    (h : c.Writes location r r') : r.definedNames <+: r'.definedNames := by
  cases h with
  | nothing => exact List.prefix_rfl
  | declaration d => exact r.prefix_definedNames_declare d
  | aliasing name aliasName =>
    rw [Registry.definedNames, Registry.definedNames, Registry.definitions_registerAlias]
  | custom e =>
    rw [hhooks]
    exact List.prefix_rfl

/-- Compiling keeps the names that there were, wherever it ends. -/
theorem prefix_definedNames_compileWithin (hhooks : c.hooks = {}) (base : String) (depth : Nat)
    (location : String) (root : Element) (s : Session) :
    s.registry.definedNames <+:
      (final (c.compileWithin base depth location root) s).registry.definedNames := by
  refine compileWithin_induction (R := fun s t => s.registry.definedNames <+:
    t.registry.definedNames) (D := fun _ _ => True) ?_ List.IsPrefix.trans (fun _ => trivial) ?_
    depth trivial s
  · intro s t hlevel
    rw [hlevel.registry]
  · intro _ _ _ _ _ _ _ _ _ s t _ _ _ _ _ heffect
    exact heffect.registry.prefix_definedNames hhooks

/-- Compiling leaves the defined names of any registry where they are, and adds new ones behind
them, also if declarations are refused or an import fails on the way. If it succeeds, the answer is
the number of new ones. -/
theorem definedNames_compile (hhooks : c.hooks = {}) (root : Element) (base : String)
    (registry : Registry) :
    ∃ added, (c.compile root base registry).value.registry.definedNames =
        registry.definedNames ++ added ∧
      ∀ n, (c.compile root base registry).value.outcome = .ok n → n = added.length := by
  have hprefix := prefix_definedNames_compileWithin hhooks base (c.source.depthLimit + 1) base root
    (.start base registry)
  rw [value_compile]
  cases hrun : c.compileFrom base base root (.start base registry) with
  | error cause t =>
    rw [← compileFrom, final_of_error hrun] at hprefix
    obtain ⟨added, hadded⟩ := hprefix
    exact ⟨added, hadded.symm, nofun⟩
  | ok u t =>
    rw [← compileFrom, final_of_ok hrun] at hprefix
    obtain ⟨added, hadded⟩ := hprefix
    refine ⟨added, hadded.symm, fun n hn => ?_⟩
    have hcount : t.registry.count = registry.count + added.length := by
      rw [Registry.count, Registry.count, ← Table.length_keys, ← Table.length_keys,
        ← List.length_append]
      exact congrArg List.length hadded.symm
    simp only at hn
    split at hn
    · rw [← Except.ok.inj hn, hcount, Nat.add_sub_cancel_left]
    · cases hn

end Compiler

/-- A registry with two components, of which one has an alias. -/
def Registry.furnished : Registry :=
  { names := {
      definitions := .ofList [("store", .ofClass "Disk"), ("disk", .ofClass "Disk")],
      aliases := .ofList [("cache", "disk")] } }

/-- A group that states a component again, and declares one that has the name of an alias. -/
def Element.restocking : Element :=
  .components [.component "store" "Memory", .component "cache" "Memory"]

/-- A component whose second alias is the name of another one. -/
def Element.overnamed : Element :=
  { name := "component",
    attributes := .ofList [("id", "log"), ("name", "text store"), ("class", "File")] }

/-- A document that goes on after a component that is refused, until an import without a target. -/
def Element.halfway : Element :=
  .components [.overnamed, .restocking, { name := "import" }, .component "last" "Disk"]

namespace Compiler

theorem definedNames_compile_halfway :
    (∃ added, (compile { source := ({} : Library).source } .restocking "main"
        .furnished).value.registry.definedNames = ["store", "disk"] ++ added ∧ added.length = 1) ∧
      (compile { source := ({} : Library).source } .restocking "main" .furnished).value.outcome =
        .ok 1 ∧
      (∃ added, (compile { source := ({} : Library).source } .halfway "main"
        .furnished).value.registry.definedNames = ["store", "disk"] ++ added ∧
          added = ["cache"]) ∧
      (compile { source := ({} : Library).source } .halfway "main"
        .furnished).value.outcome.toOption = none := by
  have houtcome : (compile { source := ({} : Library).source } .restocking "main"
      .furnished).value.outcome = .ok 1 := by rfl
  have hafter : (compile { source := ({} : Library).source } .halfway "main"
      .furnished).value.registry.definedNames = ["store", "disk"] ++ ["cache"] := by
    decide +kernel
  have hbefore : Registry.furnished.definedNames = ["store", "disk"] := by rfl
  obtain ⟨added, hadded, hcount⟩ := definedNames_compile
    (c := { source := ({} : Library).source }) rfl .restocking "main" .furnished
  obtain ⟨added', hadded', -⟩ := definedNames_compile
    (c := { source := ({} : Library).source }) rfl .halfway "main" .furnished
  rw [hbefore] at hadded hadded'
  exact ⟨⟨added, hadded, (hcount 1 houtcome).symm⟩, houtcome,
    ⟨added', hadded', (List.append_cancel_left (hafter.symm.trans hadded')).symm⟩,
    by decide +kernel⟩

end Compiler

end Blueprint
