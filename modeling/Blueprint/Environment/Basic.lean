import Blueprint.Environment.Placeholder
import Blueprint.Table

/-!
# Environments

An `Environment` answers which profiles are active and what value a property has. While no
profile is active explicitly the default profiles count as active. A profile specification is
the name of a profile, or one behind an exclamation mark, which asks for the profile not to be
active; a list of them is accepted when any one is.

`Settings` is an environment held in tables, with the variables of a process behind its own
properties if they are asked for.
-/

namespace Blueprint

/-- Active profiles and property values. -/
structure Environment where
  /-- The profiles activated explicitly. -/
  active : List String := []
  /-- The profiles that count as active while none is active explicitly. -/
  defaults : List String := ["default"]
  property : String → Option String := fun _ => none

namespace Environment

/-- Whether a profile is active, explicitly or by default. -/
def isActive (env : Environment) (profile : String) : Bool :=
  env.active.contains profile || (env.active.isEmpty && env.defaults.contains profile)

/-- Whether a specification is met. -/
def accepts (env : Environment) (spec : String) : Bool :=
  match spec.toList with
  | '!' :: rest => !env.isActive (String.ofList rest)
  | _ => env.isActive spec

/-- Whether any specification is met. -/
def acceptsAny (env : Environment) (specs : List String) : Bool := specs.any env.accepts

/-- The text with its placeholders replaced, each of which needs a value or a default. -/
def resolveRequired (env : Environment) (text : String) : Except Error String :=
  Placeholder.resolve .required env.property text

/-- The text with those placeholders replaced that have a value; the text as it is when one of
them refers back to itself. -/
def resolveLenient (env : Environment) (text : String) : String :=
  match Placeholder.resolve .lenient env.property text with
  | .ok s => s
  | .error _ => text

end Environment

/-- An environment held in tables. -/
structure Settings where
  properties : Table String String := {}
  active : Table String Unit := {}
  /-- The default profiles, if they are not the usual one. -/
  defaults : Option (Table String Unit) := none
  /-- The variables of the process, if unknown properties are looked up there. -/
  processVariables : Option (Table String String) := none

namespace Settings

/-- The value of a property. -/
def property (s : Settings) (key : String) : Option String :=
  match s.properties.get? key with
  | some value => some value
  | none => s.processVariables.bind fun t => t.get? key

/-- The values of the settings, with the variables of the process if those are asked for. -/
def values (s : Settings) : List String :=
  s.properties.values ++ s.processVariables.elim [] Table.values

theorem mem_values_of_property {s : Settings} {key value : String}
    (h : s.property key = some value) : value ∈ s.values := by
  rw [property] at h
  cases hown : s.properties.get? key with
  | some own =>
    rw [hown] at h
    obtain rfl := Option.some.inj h
    exact List.mem_append_left _ (List.mem_map.mpr ⟨_, Table.mem_entries_iff.mpr hown, rfl⟩)
  | none =>
    rw [hown] at h
    obtain ⟨table, htable, hvalue⟩ := Option.bind_eq_some_iff.mp h
    refine List.mem_append_right _ ?_
    rw [htable]
    exact List.mem_map.mpr ⟨_, Table.mem_entries_iff.mpr hvalue, rfl⟩

/-- The environment with these settings. -/
def environment (s : Settings) : Environment where
  active := s.active.keys
  defaults := match s.defaults with
    | some profiles => profiles.keys
    | none => ["default"]
  property := s.property

end Settings

/-- The names as the keys of a table, each once, in the order of their first mention. -/
def Table.ofNames (names : List String) : Table String Unit :=
  .ofList (names.map fun name => (name, ()))

end Blueprint
