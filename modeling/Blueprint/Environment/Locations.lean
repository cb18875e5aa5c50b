import Blueprint.Environment.Basic
import Blueprint.Log.Traced
import Blueprint.Text.Blank

/-!
# Configured locations

The documents a context loads. `ConfigLocations` holds what was configured, cut into single
locations, or nothing; `resolve` replaces the placeholders and drops what becomes blank. While
nothing is configured the default locations stand in.
-/

namespace Blueprint

/-- The locations that were configured, if any. -/
structure ConfigLocations where
  configured : Option (List String) := none
deriving DecidableEq, Repr, Inhabited

namespace ConfigLocations

/-- Configures texts that may hold several locations each; texts that hold none at all clear the
configuration. -/
def ofTexts (texts : List String) : ConfigLocations :=
  match texts.flatMap Text.tokenize with
  | [] => ⟨none⟩
  | locations => ⟨some locations⟩

/-- Configures one text that may hold several locations. -/
def ofText (text : String) : ConfigLocations := ofTexts [text]

/-- The locations without blanks around them and with their placeholders replaced. -/
def resolveAll (env : Environment) : List String → Except Error (List String)
  | [] => .ok []
  | location :: rest => do
    let resolved := Text.trim (← env.resolveRequired (Text.trim location))
    let others ← resolveAll env rest
    return if resolved.isEmpty then others else resolved :: others

/-- The documents to load, in order. -/
def resolve (c : ConfigLocations) (env : Environment) (defaults : List String) :
    Traced (Except Error (List String)) :=
  match resolveAll env (c.configured.getD defaults) with
  | .ok locations => do
    Traced.emit (.locationsResolved c.configured.isSome locations)
    return .ok locations
  | .error e => return .error e

end ConfigLocations

end Blueprint
