import Blueprint.Definition.Basic
import Blueprint.Error
import Blueprint.Log.Traced
import Blueprint.Text.Blank

/-!
# Scopes

The scopes that one registry knows : `singleton` and `prototype`, which are always there, and those
registered by the application. A scope is registered without the blanks around it; a blank one and
the two built-in ones are refused.
-/

namespace Blueprint

/-- The scopes of a registry. -/
structure Scopes where
  /-- The registered scopes, in order. -/
  custom : List String := []
deriving DecidableEq, Repr, Inhabited

namespace Scopes

/-- The scopes that are always there. -/
def builtIn : List String := [singletonScope, prototypeScope]

/-- All scopes, the built-in ones first. -/
def names (s : Scopes) : List String := builtIn ++ s.custom

/-- Whether a scope is known. -/
def contains (s : Scopes) (scope : String) : Bool := s.names.contains scope

/-- Registers a scope; doing so twice changes nothing. -/
def register (s : Scopes) (scope : String) : Traced (Except Error Scopes) := do
  let scope := Text.trim scope
  if scope.isEmpty then return .error (.invalidScope scope .blank)
  else if builtIn.contains scope then return .error (.invalidScope scope .builtIn)
  else if s.custom.contains scope then return .ok s
  else
    Traced.emit (.scopeRegistered scope)
    return .ok { s with custom := s.custom ++ [scope] }

end Scopes

end Blueprint
