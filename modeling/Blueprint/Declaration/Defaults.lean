import Blueprint.Definition.Basic
import Blueprint.Document.Element
import Blueprint.Error

/-!
# Defaults of a group

A group may set what its declarations leave open : the lazy and autowire modes, whether lists are
merged, and the methods to call on creation and destruction. What a group leaves open in turn
comes from the group around it.
-/

namespace Blueprint

/-- What a group sets for the declarations in it. -/
structure Defaults where
  lazyInit : Option Bool := none
  autowire : Option Autowire := none
  mergeLists : Option Bool := none
  initMethod : Option String := none
  destroyMethod : Option String := none
deriving DecidableEq, Repr, Inhabited

namespace Defaults

/-- Only the word `true` means yes. -/
def isTrue (value : String) : Bool := value == "true"

/-- The autowire mode with a spelling. -/
def readAutowire (value : String) : Except Error Autowire :=
  match Autowire.ofSpelling? value with
  | some mode => .ok mode
  | none => .error (.invalidDeclaration (.unknownAutowire value))

/-- An autowire attribute, or what is said elsewhere if it is not explicit. -/
def autowireOr (e : Element) (name : String) (elsewhere : Option Autowire) :
    Except Error (Option Autowire) :=
  match e.explicit name with
  | some value => (readAutowire value).map some
  | none => .ok elsewhere

/-- The defaults of a group inside another one. -/
def derive (group : Element) (enclosing : Defaults) : Except Error Defaults := do
  let autowire ← autowireOr group "default-autowire" enclosing.autowire
  return {
    lazyInit := ((group.explicit "default-lazy-init").map isTrue).or enclosing.lazyInit
    autowire
    mergeLists := ((group.explicit "default-merge").map isTrue).or enclosing.mergeLists
    initMethod := (group.given "default-init-method").or enclosing.initMethod
    destroyMethod := (group.given "default-destroy-method").or enclosing.destroyMethod }

end Defaults

end Blueprint
