import Blueprint.Definition.Basic
import Blueprint.Error
import Blueprint.Log.Traced
import Blueprint.Text.Blank

/-!
# Names and aliases

The two tables of a registry : the definitions by name and the aliases, each of which points at a
name that may itself be an alias and need not be there yet. `canonical` follows aliases to the
name they stand for in the end, and `aliasesOf` lists what stands for a name.

`define` and `pointAlias` are the checked writes. What they refuse leaves the tables alone.
-/

namespace Blueprint

/-- What a registry does about a name that is taken. -/
structure Policy where
  /-- A name may be given a different definition. -/
  overrideDefinitions : Bool := true
  /-- An alias may be pointed at another name. -/
  overrideAliases : Bool := false
deriving DecidableEq, Repr, Inhabited

/-- Nothing that is there may be changed. -/
def Policy.strict : Policy := ⟨false, false⟩

/-- Definitions and aliases. -/
structure Names where
  definitions : Table String Definition := {}
  /-- For each alias the name it points at. -/
  aliases : Table String String := {}
deriving Inhabited

/-- The character that asks for the factory of a component instead of its product. -/
def factoryMark : Char := '&'

/-- The name without the marks in front of it. -/
def productName (name : String) : String :=
  String.ofList (name.toList.dropWhile (· = factoryMark))

namespace Names

/-- Follows at most so many aliases. -/
def follow (aliases : Table String String) : (steps : Nat) → String → String
  | 0, name => name
  | steps + 1, name =>
    match aliases.get? name with
    | some target => follow aliases steps target
    | none => name

/-- Whether so many aliases, followed from a name, pass through another one. -/
def leadsTo (aliases : Table String String) (goal : String) : (steps : Nat) → String → Bool
  | 0, _ => false
  | steps + 1, name =>
    match aliases.get? name with
    | some target => target == goal || leadsTo aliases goal steps target
    | none => false

/-- The name that a name stands for in the end; the aliases are followed one step more often than
there are aliases. -/
def canonical (n : Names) (name : String) : String :=
  follow n.aliases (n.aliases.size + 1) name

/-- The name that a request stands for : without factory marks, and with aliases followed. -/
def denoted (n : Names) (name : String) : String := n.canonical (productName name)

/-- The definition that a request stands for. -/
def find? (n : Names) (name : String) : Option Definition := n.definitions.get? (n.denoted name)

/-- The name belongs to a definition or is an alias. -/
def inUse (n : Names) (name : String) : Bool :=
  n.definitions.contains name || n.aliases.contains name

/-- The aliases that point at `target`, without `name` and those found before. -/
def pointingAt (n : Names) (name : String) (found : List String) (target : String) :
    List String :=
  (n.aliases.entries.filter fun e =>
    e.2 = target ∧ ¬ found.contains e.1 ∧ ¬ e.1 = name).map Prod.fst

/-- Adds what points at the pending names, and at those, and so on. -/
def gatherAliases (n : Names) (name : String) : (steps : Nat) → (pending found : List String) →
    List String
  | 0, _, found => found
  | _ + 1, [], found => found
  | steps + 1, target :: pending, found =>
    let new := n.pointingAt name found target
    gatherAliases n name steps (new.reverse ++ pending) (found ++ new)

/-- Every alias that stands for `name`, directly or through others. Each is visited once, after
the name itself. -/
def aliasesOf (n : Names) (name : String) : List String :=
  n.gatherAliases name (n.aliases.size + 1) [name] []

/-- Gives a name its definition, in place of an alias of the same name if need be. -/
def define (policy : Policy) (n : Names) (name : String) (d : Definition) :
    Traced (Except Error Names) := do
  if Text.isBlank name then return .error (.invalidName name .blank)
  else match n.definitions.get? name with
  | some existing =>
    if existing.sameContent d then
      Traced.emit (.definitionRepeated name)
      return .ok { n with definitions := n.definitions.insert name d }
    else if !policy.overrideDefinitions then return .error (.duplicate name)
    else
      Traced.emit (.definitionOverridden name existing.resource d.resource)
      return .ok { n with definitions := n.definitions.insert name d }
  | none =>
    match n.aliases.get? name with
    | some target =>
      if !policy.overrideDefinitions then return .error (.duplicate name)
      else
        Traced.emit (.aliasDisplaced name target)
        return .ok ⟨n.definitions.insert name d, n.aliases.erase name⟩
    | none => return .ok { n with definitions := n.definitions.insert name d }

/-- Points an alias at a name. The answer is the tables after it, or nothing if they stay as they
are. An alias pointed at itself is dropped. -/
def pointAlias (policy : Policy) (n : Names) (name aliasName : String) :
    Traced (Except Error (Option Names)) := do
  if Text.isBlank name then return .error (.invalidAlias name aliasName .blankName)
  else if Text.isBlank aliasName then return .error (.invalidAlias name aliasName .blankAlias)
  else if aliasName = name then
    if n.aliases.contains aliasName then
      return .ok (some { n with aliases := n.aliases.erase aliasName })
    else return .ok none
  else if n.definitions.contains aliasName then
    return .error (.invalidAlias name aliasName .defined)
  else match n.aliases.get? aliasName with
  | some existing =>
    if existing = name then return .ok none
    else if !policy.overrideAliases then
      return .error (.invalidAlias name aliasName (.taken existing))
    else
      Traced.emit (.aliasOverridden aliasName existing name)
      insertAlias n name aliasName
  | none => insertAlias n name aliasName
where
  /-- Adds the alias unless it would stand for itself. -/
  insertAlias (n : Names) (name aliasName : String) : Traced (Except Error (Option Names)) := do
    if n.canonical name = aliasName || leadsTo n.aliases aliasName (n.aliases.size + 1) name then
      return .error (.invalidAlias name aliasName .circular)
    else
      Traced.emit (.aliasRegistered name aliasName)
      return .ok (some { n with aliases := n.aliases.insert aliasName name })

/-- Puts back what a name and some aliases had in earlier tables, one after the other. -/
def restore (earlier : Names) (name : String) (aliases : List String) (n : Names) : Names where
  definitions := match earlier.definitions.get? name with
    | some d => n.definitions.insert name d
    | none => n.definitions.erase name
  aliases := (name :: aliases).foldl
    (fun table key => match earlier.aliases.get? key with
      | some target => table.insert key target
      | none => table.erase key)
    n.aliases

end Names

end Blueprint
