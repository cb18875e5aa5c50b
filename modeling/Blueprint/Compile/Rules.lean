import Blueprint.Compile.Session

/-!
# Hooks given by rules

A set of rules makes hooks without a program : declarations whose name is on a list are refused,
descriptions are replaced, and names are exchanged. Elements whose name starts with `x:` are
instructions to the registry : `x:define`, `x:remove`, `x:alias`, `x:clear` and `x:fail`.
-/

namespace Blueprint

/-- What is done with declarations before they are registered. -/
structure Rules where
  /-- Names that are refused. -/
  refused : List String := []
  /-- A description for every declaration. -/
  description : Option String := none
  /-- Names and the names they are exchanged for; the first entry of a name holds. -/
  renames : List (String × String) := []

namespace Rules

/-- Applies the rules to a declaration. -/
def decorate (rules : Rules) (_ : Element) (d : Declaration) : Except Error Declaration :=
  if rules.refused.contains d.name then
    .error (.invalidDeclaration (.stated s!"rejected '{d.name}'"))
  else
    let description := rules.description.or d.definition.description
    .ok { d with
      name := (rules.renames.lookup d.name).getD d.name
      definition := { d.definition with description } }

/-- Carries out an instruction; other elements mean nothing. -/
def handle (e : Element) (_ : String) (r : Registry) :
    Traced (Except Error Unit × Registry) := do
  let id := (e.attr "id").getD ""
  match e.name with
  | "x:define" => r.register id (.ofClass ((e.attr "class").getD "x"))
  | "x:remove" =>
    let (answer, r) ← r.remove id
    return (answer.map fun _ => (), r)
  | "x:alias" => r.registerAlias id ((e.attr "alias").getD "")
  | "x:clear" => return (.ok (), ← r.clear)
  | "x:fail" => return (.error (.invalidDeclaration (.stated (e.text.getD "no reason"))), r)
  | _ => return (.ok (), r)

/-- The hooks that follow the rules. -/
def hooks (rules : Rules) : Hooks where
  decorate := rules.decorate
  handle := handle

end Rules

end Blueprint
