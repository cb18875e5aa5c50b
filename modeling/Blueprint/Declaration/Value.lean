import Blueprint.Declaration.Defaults

/-!
# Values in documents

A property or constructor argument carries its value in one of three ways : as a `value`
attribute, as a `ref` attribute, or as one element inside it. Descriptions do not count. The
element is a text, a reference, null, or a list of such elements.

`Element.toValue` reads such an element and `Element.carriedValue` what an element carries.
-/

namespace Blueprint

namespace Element

/-- The element only describes the one around it. -/
def isDescription (e : Element) : Bool := e.name == "description"

mutual

/-- Reads an element as a value; a list takes up the default of its group. -/
def toValue (defaults : Defaults) : Element → Except Error Value
  | ⟨name, attributes, children, text⟩ =>
    let e : Element := ⟨name, attributes, [], text⟩
    match name with
    | "value" => .ok (.literal (text.getD ""))
    | "ref" =>
      match e.given "bean" with
      | some component => .ok (.reference component)
      | none => .error (.invalidDeclaration .referenceUnnamed)
    | "null" => .ok .null
    | "list" => do
      let merge := ((e.explicit "merge").map Defaults.isTrue).or defaults.mergeLists
      return .list (← toValues defaults children) merge
    | other => .error (.invalidDeclaration (.unknownValue other))

/-- Reads the elements that are no descriptions as values, up to the first that is none. -/
def toValues (defaults : Defaults) : List Element → Except Error (List Value)
  | [] => .ok []
  | e :: es =>
    if e.isDescription then toValues defaults es
    else do
      let value ← toValue defaults e
      return value :: (← toValues defaults es)

end

/-- The value that a property or constructor argument carries. -/
def carriedValue (e : Element) (carrier : Carrier) (defaults : Defaults) : Except Error Value :=
  let inner := e.children.filter fun child => !child.isDescription
  if 1 < inner.length then .error (.invalidDeclaration (.manyValues carrier))
  else match e.attr "value", e.attr "ref", inner.head? with
  | some text, none, none => .ok (.literal text)
  | none, some name, none =>
    let name := Text.trim name
    if name.isEmpty then .error (.invalidDeclaration (.blankReference carrier))
    else .ok (.reference name)
  | none, none, some child => child.toValue defaults
  | none, none, none => .error (.invalidDeclaration (.noValue carrier))
  | _, _, _ => .error (.invalidDeclaration (.mixedValues carrier))

end Element

end Blueprint
