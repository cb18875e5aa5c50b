import Blueprint.Declaration.Value
import Blueprint.Location.Path
import Blueprint.Registry.Names

/-!
# Component elements

Reading a `component` element as a declaration. Its name is the `id`, or else the first of the
names in its `name` attribute, whose others are aliases; a component without either is named after
its class, its parent or its factory, with the least number that is free.

`Element.toDefinition` reads the recipe and `Declared.readComponent` the whole declaration.
`Declared` keeps the names that the document has used, which numbers have to avoid.
-/

namespace Blueprint

/-! ## Parts of a recipe -/

/-- A position : digits, perhaps behind a plus sign, below the range of a machine word. -/
def readIndex? (text : String) : Option Nat :=
  let digits := match text.toList with
    | '+' :: rest => rest
    | all => all
  if digits.isEmpty || !digits.all (fun c => '0' ≤ c && c ≤ '9') then none
  else
    let n := digits.foldl (fun n c => n * 10 + (c.toNat - '0'.toNat)) 0
    if n < UInt64.size then some n else none

namespace Definition

/-- Adds a constructor argument. -/
def readArgument (d : Definition) (defaults : Defaults) (e : Element) :
    Except Error Definition := do
  let value ← e.carriedValue .argument defaults
  let argument : Argument := ⟨value, e.given "type", e.given "name"⟩
  match e.given "index" with
  | none => return { d with arguments := d.arguments.addGeneric argument }
  | some text =>
    match readIndex? text with
    | none => throw (.invalidDeclaration (.indexNotNumber text))
    | some index =>
      if d.arguments.hasIndex index then throw (.invalidDeclaration (.indexRepeated index))
      else return { d with arguments := d.arguments.addIndexed index argument }

/-- Adds a property. -/
def readProperty (d : Definition) (defaults : Defaults) (e : Element) :
    Except Error Definition := do
  match e.given "name" with
  | none => throw (.invalidDeclaration .propertyUnnamed)
  | some name =>
    if d.properties.contains name then throw (.invalidDeclaration (.propertyRepeated name))
    else
      let value ← e.carriedValue .property defaults
      return { d with properties := d.properties.insert name value }

/-- Adds a lookup method. -/
def readLookup (d : Definition) (e : Element) : Except Error Definition :=
  match e.given "name", e.given "bean" with
  | some method, some component =>
    .ok { d with lookupMethods := d.lookupMethods.insert method component }
  | _, _ => .error (.invalidDeclaration .lookupIncomplete)

/-- Adds what a child of a component element says; other children say nothing. -/
def readChild (defaults : Defaults) (d : Definition) (e : Element) : Except Error Definition :=
  match e.name with
  | "constructor-arg" => d.readArgument defaults e
  | "property" => d.readProperty defaults e
  | "lookup-method" => d.readLookup e
  | "description" => .ok { d with description := e.text.map Text.trim }
  | _ => .ok d

end Definition

namespace Element

/-- The names in a multi-valued attribute. -/
def tokensOf (e : Element) (name : String) : List String :=
  ((e.attr name).map Text.tokenize).getD []

/-- The recipe in the attributes of a component element. -/
def recipeAttributes (e : Element) (defaults : Defaults) (location : String) :
    Except Error Definition := do
  let autowireMode ← Defaults.autowireOr e "autowire" defaults.autowire
  return {
    className := e.given "class"
    parentName := e.given "parent"
    scope := e.given "scope"
    lazyInit := ((e.explicit "lazy-init").map Defaults.isTrue).or defaults.lazyInit
    primary := (e.given "primary").map Defaults.isTrue
    autowireCandidate := (e.explicit "autowire-candidate").map Defaults.isTrue
    autowireMode
    factoryBean := e.given "factory-bean"
    factoryMethod := e.given "factory-method"
    initMethod := (e.given "init-method").or defaults.initMethod
    destroyMethod := (e.given "destroy-method").or defaults.destroyMethod
    dependsOn := e.tokensOf "depends-on"
    isAbstract := (e.attr "abstract").any Defaults.isTrue
    resource := some location }

/-- The recipe in a component element of a document. -/
def toDefinition (e : Element) (defaults : Defaults) (location : String) :
    Except Error Definition := do
  let d ← e.recipeAttributes defaults location
  e.children.foldlM (Definition.readChild defaults) d

end Element

/-! ## Names -/

/-- What the name of an unnamed component starts with. -/
def Definition.nameSource? (d : Definition) : Option String :=
  match d.className, d.parentName, d.factoryBean with
  | some name, _, _ => some name
  | none, some parent, _ => some (parent ++ "$child")
  | none, none, some factory => some (factory ++ "$created")
  | none, none, none => none

/-- The name with a number behind it. -/
def numbered (base : String) (number : Nat) : String := s!"{base}#{number}"

/-- The names and aliases that a document has declared. -/
structure Declared where
  names : List String := []
deriving Inhabited

namespace Declared

/-- Whether a name can be given to an unnamed component. -/
def isFree (declared : Declared) (registered : Names) (name : String) : Bool :=
  !registered.inUse name && !declared.names.contains name

/-- The least number that makes a free name. Among more numbers than there are names in use one
is always free. -/
def freeNumber (declared : Declared) (registered : Names) (base : String) : Nat :=
  let used := registered.definitions.size + registered.aliases.size + declared.names.length
  ((List.range (used + 1)).find? fun k =>
    declared.isFree registered (numbered base k)).getD (used + 1)

/-- Notes the name and the aliases of a declaration. -/
def note (declared : Declared) (name : String) (aliases : List String) (location : String) :
    Traced Declared := do
  if declared.names.contains name then Traced.emit (.declarationRepeated name location)
  return ⟨declared.names ++ name :: aliases⟩

/-- The name and the aliases that a component element states. -/
def statedNames (e : Element) : Option String × List String :=
  match e.given "id", e.tokensOf "name" with
  | some id, aliases => (some id, aliases)
  | none, first :: aliases => (some first, aliases)
  | none, [] => (none, [])

/-- Names a recipe that has no name. The first component of a class is also known by the class
alone, if that is free. -/
def nameRecipe (declared : Declared) (registered : Names) (d : Definition) :
    Except Error Declaration :=
  match d.nameSource? with
  | none => .error (.invalidDeclaration .noNameSource)
  | some base =>
    let name := numbered base (declared.freeNumber registered base)
    let aliases := match d.className with
      | some className => if declared.isFree registered className then [className] else []
      | none => []
    .ok ⟨name, aliases, d⟩

/-- Reads a component element of the document at `location`. What the document has declared
counts even if the element turns out to be invalid. -/
def readComponent (declared : Declared) (registered : Names) (location : String)
    (defaults : Defaults) (e : Element) : Traced (Except Error Declaration × Declared) := do
  match statedNames e with
  | (some name, aliases) =>
    let declared ← declared.note name aliases location
    return ((e.toDefinition defaults location).map fun d => ⟨name, aliases, d⟩, declared)
  | (none, _) =>
    return ((e.toDefinition defaults location).bind (declared.nameRecipe registered), declared)

end Declared

end Blueprint
