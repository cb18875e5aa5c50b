import Blueprint.Document.Resource

/-!
# Errors

One constructor for each way in which registering, merging or loading can fail, with the cause as
a value : `Error.message` is the only place that words it. The causes that the library finds itself
are constructors of their own; an extension states its reason as a text.

A document is compiled to its end although some of its declarations are invalid. Each of these is
a `Rejection`, which says where it stands, and they are reported together as `Error.rejected`.
-/

namespace Blueprint

/-- Why a name cannot be registered. -/
inductive NameFault where
  | blank
  | stated (reason : String)
deriving DecidableEq, Repr

/-- The wording of the fault. -/
def NameFault.message : NameFault → String
  | .blank => "name must not be empty"
  | .stated reason => reason

/-- Why an alias cannot be registered. -/
inductive AliasFault where
  | blankName
  | blankAlias
  /-- A definition has the name. -/
  | defined
  /-- The alias stands for another name. -/
  | taken (target : String)
  /-- The alias would stand for itself in the end. -/
  | circular
  | stated (reason : String)
deriving DecidableEq, Repr

/-- The wording of the fault. -/
def AliasFault.message : AliasFault → String
  | .blankName => "name must not be empty"
  | .blankAlias => "alias must not be empty"
  | .defined => "a component definition is already registered under that name"
  | .taken target => s!"alias is already registered for '{target}'"
  | .circular => "alias would create a circular reference"
  | .stated reason => reason

/-- Why a scope cannot be registered. -/
inductive ScopeFault where
  | blank
  | builtIn
  | stated (reason : String)
deriving DecidableEq, Repr

/-- The wording of the fault. -/
def ScopeFault.message : ScopeFault → String
  | .blank => "scope name must not be empty"
  | .builtIn => "built-in scopes cannot be replaced"
  | .stated reason => reason

/-- Why an import cannot be used as it is written. -/
inductive ImportFault where
  | noTarget (document : String)
  /-- Nothing is left of the target after its placeholders are replaced. -/
  | emptyTarget (raw document : String)
  | stated (reason : String)
deriving DecidableEq, Repr

/-- The wording of the fault. -/
def ImportFault.message : ImportFault → String
  | .noTarget document => s!"resource location must not be empty (in '{document}')"
  | .emptyTarget raw document =>
    s!"resource location '{raw}' resolves to nothing (in '{document}')"
  | .stated reason => reason

/-- Why a document cannot be loaded. -/
inductive LoadFault where
  | resource (cause : ResourceError)
  | markup (cause : MarkupError)
  /-- The documents that are open, outermost first, and then the one that is asked for again. -/
  | circular (path : List String)
  /-- Imports nest deeper than the limit. -/
  | tooDeep
  | stated (reason : String)
deriving DecidableEq, Repr

/-- The wording of the fault. -/
def LoadFault.message : LoadFault → String
  | .resource cause => cause.message
  | .markup cause => cause.message
  | .circular path => "circular import: " ++ String.intercalate " -> " path
  | .tooDeep => "imports are nested too deeply"
  | .stated reason => reason

/-- The elements that carry a value. -/
inductive Carrier where
  | property
  | argument
deriving DecidableEq, Repr

/-- The name of the element. -/
def Carrier.elementName : Carrier → String
  | .property => "property"
  | .argument => "constructor-arg"

/-- Why a declaration gives no definition. -/
inductive DeclarationFault where
  | unknownAutowire (text : String)
  | noNameSource
  | indexNotNumber (text : String)
  | indexRepeated (index : Nat)
  | propertyUnnamed
  | propertyRepeated (name : String)
  | manyValues (carrier : Carrier)
  | mixedValues (carrier : Carrier)
  | blankReference (carrier : Carrier)
  | noValue (carrier : Carrier)
  | referenceUnnamed
  | unknownValue (element : String)
  | lookupIncomplete
  | stated (reason : String)
deriving DecidableEq, Repr

/-- The wording of the fault. -/
def DeclarationFault.message : DeclarationFault → String
  | .unknownAutowire text => s!"unknown autowire mode '{text}'"
  | .noNameSource =>
    "unnamed component specifies neither 'class' nor 'parent' nor 'factory-bean'"
  | .indexNotNumber text =>
    s!"'index' of constructor-arg must be a non-negative integer, got '{text}'"
  | .indexRepeated index => s!"ambiguous constructor-arg entries for index {index}"
  | .propertyUnnamed => "property requires a 'name'"
  | .propertyRepeated name => s!"multiple 'property' definitions for property '{name}'"
  | .manyValues carrier =>
    carrier.elementName ++ " must not contain more than one sub-element"
  | .mixedValues carrier =>
    carrier.elementName ++ " is only allowed to contain either a 'ref' attribute, " ++
      "a 'value' attribute or a sub-element"
  | .blankReference carrier => carrier.elementName ++ " contains an empty 'ref' attribute"
  | .noValue carrier => carrier.elementName ++ " must specify a ref or value"
  | .referenceUnnamed => "'bean' is required for a ref element"
  | .unknownValue element => s!"unknown value element '{element}'"
  | .lookupIncomplete => "lookup-method requires both 'name' and 'bean'"
  | .stated reason => reason

/-- An invalid declaration : where it stands and what is wrong with it. -/
structure Rejection (ε : Type) where
  /-- The document. -/
  location : String
  /-- Its number among the declarations of the document, from zero. -/
  index : Nat
  /-- Its name, as far as it is known. -/
  name : Option String
  cause : ε
deriving BEq

/-- Why an operation failed. -/
inductive Error where
  | invalidName (name : String) (fault : NameFault)
  | invalidAlias (name aliasName : String) (fault : AliasFault)
  | duplicate (name : String)
  | notFound (name : String)
  /-- The parents from the name on, up to the first that comes again. -/
  | circularParent (name : String) (chain : List String)
  /-- The components in creation, oldest first, and then the one that is asked for again. -/
  | circularDependency (name : String) (chain : List String)
  | invalidImport (fault : ImportFault)
  | importFailed (location : String) (fault : LoadFault)
  | unresolved (placeholder text : String)
  /-- The placeholders in the text open further ones without end. -/
  | unbounded (text : String)
  | rejected (location : String) (rejections : List (Rejection Error))
  | invalidDeclaration (fault : DeclarationFault)
  | unknownScope (name scope : String)
  | invalidScope (scope : String) (fault : ScopeFault)
deriving BEq, Inhabited

namespace Error

/-- An arrow between each two names. -/
def arrows (names : List String) : String := String.intercalate " -> " names

/-- The wording of a rejection whose cause is worded already. -/
def rejectionMessage (location : String) (index : Nat) (name : Option String)
    (cause : String) : String :=
  match name with
  | some name => s!"{location}#{index} '{name}': {cause}"
  | none => s!"{location}#{index}: {cause}"

mutual

/-- The wording of an error. -/
def message : Error → String
  | .invalidName name fault => s!"Invalid component name '{name}': " ++ fault.message
  | .invalidAlias name aliasName fault =>
    s!"Cannot register alias '{aliasName}' for component '{name}': " ++ fault.message
  | .duplicate name =>
    s!"Component definition '{name}' is already registered and overriding is not allowed"
  | .notFound name => s!"No component definition named '{name}'"
  | .circularParent name chain =>
    s!"Circular parent chain while merging '{name}': " ++ arrows chain
  | .circularDependency name chain =>
    s!"Circular dependency detected while creating '{name}': " ++ arrows chain
  | .invalidImport fault => "Invalid import: " ++ fault.message
  | .importFailed location fault => s!"Failed to import '{location}': " ++ fault.message
  | .unresolved placeholder text =>
    s!"Could not resolve placeholder '{placeholder}' in value " ++ "\"" ++ text ++ "\""
  | .unbounded text => "Placeholders are nested too deeply in value " ++ "\"" ++ text ++ "\""
  | .rejected location rejections =>
    s!"{rejections.length} invalid declaration(s) in '{location}': " ++
      String.intercalate "; " (messages rejections)
  | .invalidDeclaration fault => "Invalid declaration: " ++ fault.message
  | .unknownScope name scope => s!"Component '{name}' uses unregistered scope '{scope}'"
  | .invalidScope scope fault => s!"Cannot register scope '{scope}': " ++ fault.message

/-- The wordings of rejections, in order. -/
def messages : List (Rejection Error) → List String
  | [] => []
  | ⟨location, index, name, cause⟩ :: rest =>
    rejectionMessage location index name (message cause) :: messages rest

end

end Error

end Blueprint
