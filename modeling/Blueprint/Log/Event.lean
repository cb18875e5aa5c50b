import Blueprint.Text.Quoted

/-!
# Events

What the library reports while it works. An `Event` is a value : its constructor says what
happened, and `Event.level`, `Event.message` and `Event.fields` say how a log shows it. Fields
are texts, numbers or flags; a list of texts is shown quoted and in brackets.
-/

namespace Blueprint

/-- How much an event matters. -/
inductive Level where
  | trace
  | debug
  | info
  | warn
  | error
deriving DecidableEq, Repr, Inhabited

/-- The level in capital letters. -/
def Level.name : Level → String
  | .trace => "TRACE"
  | .debug => "DEBUG"
  | .info => "INFO"
  | .warn => "WARN"
  | .error => "ERROR"

/-- The value of a field of an event. -/
inductive Field where
  | text (s : String)
  | number (n : Nat)
  | flag (b : Bool)
deriving DecidableEq, Repr

/-- What happened. -/
inductive Event where
  /-- A registry without a parent was made. -/
  | rootCreated (overrideDefinitions overrideAliases : Bool)
  /-- A registry was made below another one. -/
  | childCreated (parentDepth childDepth parentDefinitions : Nat)
  /-- A name was given the definition it has. -/
  | definitionRepeated (name : String)
  /-- A name was given another definition; the documents of both are told. -/
  | definitionOverridden (name : String) (previous replacement : Option String)
  /-- A definition took the name of an alias, which is gone. -/
  | aliasDisplaced (name target : String)
  | definitionRegistered (name : String) (depth count : Nat)
  /-- A declaration was undone because one of its aliases was refused. -/
  | declarationUndone (name aliasName : String)
  | definitionRemoved (name : String) (depth : Nat)
  /-- An alias was pointed at another name. -/
  | aliasOverridden (aliasName previous replacement : String)
  | aliasRegistered (name aliasName : String)
  | definitionFound (name : String) (depth : Nat)
  | definitionMissing (name : String) (depth : Nat)
  /-- A merged definition was remembered from before. -/
  | mergeRemembered (name : String)
  /-- A merged definition was computed along a chain of names. -/
  | merged (name : String) (chain : List String)
  | registryCleared (depth count : Nat)
  | edgeRegistered (dependent dependency : String)
  /-- A component was asked for while it was being created. -/
  | creationRepeated (name : String) (chain : List String)
  | scopeRegistered (scope : String)
  /-- A document declares a name for the second time. -/
  | declarationRepeated (name document : String)
  | compiling (document : String)
  | compiled (document : String) (added total invalid : Nat)
  | declarationInvalid (document : String) (index : Nat) (name : Option String) (reason : String)
  /-- A group was left out because of its profiles. -/
  | groupSkipped (document profiles : String)
  | groupEntered (document : String) (children : Nat)
  | declarationRegistered (name : String) (aliases : List String) (document : String)
  /-- An import failed beside its document and is tried beside the first one. -/
  | importRetried (location resolved reason : String)
  | importing (location resolved importer : String)
  | locationsResolved (configured : Bool) (locations : List String)
  | refreshing (locations : List String)
  | refreshed (name : String) (definitions : Nat) (replaced : Bool)
  | closing (components : Nat)
deriving DecidableEq, Repr

namespace Event

/-- The place of a document that is not known. -/
def unknownDocument : String := "<unknown>"

/-- The name of a declaration that has none. -/
def unnamed : String := "<unnamed>"

/-- How much the event matters. -/
def level : Event → Level
  | .definitionRepeated _ | .definitionFound _ _ | .mergeRemembered _ | .merged _ _
  | .edgeRegistered _ _ => .trace
  | .definitionOverridden _ _ _ | .aliasOverridden _ _ _ | .declarationRepeated _ _
  | .groupSkipped _ _ | .refreshed _ _ _ => .info
  | .aliasDisplaced _ _ | .declarationInvalid _ _ _ _ | .importRetried _ _ _ => .warn
  | _ => .debug

/-- What happened, in words. -/
def message : Event → String
  | .rootCreated _ _ => "Creating new root registry"
  | .childCreated _ _ _ => "Creating child registry"
  | .definitionRepeated _ => "Re-registering identical definition"
  | .definitionOverridden _ _ _ => "Overriding definition with a different definition"
  | .aliasDisplaced _ _ => "Definition replaces an existing alias of the same name"
  | .definitionRegistered _ _ _ => "Registered component definition"
  | .declarationUndone _ _ => "Rolled back definition after rejected alias"
  | .definitionRemoved _ _ => "Removed component definition"
  | .aliasOverridden _ _ _ => "Overriding alias"
  | .aliasRegistered _ _ => "Registered alias"
  | .definitionFound _ _ => "Definition found in current registry"
  | .definitionMissing _ _ => "Definition not found in registry or parent chain"
  | .mergeRemembered _ => "Merged definition served from cache"
  | .merged _ _ => "Merged definition chain"
  | .registryCleared _ _ => "Registry cleared"
  | .edgeRegistered _ _ => "Registered dependency edge"
  | .creationRepeated _ _ => "Component requested while already in creation"
  | .scopeRegistered _ => "Registered custom scope"
  | .declarationRepeated _ _ =>
    "Component redeclared in the same document, the later declaration wins"
  | .compiling _ => "Compiling document"
  | .compiled _ _ _ _ => "Document compiled"
  | .declarationInvalid _ _ _ _ => "Invalid declaration"
  | .groupSkipped _ _ => "Skipped scope due to specified profiles not matching"
  | .groupEntered _ _ => "Entering scope"
  | .declarationRegistered _ _ _ => "Registered component declaration"
  | .importRetried _ _ _ => "Relative import failed, retrying against the base location"
  | .importing _ _ _ => "Importing document"
  | .locationsResolved _ _ => "Resolved config locations"
  | .refreshing _ => "Refreshing context"
  | .refreshed _ _ _ => "Context refreshed"
  | .closing _ => "Closing context"

/-- A field that holds a list of texts. -/
private def texts (ss : List String) : Field := .text (Text.quotedList ss)

/-- The named details. The depth of a root registry is shown as a text, every other depth as a
number. -/
def fields : Event → List (String × Field)
  | .rootCreated definitions aliases =>
    [("depth", .text "0"), ("allow_definition_overriding", .flag definitions),
      ("allow_alias_overriding", .flag aliases)]
  | .childCreated parent child definitions =>
    [("parent_depth", .number parent), ("child_depth", .number child),
      ("parent_definitions", .number definitions)]
  | .definitionRepeated name => [("component", .text name)]
  | .definitionOverridden name previous replacement =>
    [("component", .text name), ("previous", .text (previous.getD unknownDocument)),
      ("replacement", .text (replacement.getD unknownDocument))]
  | .aliasDisplaced name target => [("component", .text name), ("alias_target", .text target)]
  | .definitionRegistered name depth count =>
    [("component", .text name), ("depth", .number depth), ("definition_count", .number count)]
  | .declarationUndone name aliasName => [("component", .text name), ("alias", .text aliasName)]
  | .definitionRemoved name depth => [("component", .text name), ("depth", .number depth)]
  | .aliasOverridden aliasName previous replacement =>
    [("alias", .text aliasName), ("previous", .text previous), ("replacement", .text replacement)]
  | .aliasRegistered name aliasName => [("component", .text name), ("alias", .text aliasName)]
  | .definitionFound name depth =>
    [("component", .text name), ("depth", .number depth), ("location", .text "local")]
  | .definitionMissing name depth => [("component", .text name), ("depth", .number depth)]
  | .mergeRemembered name => [("component", .text name)]
  | .merged name chain => [("component", .text name), ("chain", texts chain)]
  | .registryCleared depth count =>
    [("depth", .number depth), ("definitions_removed", .number count)]
  | .edgeRegistered dependent dependency =>
    [("dependent", .text dependent), ("dependency", .text dependency)]
  | .creationRepeated name chain => [("component", .text name), ("chain", texts chain)]
  | .scopeRegistered scope => [("scope", .text scope)]
  | .declarationRepeated name document =>
    [("component", .text name), ("location", .text document)]
  | .compiling document => [("location", .text document)]
  | .compiled document added total invalid =>
    [("location", .text document), ("added", .number added), ("total", .number total),
      ("invalid", .number invalid)]
  | .declarationInvalid document index name reason =>
    [("location", .text document), ("index", .number index),
      ("name", .text (name.getD unnamed)), ("error", .text reason)]
  | .groupSkipped document profiles =>
    [("location", .text document), ("profiles", .text profiles)]
  | .groupEntered document children =>
    [("location", .text document), ("children", .number children)]
  | .declarationRegistered name aliases document =>
    [("name", .text name), ("aliases", texts aliases), ("location", .text document)]
  | .importRetried location resolved reason =>
    [("location", .text location), ("resolved", .text resolved), ("error", .text reason)]
  | .importing location resolved importer =>
    [("location", .text location), ("resolved", .text resolved), ("from", .text importer)]
  | .locationsResolved configured locations =>
    [("configured", .flag configured), ("locations", texts locations)]
  | .refreshing locations => [("locations", texts locations)]
  | .refreshed name definitions replaced =>
    [("name", .text name), ("definitions", .number definitions), ("replaced", .flag replaced)]
  | .closing components => [("components", .number components)]

end Event

end Blueprint
