import Blueprint.Definition.Arguments

/-!
# Definitions

A `Definition` is the recipe for one component : which type implements it, how it is constructed,
what is injected, its scope and some flags. Most fields are optional, so that a child can leave
them to its parent; `Definition.overlay` is the recipe of a child over one that is already
complete.

`Definition.sameContent` compares two recipes without the document they come from and without
the order of their properties and lookup methods.

A `Declaration` is a definition with the name and the aliases it is to have.
-/

namespace Blueprint

/-- How collaborators that are not given are found. -/
inductive Autowire where
  | no
  | byName
  | byType
  | constructor
deriving DecidableEq, Repr, Inhabited

/-- How a document spells the mode. -/
def Autowire.spelling : Autowire → String
  | .no => "no"
  | .byName => "byName"
  | .byType => "byType"
  | .constructor => "constructor"

/-- The mode with a spelling. -/
def Autowire.ofSpelling? (s : String) : Option Autowire :=
  [Autowire.no, .byName, .byType, .constructor].find? fun m => m.spelling = s

theorem Autowire.ofSpelling?_spelling (m : Autowire) : ofSpelling? m.spelling = some m := by
  cases m <;> decide

/-- What part of an application a component belongs to. -/
inductive Role where
  | application
  | support
  | infrastructure
deriving DecidableEq, Repr, Inhabited

/-- The scope of one shared instance. -/
def singletonScope : String := "singleton"

/-- The scope of a new instance for every request. -/
def prototypeScope : String := "prototype"

/-- The recipe for one component. -/
structure Definition where
  className : Option String := none
  /-- The definition that the unset fields are taken from. -/
  parentName : Option String := none
  scope : Option String := none
  lazyInit : Option Bool := none
  primary : Option Bool := none
  autowireCandidate : Option Bool := none
  autowireMode : Option Autowire := none
  arguments : Arguments := .empty
  properties : Table String Value := {}
  /-- For each method the component it returns. -/
  lookupMethods : Table String String := {}
  factoryBean : Option String := none
  factoryMethod : Option String := none
  initMethod : Option String := none
  destroyMethod : Option String := none
  /-- The components to be created first. -/
  dependsOn : List String := []
  /-- A template, which is never built and whose mark is never inherited. -/
  isAbstract : Bool := false
  role : Role := .application
  description : Option String := none
  /-- The document it was declared in. -/
  resource : Option String := none
deriving Inhabited

/-- The nearer text, unless it is missing or empty. -/
def nearest (child parent : Option String) : Option String :=
  match child with
  | some s => if s.isEmpty then parent else some s
  | none => parent

namespace Definition

/-- A definition with an implementing type. -/
def ofClass (name : String) : Definition := { className := some name }

/-- A definition that inherits from another. -/
def childOf (name : String) : Definition := { parentName := some name }

/-- The scope, which is `singleton` unless one is given. -/
def effectiveScope (d : Definition) : String :=
  match d.scope with
  | some s => if s.isEmpty then singletonScope else s
  | none => singletonScope

/-- One instance is shared. -/
def isSingleton (d : Definition) : Bool := d.effectiveScope == singletonScope

/-- Every request gets an instance of its own. -/
def isPrototype (d : Definition) : Bool := d.effectiveScope == prototypeScope

/-- Created on demand, which no definition is unless it says so. -/
def isLazy (d : Definition) : Bool := d.lazyInit.getD false

/-- Preferred over others of its type, which no definition is unless it says so. -/
def isPrimary (d : Definition) : Bool := d.primary.getD false

/-- Offered to others by type, which every definition is unless it says otherwise. -/
def isCandidate (d : Definition) : Bool := d.autowireCandidate.getD true

/-- The autowire mode, which is `no` unless one is given. -/
def autowire (d : Definition) : Autowire := d.autowireMode.getD .no

/-- Every component the recipe mentions : those it depends on, references in arguments,
properties and their lists, lookup methods, and the factory. -/
def referencedNames (d : Definition) : List String :=
  d.dependsOn ++ d.arguments.toList.flatMap (·.value.references) ++
    d.properties.values.flatMap Value.references ++ d.lookupMethods.values ++
    d.factoryBean.toList

/-- The properties of a child over those of its parent. -/
def overlayProperties (child parent : Table String Value) : Table String Value :=
  child.entries.foldl
    (fun t e => t.insert e.1 (match parent.get? e.1 with
      | some inherited => e.2.overlay inherited
      | none => e.2))
    parent

/-- The names, with those of a child that are new behind those of its parent. -/
def overlayNames (child parent : List String) : List String :=
  child.foldl (fun names name => if names.contains name then names else names ++ [name]) parent

/-- The recipe of a child over the complete recipe of its parent. -/
def overlay (child parent : Definition) : Definition where
  className := nearest child.className parent.className
  parentName := none
  scope := nearest child.scope parent.scope
  lazyInit := child.lazyInit.or parent.lazyInit
  primary := child.primary.or parent.primary
  autowireCandidate := child.autowireCandidate.or parent.autowireCandidate
  autowireMode := child.autowireMode.or parent.autowireMode
  arguments := child.arguments.overlay parent.arguments
  properties := overlayProperties child.properties parent.properties
  lookupMethods := parent.lookupMethods.insertAll child.lookupMethods
  factoryBean := nearest child.factoryBean parent.factoryBean
  factoryMethod := nearest child.factoryMethod parent.factoryMethod
  initMethod := nearest child.initMethod parent.initMethod
  destroyMethod := nearest child.destroyMethod parent.destroyMethod
  dependsOn := overlayNames child.dependsOn parent.dependsOn
  isAbstract := child.isAbstract
  role := child.role
  description := nearest child.description parent.description
  resource := nearest child.resource parent.resource

/-- The same recipe, wherever it was declared and in whatever order its properties and lookup
methods came. -/
def sameContent (a b : Definition) : Bool :=
  a.className == b.className && a.parentName == b.parentName && a.scope == b.scope &&
    a.lazyInit == b.lazyInit && a.primary == b.primary &&
    a.autowireCandidate == b.autowireCandidate && a.autowireMode == b.autowireMode &&
    a.arguments == b.arguments && a.properties.sameEntries b.properties &&
    a.lookupMethods.sameEntries b.lookupMethods && a.factoryBean == b.factoryBean &&
    a.factoryMethod == b.factoryMethod && a.initMethod == b.initMethod &&
    a.destroyMethod == b.destroyMethod && a.dependsOn == b.dependsOn &&
    a.isAbstract == b.isAbstract && a.role == b.role && a.description == b.description

end Definition

/-- A definition with the name and the aliases it is to have. -/
structure Declaration where
  name : String
  aliases : List String := []
  definition : Definition
deriving Inhabited

end Blueprint
