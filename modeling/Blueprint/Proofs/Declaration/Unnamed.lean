import Blueprint.Proofs.Declaration.FreeName
import Blueprint.Proofs.Declaration.Recipe
import Blueprint.Proofs.Registry.Gain

/-!
# Unnamed components

A component element without an id and without names is named after its class, or else its parent or
its factory (`Element.NamedAfter`), with the least number that makes an unused name. The class alone
becomes an alias if it is unused (`Declared.Numbered`).

`unnamed_of_readComponent` : such a declaration is fresh whatever the registry and the document
hold, so the registry accepts it under every policy and adds nothing but it. An alias that already
points at the name, or a chain of them, is no obstacle, since what a new alias is pointed at is no
alias itself.
-/

namespace Blueprint

variable {declared : Declared} {registered : Names} {location : String} {defaults : Defaults}
  {e : Element} {d : Definition} {base : String}

/-- What the name of an unnamed component starts with. -/
inductive Element.NamedAfter (e : Element) : String → Prop
  | ofClass {name : String} (class_given : e.given "class" = some name) : e.NamedAfter name
  | ofParent {parent : String} (no_class : e.given "class" = none)
    (parent_given : e.given "parent" = some parent) : e.NamedAfter (parent ++ "$child")
  | ofFactory {factory : String} (no_class : e.given "class" = none)
    (no_parent : e.given "parent" = none) (factory_given : e.given "factory-bean" = some factory) :
    e.NamedAfter (factory ++ "$created")

/-- A declaration with the least number that makes an unused name, and with the class as its only
alias if that is unused. -/
structure Declared.Numbered (declared : Declared) (registered : Names) (e : Element)
    (d : Declaration) : Prop where
  least : ∃ base number, e.NamedAfter base ∧ d.name = numbered base number ∧
    ∀ k < number, ¬declared.Unused registered (numbered base k)
  unused : declared.Unused registered d.name
  one_alias : d.aliases.length ≤ 1
  mem_aliases : ∀ a, a ∈ d.aliases ↔ e.given "class" = some a ∧ declared.Unused registered a

namespace Element

/-- What an element gives is not blank. -/
theorem isBlank_of_given {key value : String} (h : e.given key = some value) :
    Text.isBlank value = false := by
  obtain ⟨hvalue, hfilled⟩ := Option.filter_eq_some_iff.mp h
  obtain ⟨text, -, rfl⟩ := Option.map_eq_some_iff.mp hvalue
  rw [Text.isBlank_trim]
  refine Bool.eq_false_iff.mpr fun hblank => ?_
  simp [Text.trim_eq_empty_iff.mpr hblank] at hfilled

/-- Children of an element do not change what it can be named after. -/
theorem namingAttributes_of_toDefinition (h : e.toDefinition defaults location = .ok d) :
    d.className = e.given "class" ∧ d.parentName = e.given "parent" ∧
      d.factoryBean = e.given "factory-bean" := by
  obtain ⟨mode, -, hattributes⟩ := exists_of_bind_eq_ok (recipeAttributes_of_toDefinition h)
  have hpart := (Except.ok.inj hattributes).symm
  exact ⟨congrArg Definition.className hpart, congrArg Definition.parentName hpart,
    congrArg Definition.factoryBean hpart⟩

/-- The base of the name that is looked for is what the element is named after. -/
theorem nameSource?_of_toDefinition (h : e.toDefinition defaults location = .ok d) :
    d.nameSource? = some base ↔ e.NamedAfter base := by
  obtain ⟨hclass, hparent, hfactory⟩ := namingAttributes_of_toDefinition h
  rw [Definition.nameSource?, hclass, hparent, hfactory]
  constructor
  · intro hsource
    split at hsource
    · cases hsource
      exact .ofClass ‹_›
    · cases hsource
      exact .ofParent ‹_› ‹_›
    · cases hsource
      exact .ofFactory ‹_› ‹_› ‹_›
    · cases hsource
  · rintro (h | ⟨h, hp⟩ | ⟨h, hp, hf⟩)
    · rw [h]
    · rw [h, hp]
    · rw [h, hp, hf]

end Element

/-! ## The declaration -/

namespace Declared

/-- What an unnamed recipe is declared as : under the least unused number of its source, and under
its class alone if that is unused. -/
def unnamedDeclaration (declared : Declared) (registered : Names) (base : String)
    (d : Definition) : Declaration where
  name := numbered base (declared.freeNumber registered base)
  aliases := (d.className.filter (declared.isFree registered)).toList
  definition := d

/-- A recipe with a base for its name is declared with the least unused number. -/
theorem nameRecipe_of_nameSource? (h : d.nameSource? = some base) :
    declared.nameRecipe registered d = .ok (declared.unnamedDeclaration registered base d) := by
  rw [nameRecipe, h, unnamedDeclaration]
  cases d.className with
  | none => rfl
  | some className =>
    cases hfree : declared.isFree registered className <;> simp [Option.filter, hfree]

/-- A recipe is declared just if there is a base for its name. -/
theorem nameRecipe_eq_ok_iff {declaration : Declaration} :
    declared.nameRecipe registered d = .ok declaration ↔
      ∃ base, d.nameSource? = some base ∧
        declared.unnamedDeclaration registered base d = declaration := by
  cases hsource : d.nameSource? with
  | none => simp [nameRecipe, hsource]
  | some base => simp [nameRecipe_of_nameSource? hsource]

/-- The only alias is the class, if it is unused. -/
theorem mem_aliases_unnamedDeclaration {a : String} :
    a ∈ (declared.unnamedDeclaration registered base d).aliases ↔
      d.className = some a ∧ declared.Unused registered a := by
  simp [unnamedDeclaration, Option.filter_eq_some_iff, isFree_iff_unused]

theorem numbered_unnamedDeclaration (h : e.toDefinition defaults location = .ok d)
    (hsource : d.nameSource? = some base) :
    declared.Numbered registered e (declared.unnamedDeclaration registered base d) where
  least := by
    refine ⟨base, _, (Element.nameSource?_of_toDefinition h).mp hsource, rfl,
      fun k hk hunused => ?_⟩
    have htaken := isFree_eq_false_of_lt_freeNumber hk
    rw [isFree_iff_unused.mpr hunused] at htaken
    cases htaken
  unused := isFree_iff_unused.mp (declared.isFree_freeNumber registered base)
  one_alias := by
    simp only [unnamedDeclaration]
    cases d.className.filter (declared.isFree registered) <;> simp
  mem_aliases a := by
    rw [mem_aliases_unnamedDeclaration, (Element.namingAttributes_of_toDefinition h).1]

/-- What is unused for the document is in no use in the registry. -/
theorem Unused.inUse_eq_false {name : String} (h : declared.Unused registered name) :
    registered.inUse name = false := by
  simp [Names.inUse, h.undefined, h.no_alias]

/-- The number is not part of the class, so neither name nor alias is in the way of the other. -/
theorem fresh_unnamedDeclaration (hsource : d.nameSource? = some base)
    (hclass : ∀ className, d.className = some className → Text.isBlank className = false) :
    (declared.unnamedDeclaration registered base d).Fresh registered where
  not_blank x hx := by
    rcases List.mem_cons.mp hx with rfl | ha
    · exact isBlank_numbered _ _
    · exact hclass x (mem_aliases_unnamedDeclaration.mp ha).1
  free x hx := by
    rcases List.mem_cons.mp hx with rfl | ha
    · exact (isFree_iff_unused.mp (declared.isFree_freeNumber registered base)).inUse_eq_false
    · exact (mem_aliases_unnamedDeclaration.mp ha).2.inUse_eq_false
  distinct := by
    refine List.nodup_cons.mpr ⟨fun hname => ?_, ?_⟩
    · have hclass := (mem_aliases_unnamedDeclaration.mp hname).1
      rw [Definition.nameSource?, hclass] at hsource
      exact ne_numbered base _ (Option.some.inj hsource).symm
    · simp only [unnamedDeclaration]
      cases d.className.filter (declared.isFree registered) <;> simp

/-- An element without an id and names is declared by what its recipe is named after. -/
theorem value_readComponent_of_unnamed (hid : e.given "id" = none)
    (hname : e.tokensOf "name" = []) :
    (declared.readComponent registered location defaults e).value =
      ((e.toDefinition defaults location).bind (declared.nameRecipe registered), declared) := by
  have hstated : statedNames e = (none, []) := by rw [statedNames, hid, hname]
  rw [readComponent, hstated]
  rfl

end Declared

/-! ## Reading and registering -/

/-- An unnamed component is read just if its recipe can be read and it has something to be named
after. It gets the least number that makes an unused name, and its class as an alias if that is
unused. Whatever the registry holds and whatever may be overridden there, it accepts the declaration
and has it behind everything else. -/
theorem unnamed_of_readComponent (declared : Declared) (r : Registry) (location : String)
    (defaults : Defaults) (e : Element) (hid : e.given "id" = none)
    (hname : e.tokensOf "name" = []) :
    ((∃ d, (declared.readComponent r.names location defaults e).value.1 = .ok d) ↔
      (∃ recipe, e.toDefinition defaults location = .ok recipe) ∧ ∃ base, e.NamedAfter base) ∧
    ∀ d, (declared.readComponent r.names location defaults e).value.1 = .ok d →
      e.toDefinition defaults location = .ok d.definition ∧
      declared.Numbered r.names e d ∧
      ∀ policy : Policy, ∃ r', (({ r with policy } : Registry).declare d).value = (.ok (), r') ∧
        Names.Gains d r.names r'.names ∧ r'.definedNames = r.definedNames ++ [d.name] := by
  rw [Declared.value_readComponent_of_unnamed hid hname]
  cases hrecipe : e.toDefinition defaults location with
  | error cause => exact ⟨by simp [Except.bind], fun d h => by simp [Except.bind] at h⟩
  | ok recipe =>
    have hclass := (Element.namingAttributes_of_toDefinition hrecipe).1
    simp only [Except.bind, Declared.nameRecipe_eq_ok_iff]
    refine ⟨by simp [Element.nameSource?_of_toDefinition hrecipe], ?_⟩
    rintro d ⟨base, hsource, rfl⟩
    refine ⟨rfl, Declared.numbered_unnamedDeclaration hrecipe hsource, fun policy => ?_⟩
    have hfresh : (declared.unnamedDeclaration r.names base recipe).Fresh r.names :=
      Declared.fresh_unnamedDeclaration hsource
        fun className h => Element.isBlank_of_given (hclass ▸ h)
    obtain ⟨r', hdeclared, hgains⟩ := Registry.declare_of_fresh (r := { r with policy }) hfresh
    exact ⟨r', hdeclared, hgains, Names.Gains.keys hgains⟩

/-- A component with a class and nothing else. -/
def storeElement : Element where
  name := "component"
  attributes := .ofList [("class", " Store ")]

/-- Names with an alias that points at a name nobody has yet. -/
def awaitingNames : Names where
  aliases := .ofList [("Store#0", "Store#2")]

/-- The first number is an alias, the second is declared, and the third is what the alias points at,
which takes nothing away. -/
theorem unnamed_of_readComponent_awaited :
    storeElement.given "id" = none ∧ storeElement.tokensOf "name" = [] ∧
      ∃ d, ((Declared.mk ["Store#1"]).readComponent awaitingNames "a.xml" {}
          storeElement).value.1 = .ok d ∧
        d.name = "Store#2" ∧ d.aliases = ["Store"] ∧
        ∀ policy : Policy, ∃ r',
          (({ names := awaitingNames, policy } : Registry).declare d).value = (.ok (), r') ∧
            Names.Gains d awaitingNames r'.names ∧ r'.definedNames = ["Store#2"] := by
  have hid : storeElement.given "id" = none := by decide
  have hname : storeElement.tokensOf "name" = [] := by decide
  have hread : ((Declared.mk ["Store#1"]).readComponent awaitingNames "a.xml" {}
      storeElement).value.1 = .ok ⟨"Store#2", ["Store"],
        { className := some "Store", resource := some "a.xml" }⟩ := by
    rfl
  have hall := (unnamed_of_readComponent ⟨["Store#1"]⟩ { names := awaitingNames } "a.xml" {}
    storeElement hid hname).2
  obtain ⟨-, -, haccepted⟩ := hall _ hread
  exact ⟨hid, hname, _, hread, rfl, rfl, haccepted⟩

end Blueprint
