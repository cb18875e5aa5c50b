import Blueprint.Proofs.Compile.Numbering
import Blueprint.Proofs.Compile.Settings

/-!
# Where the definitions of a registry come from

When compiling comes to a component of a document, it reads it as a declaration
(`Compiler.DeclaredAt`), with the defaults of the scopes that the component stands in. Without hooks
that interfere nothing else puts definitions into a registry (`definitions_compileEntry`), so after
a compilation, also one that failed at an import, every definition was there before or is that of a
component of a document that was read, settled by the scopes of this document that are around it
(`settled_compile`).
-/

namespace Blueprint

namespace Compiler

open Walk

variable {c : Compiler} {walk : DocumentWalk} {base location : String} {index : Nat}
  {document e : Element} {place : List Nat} {defaults : Defaults} {declaration : Declaration}
  {declared declared' : Declared} {entry : OutlineEntry} {s t : Session}

/-- When compiling a document comes to the component at a place, it is read as a declaration. -/
def DeclaredAt (c : Compiler) (base location : String) (document : Element) (place : List Nat)
    (e : Element) (declaration : Declaration) : Prop :=
  ∃ depth before after defaults index declared start s,
    document.tour c.environment {} = before ++ (place, .component e defaults) :: after ∧
    c.compileEntries (c.compileWithin base depth) base location 0 {} (before.map Prod.snd) start =
      .ok (index, declared) s ∧
    (declared.readComponent s.registry.names location defaults e).value.1 = .ok declaration

/-- A component that is read stands in scopes that settle it. -/
theorem DeclaredAt.exists_settled (h : c.DeclaredAt base location document place e declaration) :
    ∃ scopes, document.StandsAt c.environment place scopes e ∧
      declaration.definition.Settled scopes e := by
  obtain ⟨depth, before, after, defaults, index, declared, start, s, htour, -, hread⟩ := h
  have hsaid : document.SaysAt c.environment {} place (.component e defaults) :=
    Element.saysAt_of_mem_tour (by simp [htour]) rfl
  obtain ⟨scopes, hstands, rfl⟩ := Element.saysAt_component_iff.mp hsaid
  exact ⟨scopes, hstands, Element.settled_of_toDefinition (Declared.readComponent_eq_ok hread).1⟩

/-! ## Entries -/

/-- A component adds the definition that it was read as, or none. -/
theorem definitions_compileComponent (hhooks : c.hooks = {})
    (h : c.compileComponent declared location index e defaults s = .ok declared' t) :
    t.registry.names.definitions = s.registry.names.definitions ∨
      ∃ d, (declared.readComponent s.registry.names location defaults e).value.1 = .ok d ∧
        t.registry.names.definitions = s.registry.names.definitions.insert d.name d.definition := by
  rw [compileComponent_eq] at h
  cases hread : (declared.readComponent s.registry.names location defaults e).value.1 with
  | error cause =>
    rw [hread] at h
    cases h
    exact .inl rfl
  | ok d =>
    rw [hread, bind_of_ok (registerDeclaration_of_ok hhooks e d _)] at h
    rcases hdeclare : (s.registry.declare d).value with ⟨cause | u, r⟩
    · simp only [hdeclare] at h
      cases h
      exact .inl (Registry.definitions_declare_of_error hdeclare)
    · simp only [hdeclare] at h
      cases h
      exact .inr ⟨d, rfl, Registry.definitions_declare_of_ok hdeclare⟩

theorem definitions_compileAlias {u : Unit} (h : compileAlias location index e s = .ok u t) :
    t.registry.names.definitions = s.registry.names.definitions := by
  rcases registry_compileAlias h with hsame | ⟨name, aliasName, hpointed⟩
  · rw [hsame]
  · rw [hpointed, Registry.definitions_registerAlias]

/-- Without hooks only components put definitions into a registry. -/
theorem definitions_compileEntry (hhooks : c.hooks = {}) (hentry : ∀ e, entry ≠ .importing e)
    (h : c.compileEntry walk base location index declared entry s = .ok declared' t) :
    t.registry.names.definitions = s.registry.names.definitions ∨
      ∃ e defaults d, entry = .component e defaults ∧
        (declared.readComponent s.registry.names location defaults e).value.1 = .ok d ∧
        t.registry.names.definitions = s.registry.names.definitions.insert d.name d.definition := by
  cases entry with
  | component e defaults =>
    refine (definitions_compileComponent hhooks h).imp_right ?_
    rintro ⟨d, hread, hinsert⟩
    exact ⟨e, defaults, d, rfl, hread, hinsert⟩
  | aliasing e =>
    obtain ⟨_, t', halias, hpure⟩ := bind_eq_ok_iff.mp h
    cases hpure
    exact .inl (definitions_compileAlias halias)
  | custom e =>
    rw [compileEntry, compileCustom, hhooks] at h
    cases h
    exact .inl rfl
  | importing e => exact absurd rfl (hentry e)
  | skipped | invalidDefaults | enter | leave =>
    cases h
    exact .inl rfl

/-! ## Documents -/

/-- A compilation leaves the registry of its last session, also when it is broken off. -/
theorem registry_compile (c : Compiler) (root : Element) (base : String) (registry : Registry) :
    (c.compile root base registry).value.registry =
      (final (c.compileFrom base base root) (.start base registry)).registry := by
  rw [value_compile]
  cases hrun : c.compileFrom base base root (.start base registry) with
  | error cause t => rw [final_of_error hrun]
  | ok u t => rw [final_of_ok hrun]

/-- Every definition that a registry has gained is that of a component that was read, in a document
that was. -/
def Accounts (c : Compiler) (base : String) (root : Element) (r r' : Registry) : Prop :=
  ∀ name d, r'.names.definitions.get? name = some d →
    r.names.definitions.get? name = some d ∨ ∃ location document place e declaration,
      c.ReadAt base root location document ∧
      c.DeclaredAt base location document place e declaration ∧
      declaration.name = name ∧ declaration.definition = d

/-- Whatever definitions compiling adds, they are those of components that were read. -/
theorem accounts_compileWithin (hhooks : c.hooks = {}) (base : String) (root : Element)
    (depth : Nat) (doc : c.ReadAt base root location document) (s : Session) :
    c.Accounts base root s.registry
      (final (c.compileWithin base depth location document) s).registry := by
  refine compileWithin_induction (R := fun s t => c.Accounts base root s.registry t.registry)
    (D := c.ReadAt base root) ?_ ?_ .inr ?_ depth doc s
  · intro s t hlevel name d hget
    exact .inl (hlevel.registry ▸ hget)
  · intro s t u hst htu name d hget
    exact (htu name d hget).elim (hst name d) .inr
  · intro depth location document before after entry declared declared' start s t hdocument
      houtline hentry hrun hlast _ name d hget
    rcases definitions_compileEntry hhooks hentry hlast with
      hsame | ⟨e, defaults, declaration, rfl, hread, hinsert⟩
    · exact .inl (hsame ▸ hget)
    · rw [hinsert, Table.get?_insert] at hget
      split at hget
      · rename_i hname
        rw [← Element.map_snd_tour] at houtline
        obtain ⟨before', rest, htour, hbefore, hrest⟩ := List.map_eq_append_iff.mp houtline
        obtain ⟨⟨place, _⟩, after', rfl, rfl, -⟩ := List.map_eq_cons_iff.mp hrest
        exact .inr ⟨location, document, place, e, declaration, hdocument,
          ⟨depth, before', after', _, _, declared, start, s, htour, hbefore ▸ hrun, hread⟩,
          hname.symm, Option.some.inj hget⟩
      · exact .inl hget

/-- A component that is read is settled by the scopes that it stands in, the nearest one before all
others, and by nothing else. Every definition that is in a registry after a compilation, but was not
before, is that of such a component, which stands in the document that was compiled or in one that
was imported, and in scopes of that document only. -/
theorem settled_compile (hhooks : c.hooks = {}) (root : Element) (base : String)
    (registry : Registry) :
    (∀ location document place scopes e declaration,
      document.StandsAt c.environment place scopes e →
      c.DeclaredAt base location document place e declaration →
      declaration.definition.Settled scopes e) ∧
    ∀ name d, (c.compile root base registry).value.registry.names.definitions.get? name = some d →
      registry.names.definitions.get? name = some d ∨
        ∃ location document place scopes e declaration,
          c.ReadAt base root location document ∧
          document.StandsAt c.environment place scopes e ∧
          c.DeclaredAt base location document place e declaration ∧
          declaration.name = name ∧ declaration.definition = d ∧ d.Settled scopes e := by
  constructor
  · intro location document place scopes e declaration hstands hdeclared
    obtain ⟨scopes', hstands', hsettled⟩ := hdeclared.exists_settled
    obtain ⟨rfl, -⟩ := hstands.unique hstands'
    exact hsettled
  · intro name d hget
    rw [registry_compile] at hget
    refine (accounts_compileWithin hhooks base root (c.source.depthLimit + 1) (.inl ⟨rfl, rfl⟩)
      (.start base registry) name d hget).imp_right ?_
    rintro ⟨location, document, place, e, declaration, hdocument, hdeclared, rfl, rfl⟩
    obtain ⟨scopes, hstands, hsettled⟩ := hdeclared.exists_settled
    exact ⟨location, document, place, scopes, e, declaration, hdocument, hstands, hdeclared, rfl,
      rfl, hsettled⟩

end Compiler

/-- A component with a list in a list. -/
def Element.stocked : Element :=
  { name := "component",
    attributes := .ofList [("id", "store"), ("class", "Memory"), ("destroy-method", "close")],
    children := [{
      name := "property", attributes := .ofList [("name", "items")],
      children := [{
        name := "list",
        children := [{ name := "list", attributes := .ofList [("merge", "false")] }] }] }] }

/-- Scopes that set several defaults, of which the middle one has an autowire mode that is none. -/
def Element.nested : Element :=
  { name := "components",
    attributes := .ofList [("default-lazy-init", "true"), ("default-merge", "true"),
      ("default-init-method", "open")],
    children := [{
      name := "components",
      attributes := .ofList [("default-autowire", "sideways"), ("default-lazy-init", "false")],
      children := [{
        name := "components",
        attributes := .ofList [("default-autowire", "byType"), ("default-lazy-init", "default"),
          ("default-init-method", " "), ("default-destroy-method", "drop")],
        children := [.stocked] }] }] }

namespace Compiler

/-- The component is lazy, as the outermost scope says, although the next one says otherwise. -/
theorem settled_nested :
    ∃ declaration, DeclaredAt { source := ({} : Library).source } "main" "main" .nested [0, 0, 0]
        .stocked declaration ∧
      (compile { source := ({} : Library).source } .nested "main"
        {}).value.registry.names.definitions.get? "store" = some declaration.definition ∧
      declaration.definition.lazyInit = some true ∧
      declaration.definition.autowireMode.map Autowire.spelling = some "byType" ∧
      declaration.definition.initMethod = some "open" ∧
      declaration.definition.destroyMethod = some "close" ∧
      declaration.definition.properties.get? "items" =
        some (.list [.list [] (some false)] (some true)) := by
  obtain ⟨declaration, hdeclared, hregistry, hitems⟩ : ∃ declaration,
      DeclaredAt { source := ({} : Library).source } "main" "main" .nested [0, 0, 0] .stocked
        declaration ∧
      (compile { source := ({} : Library).source } .nested "main"
        {}).value.registry.names.definitions.get? "store" = some declaration.definition ∧
      declaration.definition.properties.get? "items" =
        some (.list [.list [] (some false)] (some true)) :=
    ⟨_, ⟨0, (Element.nested.tour {} {}).take 4, (Element.nested.tour {} {}).drop 5, _, _, _,
      .start "main" {}, _, rfl, rfl, rfl⟩, rfl, rfl⟩
  have hstands : Element.nested.StandsAt {} [0, 0, 0] _ .stocked :=
    .inside rfl rfl rfl (.inside rfl rfl rfl (.child rfl rfl rfl))
  have hsettled := (settled_compile (c := { source := ({} : Library).source }) rfl .nested "main"
    {}).1 _ _ _ _ _ _ hstands hdeclared
  exact ⟨declaration, hdeclared, hregistry, hsettled.lazyInit.trans (by decide),
    hsettled.autowireMode.trans (by decide), hsettled.initMethod.trans (by decide),
    hsettled.destroyMethod.trans (by decide), hitems⟩

end Compiler

end Blueprint
