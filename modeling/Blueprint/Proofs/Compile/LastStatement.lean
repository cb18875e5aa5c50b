import Blueprint.Proofs.Compile.Course
import Blueprint.Proofs.Declaration.FreeName
import Blueprint.Proofs.Registry.Declare

/-!
# The last statement of a name

A component that is registered puts its definition under its name and leaves all others. An unnamed
component gets a free name, so it takes none that was stated, and aliases leave the definitions
alone. What a whole compilation does to the definitions therefore is the `Effect` of the components
on the course of its document, one after the other (`compositional_effect`).

`definition_of_latest` : after a compilation without failures the definition of every name that is
stated is the one of its last occurrence, and no alias hides it.
-/

namespace Blueprint

open Walk

/-! ## Occurrences of components -/

namespace Occurrence

variable {name : String} {os os' : List Occurrence} {o : Occurrence}

/-- The name that the element states : its `id`, or else the first of its names. -/
def name? (o : Occurrence) : Option String :=
  (o.element.given "id").or (o.element.tokensOf "name").head?

/-- What the element says, as a definition. -/
def definition (o : Occurrence) : Except Error Definition :=
  o.element.toDefinition o.defaults o.location

/-- The last occurrence that states a name. -/
def latest? (name : String) (os : List Occurrence) : Option Occurrence :=
  os.reverse.find? fun o => o.name? = some name

theorem latest?_append (name : String) (os os' : List Occurrence) :
    latest? name (os ++ os') = (latest? name os').or (latest? name os) := by
  rw [latest?, List.reverse_append, List.find?_append]
  rfl

theorem latest?_singleton (name : String) (o : Occurrence) :
    latest? name [o] = if o.name? = some name then some o else none := by
  by_cases h : o.name? = some name <;> simp [latest?, h]

theorem latest?_ne_none (ho : o ∈ os) (hname : o.name? = some name) : latest? name os ≠ none := by
  intro hnone
  have := List.find?_eq_none.mp hnone o (List.mem_reverse.mpr ho)
  simp [hname] at this

/-- The occurrences of components. Aliases and unknown elements declare none. -/
def components (os : List Occurrence) : List Occurrence :=
  os.filter fun o => o.element.kind = .component

theorem components_append (os os' : List Occurrence) :
    components (os ++ os') = components os ++ components os' :=
  List.filter_append ..

theorem components_singleton (o : Occurrence) :
    components [o] = if o.element.kind = .component then [o] else [] := by
  by_cases h : o.element.kind = .component <;> simp [components, h]

end Occurrence

/-- The component elements that are met in a whole document : those on its course. -/
def TraversalOf (c : Compiler) (l : Library) (base location : String) (root : Element)
    (os : List Occurrence) : Prop :=
  ∃ course, CourseOf c l base location root course ∧ Occurrence.components course = os

/-- There is one traversal of a document at most. -/
theorem TraversalOf.unique {c : Compiler} {l : Library} {base location : String} {root : Element}
    {os os' : List Occurrence} (h : TraversalOf c l base location root os)
    (h' : TraversalOf c l base location root os') : os = os' := by
  obtain ⟨course, hcourse, rfl⟩ := h
  obtain ⟨course', hcourse', rfl⟩ := h'
  rw [hcourse.unique hcourse']

/-! ## Effects -/

/-- What occurrences of components do to definitions : the last one to state a name gives it its
definition, and a name that none of them states keeps what it has. Sound tables stay sound. -/
structure Effect (os : List Occurrence) (before after : Names) : Prop where
  stated : ∀ name o, Occurrence.latest? name os = some o →
    ∃ d, o.definition = .ok d ∧ after.definitions.get? name = some d
  kept : ∀ name d, Occurrence.latest? name os = none → before.definitions.get? name = some d →
    after.definitions.get? name = some d
  sound : before.Sound → after.Sound

namespace Effect

variable {os os' : List Occurrence} {n n' n'' : Names}

/-- What leaves the definitions alone has the effect of no occurrence. -/
theorem of_definitions (h : n'.definitions = n.definitions) (hsound : n.Sound → n'.Sound) :
    Effect [] n n' where
  stated _ _ h := by cases h
  kept _ _ _ hget := h ▸ hget
  sound := hsound

theorem nil (n : Names) : Effect [] n n := of_definitions rfl id

/-- The effects of occurrences that follow each other come one after the other. -/
theorem append (h : Effect os n n') (h' : Effect os' n' n'') : Effect (os ++ os') n n'' where
  stated name o ho := by
    rw [Occurrence.latest?_append] at ho
    cases hlater : Occurrence.latest? name os' with
    | some o' =>
      rw [hlater] at ho
      exact h'.stated name o (hlater.trans ho)
    | none =>
      rw [hlater] at ho
      obtain ⟨d, hd, hget⟩ := h.stated name o ho
      exact ⟨d, hd, h'.kept name d hlater hget⟩
  kept name d hnone hget := by
    rw [Occurrence.latest?_append, Option.or_eq_none_iff] at hnone
    exact h'.kept name d hnone.1 (h.kept name d hnone.2 hget)
  sound := h'.sound ∘ h.sound

/-- A definition under the name that is stated, or under a name that was free if none is. -/
theorem singleton {o : Occurrence} {name : String} {d : Definition} (hd : o.definition = .ok d)
    (hname : o.name? = some name ∨ o.name? = none ∧ n.definitions.get? name = none)
    (h : n'.definitions = n.definitions.insert name d) (hsound : n.Sound → n'.Sound) :
    Effect [o] n n' where
  stated name' o' ho := by
    rw [Occurrence.latest?_singleton] at ho
    split at ho
    · rename_i hstated
      obtain rfl := Option.some.inj ho
      rcases hname with hname | ⟨hnone, -⟩
      · obtain rfl := Option.some.inj (hname.symm.trans hstated)
        exact ⟨d, hd, h ▸ Table.get?_insert_self _ _ _⟩
      · simp [hnone] at hstated
    · cases ho
  kept name' d' hnone hget := by
    rw [Occurrence.latest?_singleton] at hnone
    have hne : name' ≠ name := by
      rintro rfl
      rcases hname with hname | ⟨-, hfree⟩
      · simp [hname] at hnone
      · simp [hfree] at hget
    rw [h, Table.get?_insert_of_ne _ hne, hget]
  sound := hsound

end Effect

/-! ## Entries -/

/-- The names and definitions of a session. -/
def Session.names (s : Session) : Names := s.registry.names

variable {c : Compiler} {l : Library} {walk : DocumentWalk} {base location : String} {index : Nat}
  {defaults : Defaults} {declared declared' : Declared} {e : Element} {s t : Session}

theorem Declared.statedNames_fst (e : Element) : (Declared.statedNames e).1 =
    (e.given "id").or (e.tokensOf "name").head? := by
  rw [Declared.statedNames]
  cases e.given "id" <;> cases e.tokensOf "name" <;> rfl

/-- A component that is read has the definition of its occurrence, under the name that it states or
under a free one. -/
theorem Declared.of_readComponent {registered : Names} {d : Declaration}
    (h : (declared.readComponent registered location defaults e).value.1 = .ok d) :
    (⟨location, defaults, e⟩ : Occurrence).definition = .ok d.definition ∧
      ((⟨location, defaults, e⟩ : Occurrence).name? = some d.name ∨
        (⟨location, defaults, e⟩ : Occurrence).name? = none ∧
          registered.definitions.get? d.name = none) := by
  simp only [Occurrence.name?, Occurrence.definition, ← Declared.statedNames_fst]
  rw [Declared.readComponent] at h
  rcases hstated : Declared.statedNames e with ⟨_ | name, aliases⟩
  · simp only [hstated, Traced.value_pure] at h
    cases hd : e.toDefinition defaults location with
    | error cause => simp [hd, Except.bind] at h
    | ok recipe =>
      simp only [hd, Except.bind, Declared.nameRecipe] at h
      cases hsource : recipe.nameSource? with
      | none => simp [hsource] at h
      | some base =>
        simp only [hsource, Except.ok.injEq] at h
        have hunused := isFree_iff_unused.mp (declared.isFree_freeNumber registered base)
        rw [← h]
        exact ⟨rfl, .inr ⟨rfl, Table.get?_eq_none_iff.mpr hunused.undefined⟩⟩
  · simp only [hstated, Traced.value_bind, Traced.value_pure] at h
    cases hd : e.toDefinition defaults location with
    | error cause => simp [hd, Except.map] at h
    | ok recipe =>
      simp only [hd, Except.map, Except.ok.injEq] at h
      exact ⟨by rw [← h], .inl (by rw [← h])⟩

namespace Compiler

/-- A component is read, registered and reported. -/
theorem compileComponent_eq (c : Compiler) (declared : Declared) (location : String) (index : Nat)
    (e : Element) (defaults : Defaults) (s : Session) :
    c.compileComponent declared location index e defaults s =
      (c.registerDeclaration e (declared.readComponent s.registry.names location defaults
        e).value.1 >>= fun outcome => reportComponent location index e outcome >>= fun _ =>
          pure (declared.readComponent s.registry.names location defaults e).value.2)
        { s with events := s.events ++
          (declared.readComponent s.registry.names location defaults e).events } :=
  rfl

/-- Without hooks a declaration that was read is registered as it is. -/
theorem registerDeclaration_of_ok (hhooks : c.hooks = {}) (e : Element) (d : Declaration)
    (s : Session) : c.registerDeclaration e (.ok d) s =
      .ok ((s.registry.declare d).value.1.map fun _ => d)
        { s with
          registry := (s.registry.declare d).value.2
          notices := s.notices ++ [.decorating e.name d.name]
          events := s.events ++ (s.registry.declare d).events } := by
  rw [registerDeclaration, hhooks]
  rfl

/-- Without hooks a declaration that is registered was read, and the registry accepted it. -/
theorem of_registerDeclaration {read : Except Error Declaration} {d : Declaration}
    (hhooks : c.hooks = {}) (h : c.registerDeclaration e read s = .ok (.ok d) t) :
    read = .ok d ∧ (s.registry.declare d).value = (.ok (), t.registry) := by
  cases read with
  | error cause => cases h
  | ok d' =>
    rw [registerDeclaration_of_ok hhooks] at h
    obtain ⟨hd, rfl⟩ := EStateM.Result.ok.inj h
    cases hdeclare : (s.registry.declare d').value.1 with
    | error cause => simp [hdeclare, Except.map] at hd
    | ok u =>
      simp only [hdeclare, Except.map, Except.ok.injEq] at hd
      exact ⟨congrArg _ hd, by rw [← hd, ← hdeclare]⟩

/-- Where nothing is rejected, a declaration is reported and the registry stays. -/
theorem of_reportComponent {outcome : Except Error Declaration} {u : Unit}
    (h : reportComponent location index e outcome s = .ok u t) (hclean : t.rejections = []) :
    t.registry = s.registry ∧ ∃ d, outcome = .ok d := by
  cases outcome with
  | error cause =>
    cases h
    exact absurd hclean (by simp)
  | ok d =>
    cases h
    exact ⟨rfl, d, rfl⟩

/-- Where nothing is rejected, a component is declared as it was read. -/
theorem of_compileComponent (hhooks : c.hooks = {})
    (h : c.compileComponent declared location index e defaults s = .ok declared' t)
    (hclean : t.rejections = []) :
    ∃ d, (declared.readComponent s.registry.names location defaults e).value = (.ok d, declared') ∧
      (s.registry.declare d).value = (.ok (), t.registry) := by
  rw [compileComponent_eq] at h
  obtain ⟨outcome, u, hregister, hrest⟩ := bind_eq_ok_iff.mp h
  obtain ⟨_, u', hreport, hpure⟩ := bind_eq_ok_iff.mp hrest
  cases hpure
  obtain ⟨hregistry, d, rfl⟩ := of_reportComponent hreport hclean
  obtain ⟨hread, hdeclare⟩ := of_registerDeclaration hhooks hregister
  exact ⟨d, Prod.ext hread rfl, hregistry ▸ hdeclare⟩

/-- A component that is not rejected puts its definition under its name. -/
theorem effect_compileComponent (hhooks : c.hooks = {})
    (h : c.compileComponent declared location index e defaults s = .ok declared' t)
    (hclean : t.rejections = []) : Effect [⟨location, defaults, e⟩] s.names t.names := by
  obtain ⟨d, hread, hdeclare⟩ := of_compileComponent hhooks h hclean
  obtain ⟨hd, hname⟩ := Declared.of_readComponent (congrArg Prod.fst hread)
  refine .singleton hd hname (Registry.definitions_declare_of_ok hdeclare) fun hsound => ?_
  have hafter := Registry.sound_declare hsound d
  rwa [hdeclare] at hafter

/-- An alias element leaves the registry, or points an alias at a name. -/
theorem registry_compileAlias {u : Unit} (h : compileAlias location index e s = .ok u t) :
    t.registry = s.registry ∨
      ∃ name aliasName, t.registry = (s.registry.registerAlias name aliasName).value.2 := by
  rw [compileAlias] at h
  cases hname : e.given "name" with
  | none =>
    rw [hname] at h
    cases h
    exact .inl rfl
  | some name =>
    cases halias : e.given "alias" with
    | none =>
      rw [hname, halias] at h
      cases h
      exact .inl rfl
    | some aliasName =>
      rw [hname, halias] at h
      obtain ⟨outcome, s', hregister, hrest⟩ := bind_eq_ok_iff.mp h
      obtain ⟨-, rfl⟩ := EStateM.Result.ok.inj ((onRegistry_eq _ _).symm.trans hregister)
      refine .inr ⟨name, aliasName, ?_⟩
      cases outcome with
      | error cause =>
        cases hrest
        rfl
      | ok u =>
        cases hrest
        rfl

/-- An alias leaves all definitions. -/
theorem effect_compileAlias {u : Unit} (h : compileAlias location index e s = .ok u t) :
    Effect [] s.names t.names := by
  rw [Session.names, Session.names]
  rcases registry_compileAlias h with hsame | ⟨name, aliasName, hpointed⟩
  · rw [hsame]
    exact .nil _
  · rw [hpointed]
    exact .of_definitions (Registry.definitions_registerAlias s.registry name aliasName)
      fun hsound => Registry.sound_registerAlias hsound name aliasName

/-- Without hooks an unknown element does nothing to the names. -/
theorem effect_compileCustom (hhooks : c.hooks = {}) {u : Unit}
    (h : c.compileCustom location index e s = .ok u t) : Effect [] s.names t.names := by
  rw [compileCustom, hhooks] at h
  cases h
  exact .nil _

/-! ## Documents -/

/-- The effect of a run without rejections is the effect of the components that it meets. -/
theorem compositional_effect (hhooks : c.hooks = {}) : c.Compositional l
    fun _ s _ t os => Effect (Occurrence.components os) s.names t.names where
  pure _ s := .nil s.names
  bind h h' := Occurrence.components_append .. ▸ h.append h'
  mark {_ _ _ _ _ _ _ _ entry} hentry h := by
    cases entry with
    | skipped profiles => cases h; exact .nil _
    | enter group => cases h; exact .nil _
    | leave group => cases h; exact .nil _
    | _ => cases hentry
  single hsingle h hclean := by
    cases hsingle with
    | component hkind =>
      rw [Occurrence.components_singleton, if_pos hkind]
      exact effect_compileComponent hhooks h hclean
    | aliasing hkind =>
      obtain ⟨_, s₁, halias, hpure⟩ := bind_eq_ok_iff.mp h
      cases hpure
      rw [Occurrence.components_singleton, if_neg (by simp [hkind])]
      exact effect_compileAlias halias
    | custom hkind =>
      obtain ⟨_, s₁, hcustom, hpure⟩ := bind_eq_ok_iff.mp h
      cases hpure
      rw [Occurrence.components_singleton, if_neg (by simp [hkind])]
      exact effect_compileCustom hhooks hcustom
  importing _ h := h

/-- After compiling a document without a failure, every name that is stated on the way through it
and through the documents that are imported has the definition of the last occurrence to state
it, and is not an alias of another name. -/
theorem definition_of_latest (hc : c.source = l.source) (hhooks : c.hooks = {})
    (root : Element) (base : String) {registry : Registry} (hsound : registry.names.Sound)
    {n : Nat} (hok : (c.compile root base registry).value.outcome = .ok n) :
    ∃ os, TraversalOf c l base base root os ∧
      (∀ os', TraversalOf c l base base root os' → os' = os) ∧
      ∀ name, (∃ o ∈ os, o.name? = some name) →
        ∃ o d, Occurrence.latest? name os = some o ∧ o.definition = .ok d ∧
          (c.compile root base registry).value.registry.names.definitions.get? name = some d ∧
          (c.compile root base registry).value.registry.names.aliases.contains name = false := by
  cases hrun : c.compileFrom base base root (.start base registry) with
  | error cause t => simp [value_compile, hrun] at hok
  | ok u t =>
    have hclean : t.rejections = [] := by
      by_contra hne
      simp [value_compile, hrun, hne] at hok
    obtain ⟨course, hcourse, heffect⟩ :=
      (recounts_compileWithin (compositional_effect hhooks) hc base _).told hrun hclean
    have htraversal : TraversalOf c l base base root (Occurrence.components course) :=
      ⟨course, hcourse, rfl⟩
    refine ⟨_, htraversal, fun os' h' => h'.unique htraversal, fun name ⟨o, ho, hname⟩ => ?_⟩
    obtain ⟨o', ho'⟩ := Option.ne_none_iff_exists'.mp (Occurrence.latest?_ne_none ho hname)
    obtain ⟨d, hd, hget⟩ := heffect.stated name o' ho'
    refine ⟨o', d, ho', hd, ?_⟩
    rw [value_compile, hrun]
    exact ⟨hget, (heffect.sound hsound).disjoint name (Table.contains_of_get? hget)⟩

end Compiler

/-! ## A component that an import declares again -/

/-- A component with a name and a class. -/
def Element.component (id className : String) : Element :=
  { name := "component", attributes := .ofList [("id", id), ("class", className)] }

/-- A document that imports another declaration of a component behind its own. -/
def Element.redeclaring : Element :=
  .components [.component "store" "Memory", .importing "part"]

/-- The document that is imported. -/
def Library.redeclared : Library where
  documents := .ofList [("part", .components [.component "store" "Disk"])]

namespace Compiler

theorem importLocation_part : importLocation { source := Library.redeclared.source } "main"
    (.importing "part") = .ok "part" :=
  importLocation_importing _ "main" (by decide)

theorem outcome_redeclaring :
    (({ source := Library.redeclared.source } : Compiler).compile .redeclaring "main"
      {}).value.outcome = .ok 1 := by
  have hrun : compileFrom { source := Library.redeclared.source } "main" "main" .redeclaring
      (.start "main" {}) =
    (compileEntries { source := Library.redeclared.source }
      (compileWithin { source := Library.redeclared.source } "main" 1) "main" "main" 0 {}
      [.enter .redeclaring, .component (.component "store" "Memory") {},
        .importing (.importing "part"), .leave .redeclaring] >>= fun _ => pure ())
      (.start "main" {}) := rfl
  rw [value_compile, hrun]
  simp only [compileEntries, compileEntry, compileImport, importLocation_part]
  rfl

theorem definition_redeclaring :
    (({ source := Library.redeclared.source } : Compiler).compile .redeclaring "main"
        {}).value.outcome = .ok 1 ∧
      ((({ source := Library.redeclared.source } : Compiler).compile .redeclaring "main"
        {}).value.registry.names.definitions.get? "store").map (·.className) =
          some (some "Disk") := by
  refine ⟨outcome_redeclaring, ?_⟩
  obtain ⟨os, -, hunique, hlatest⟩ :=
    definition_of_latest rfl rfl .redeclaring "main" Names.sound_empty outcome_redeclaring
  have himport : Course { source := Library.redeclared.source } Library.redeclared "main"
      "main" {} [.importing "part"] ([⟨"part", {}, .component "store" "Disk"⟩] ++ []) :=
    .importing rfl importLocation_part rfl (.single (by decide) .nil) .nil
  have hos := hunique [⟨"main", {}, .component "store" "Memory"⟩,
    ⟨"part", {}, .component "store" "Disk"⟩] ⟨_, .single (by decide) himport, rfl⟩
  obtain ⟨o, d, ho, hd, hget, -⟩ := hlatest "store"
    ⟨⟨"part", {}, .component "store" "Disk"⟩, by rw [← hos]; simp, rfl⟩
  rw [← hos] at ho
  obtain rfl : ⟨"part", {}, .component "store" "Disk"⟩ = o := Option.some.inj ho
  rw [hget, ← Except.ok.inj hd]
  rfl

end Compiler

end Blueprint
