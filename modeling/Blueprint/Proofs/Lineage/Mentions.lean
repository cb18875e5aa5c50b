import Blueprint.Proofs.Definition.Mentions
import Blueprint.Proofs.Lineage.Heritage

/-!
# What a merged definition mentions

The definitions of a chain, folded, mention what some definition of the chain does
(`exists_mentioning_of_foldRooted`), and all that the nearest one does
(`referencedNames_subset_foldRooted`). So no reference is lost or made up on the way from a
declaration to its recipe, however long the chain of parents is and whatever registries it goes
through (`mentioned_along_heritage`).
-/

namespace Blueprint.Lineage

variable {name : String} {own : Link} {links : List Link}

/-- The arguments of a folded chain are built if those of its definitions are. -/
theorem built_foldRooted : ∀ {links : List Link}, (∀ link ∈ links, link.2.arguments.Built) →
    (foldRooted links).arguments.Built
  | [], _ => .empty
  | [(_, d)], h => h (_, d) List.mem_cons_self
  | (_, d) :: _ :: _, h =>
    .overlay (h (_, d) List.mem_cons_self)
      (built_foldRooted fun link hlink => h link (List.mem_cons_of_mem _ hlink))

/-- What a chain mentions, folded, is mentioned by one of its definitions. -/
theorem exists_mentioning_of_foldRooted : ∀ {own : Link} {links : List Link},
    (∀ link ∈ own :: links, link.2.arguments.Built) →
      name ∈ (foldRooted (own :: links)).referencedNames →
      ∃ link ∈ own :: links, name ∈ link.2.referencedNames
  | own, [], _, hname => ⟨own, List.mem_cons_self, hname⟩
  | own, link :: links, h, hname => by
    obtain ⟨hown, hlinks⟩ := List.forall_mem_cons.mp h
    rcases Definition.mem_referencedNames_of_overlay hown (built_foldRooted hlinks) hname with
      hname | hname
    · exact ⟨own, List.mem_cons_self, hname⟩
    · obtain ⟨other, hother, hname⟩ := exists_mentioning_of_foldRooted hlinks hname
      exact ⟨other, List.mem_cons_of_mem _ hother, hname⟩

/-- What the nearest definition of a chain mentions, the chain mentions folded. -/
theorem referencedNames_subset_foldRooted (h : ∀ link ∈ own :: links, link.2.arguments.Built)
    (hfactory : own.2.factoryBean ≠ some "") :
    own.2.referencedNames ⊆ (foldRooted (own :: links)).referencedNames := by
  cases links with
  | nil => exact List.Subset.refl _
  | cons link links =>
    obtain ⟨hown, hlinks⟩ := List.forall_mem_cons.mp h
    exact Definition.referencedNames_subset_overlay hown (built_foldRooted hlinks) hfactory

/-- Let the arguments of definitions be built by adding and overlaying, as they always are. A
definition over another mentions what one of the two does, and all that it mentions itself unless
its factory is the empty name. So in every run the recipe of a name mentions what some definition of
its chain of parents does, and all that its own definition mentions; `merge` answers with this
recipe. -/
theorem mentioned_along_heritage :
    (∀ child parent : Definition, child.arguments.Built → parent.arguments.Built →
      (∀ r ∈ (child.overlay parent).referencedNames,
        r ∈ child.referencedNames ∨ r ∈ parent.referencedNames) ∧
      (child.factoryBean ≠ some "" →
        child.referencedNames ⊆ (child.overlay parent).referencedNames)) ∧
    ∀ (policies : List Policy) (requests : List (Nat × Request)) (level : Nat) (name : String)
      (own : Link) (links : List Link),
      Heritage ((after policies requests level).map (·.names)) name (own :: links) →
      (∀ link ∈ own :: links, link.2.arguments.Built) →
      ∃ d, recipe ((after policies requests level).map (·.names)) name = .ok d ∧
        (∀ r ∈ d.referencedNames, ∃ link ∈ own :: links, r ∈ link.2.referencedNames) ∧
        (own.2.factoryBean ≠ some "" → own.2.referencedNames ⊆ d.referencedNames) ∧
        (Trusted policies requests level →
          ((after policies requests level).merge name).value.1 =
            inKnownScope (after policies requests level) name d) := by
  constructor
  · intro child parent hchild hparent
    exact ⟨fun r => Definition.mem_referencedNames_of_overlay hchild hparent,
      Definition.referencedNames_subset_overlay hchild hparent⟩
  · intro policies requests level name own links h hbuilt
    exact ⟨foldRooted (own :: links), recipe_eq_ok_iff.mpr ⟨_, h, rfl⟩,
      fun r => exists_mentioning_of_foldRooted hbuilt, referencedNames_subset_foldRooted hbuilt,
      fun ht => merge_eq_foldRooted ht.truthful h⟩

/-- A store that mentions other components in its dependencies, an argument, a list and its
factory. -/
def baseStore : Definition :=
  { className := some "Store", dependsOn := ["log"], factoryBean := some "works"
    arguments := .ofList [⟨.reference "memory", some "Cache", none⟩]
    properties := Table.ofList [("parts", .list [.reference "header"] none)] }

/-- A store with the same name, which inherits from it : its argument replaces the other, and its
list is appended. -/
def ownStore : Definition :=
  { parentName := some "store", dependsOn := ["disk"]
    arguments := .ofList [⟨.reference "cache", some "Cache", none⟩]
    properties := Table.ofList [("parts", .list [.reference "index"] (some true))] }

/-- Both stores, in a registry and in its parent. -/
def refinedStore : List (Nat × Request) := [
  (1, .change (.register "store" baseStore)),
  (0, .change (.register "store" ownStore))]

theorem mentioned_refinedStore : ∃ d,
    ((after [{}, {}] refinedStore 0).merge "store").value.1 = .ok d ∧
      ["disk", "cache", "index"] ⊆ d.referencedNames ∧
      d.referencedNames ⊆ ["disk", "cache", "index", "log", "memory", "header", "works"] ∧
      ownStore.referencedNames ⊆ (ownStore.overlay baseStore).referencedNames := by
  have htables : (after [{}, {}] refinedStore 0).map (fun r =>
      (r.names.denoted "store", r.names.definitions.get? "store")) =
    [("store", some ownStore), ("store", some baseStore)] := by rfl
  obtain ⟨r, _, hrun, hr, hrest⟩ := List.map_eq_cons_iff.mp htables
  obtain ⟨s, rfl, hs⟩ := List.map_eq_singleton_iff.mp hrest
  simp only [Prod.mk.injEq] at hr hs
  have hown := (congrArg r.names.definitions.get? hr.1).trans hr.2
  have hbase := (congrArg s.names.definitions.get? hs.1).trans hs.2
  have hchain : Heritage [r.names, s.names] "store"
      [(r.names.denoted "store", ownStore), (s.names.denoted "store", baseStore)] :=
    .above hown rfl rfl (.root hbase rfl)
  have hnames : (after [{}, {}] refinedStore 0).map (·.names) = [r.names, s.names] := by
    rw [hrun]
    rfl
  obtain ⟨hoverlay, hmentions⟩ := mentioned_along_heritage
  obtain ⟨d, hrecipe, honly, hall, hmerge⟩ := hmentions [{}, {}] refinedStore 0 "store" _ _
    (hnames ▸ hchain) (by simp [ownStore, baseStore, Arguments.built_ofList])
  have hd : d = ownStore.overlay baseStore := by
    rw [hnames, recipe_eq_ok_iff.mpr ⟨_, hchain, rfl⟩] at hrecipe
    exact (Except.ok.inj hrecipe).symm
  have hcount : (founded [{}, {}]).mutations refinedStore = 2 := by decide +kernel
  have hfactory : ownStore.factoryBean ≠ some "" := by decide
  have hmentioned : ownStore.referencedNames = ["disk", "cache", "index"] ∧
    baseStore.referencedNames = ["log", "memory", "header", "works"] := by decide
  refine ⟨d, ?_, hmentioned.1 ▸ hall hfactory, fun name hname => ?_,
    (hoverlay ownStore baseStore (Arguments.built_ofList _) (Arguments.built_ofList _)).2 hfactory⟩
  · rw [hmerge (.counted (by rw [hcount]; decide)), inKnownScope, if_pos]
    rw [hd]
    rfl
  · obtain ⟨link, hlink, hname⟩ := honly name hname
    rcases List.mem_cons.mp hlink with rfl | hlink
    · rw [hmentioned.1] at hname
      exact List.mem_append_left ["log", "memory", "header", "works"] hname
    · rw [List.mem_singleton.mp hlink, hmentioned.2] at hname
      exact List.mem_append_right ["disk", "cache", "index"] hname

end Blueprint.Lineage
