import Blueprint.Proofs.Definition.Overlay
import Blueprint.Proofs.Lineage.Answers
import Blueprint.Proofs.Names.ParentGraph

/-!
# Chains of parents

`Heritage` says which definitions a name inherits from, the nearest first, from one definition to
the next : a parent is looked up where its child was found, and further up if it is not defined
there or is the child itself. Such a chain ends with a definition without a parent.

A name has a recipe exactly if it has such a chain, and the recipe is the chain folded
(`recipe_eq_ok_iff`). So the answer of `merge` is what the definitions of the chain blend to
(`merge_of_heritage`).
-/

namespace Blueprint.Lineage

variable {n : Names} {ancestors ns : List Names} {name : String} {links rest : List Link}

/-! ## Chains over the tables of a lineage -/

/-- The chain of definitions that a name inherits from, its own first. -/
inductive Heritage : List Names → (name : String) → List Link → Prop
  /-- A name that is not defined here has the chain that the ancestors have for it. -/
  | elsewhere {n : Names} {ancestors : List Names} {name : String} {links : List Link}
    (unknown : n.definitions.contains (n.denoted name) = false)
    (h : Heritage ancestors name links) : Heritage (n :: ancestors) name links
  /-- A definition without a parent. -/
  | root {n : Names} {ancestors : List Names} {name : String} {d : Definition}
    (defined : n.definitions.get? (n.denoted name) = some d) (root : d.parent? = none) :
    Heritage (n :: ancestors) name [(n.denoted name, d)]
  /-- A definition with another name as its parent. -/
  | inherits {n : Names} {ancestors : List Names} {name requested : String} {d : Definition}
    {links : List Link} (defined : n.definitions.get? (n.denoted name) = some d)
    (parent : d.parent? = some requested) (other : n.denoted requested ≠ n.denoted name)
    (h : Heritage (n :: ancestors) requested links) :
    Heritage (n :: ancestors) name ((n.denoted name, d) :: links)
  /-- A definition with its own name as its parent, which is meant for the ancestors. -/
  | above {n : Names} {ancestors : List Names} {name requested : String} {d : Definition}
    {links : List Link} (defined : n.definitions.get? (n.denoted name) = some d)
    (parent : d.parent? = some requested) (self : n.denoted requested = n.denoted name)
    (h : Heritage ancestors requested links) :
    Heritage (n :: ancestors) name ((n.denoted name, d) :: links)

/-- A chain begins with the definition of the name. -/
theorem Heritage.ne_nil (h : Heritage ns name links) : links ≠ [] := by
  induction h with
  | elsewhere _ _ ih => exact ih
  | root => simp
  | inherits => simp
  | above => simp

/-- A name that is not defined here has the chains that the ancestors have for it, and no other. -/
theorem heritage_cons_iff_of_unknown (hunknown : n.definitions.contains (n.denoted name) = false) :
    Heritage (n :: ancestors) name links ↔ Heritage ancestors name links := by
  refine ⟨fun h => ?_, .elsewhere hunknown⟩
  cases h with
  | elsewhere _ h => exact h
  | root defined => simp [Table.contains_of_get? defined] at hunknown
  | inherits defined => simp [Table.contains_of_get? defined] at hunknown
  | above defined => simp [Table.contains_of_get? defined] at hunknown

/-- How a chain goes on behind the last definition of a line in one registry. -/
def GoesOn (n : Names) (ancestors : List Names) (last : Link) (rest : List Link) : Prop :=
  (last.2.parent? = none ∧ rest = []) ∨ ∃ requested, last.2.parent? = some requested ∧
    (n.denoted requested = last.1 ∨ n.definitions.contains (n.denoted requested) = false) ∧
    Heritage ancestors requested rest

/-- The last definition of a line inherits from no other of its registry, if the chain goes on
elsewhere. -/
theorem GoesOn.stops {x : String} {e : Definition} (h : GoesOn n ancestors (x, e) rest)
    (hx : n.definitions.get? x = some e) : n.Stops x := by
  rcases h with ⟨hroot, -⟩ | ⟨requested, hparent, hout, -⟩
  · exact Names.stops_of_root hx hroot
  · exact Names.AsksOutside.stops ⟨e, hx, hparent, hout⟩

/-- The chain of a name that is defined here begins with a line in this registry. -/
theorem Heritage.exists_line (h : Heritage (n :: ancestors) name links)
    (hdefined : n.definitions.contains (n.denoted name) = true) :
    ∃ passed last e rest, links = passed ++ [(last, e)] ++ rest ∧
      n.Line (n.denoted name) (passed ++ [(last, e)]) ∧ GoesOn n ancestors (last, e) rest := by
  generalize hns : n :: ancestors = ns at h
  induction h with
  | elsewhere unknown =>
    obtain ⟨rfl, rfl⟩ := List.cons.inj hns
    simp [hdefined] at unknown
  | @root _ _ name d defined root =>
    obtain ⟨rfl, rfl⟩ := List.cons.inj hns
    exact ⟨[], _, d, [], rfl, Names.line_singleton defined, .inl ⟨root, rfl⟩⟩
  | @inherits _ _ name requested d links defined parent other h ih =>
    obtain ⟨rfl, rfl⟩ := List.cons.inj hns
    cases hknown : n.definitions.contains (n.denoted requested) with
    | false =>
      have habove := (heritage_cons_iff_of_unknown hknown).mp h
      exact ⟨[], _, d, links, rfl, Names.line_singleton defined,
        .inr ⟨requested, parent, .inr hknown, habove⟩⟩
    | true =>
      obtain ⟨passed, last, e, rest, rfl, hline, hrest⟩ := ih hknown rfl
      have hstep : n.InheritsFrom (n.denoted name) (n.denoted requested) :=
        ⟨d, requested, defined, parent, rfl⟩
      -- If the name were on the line, the walk would come back to it, but the line stops.
      have hnew := hline.not_mem_of_inheritsFrom (hrest.stops hline.get?_last) hstep other
      exact ⟨(n.denoted name, d) :: passed, last, e, rest, rfl, hline.cons defined hstep hnew,
        hrest⟩
  | @above _ _ name requested d links defined parent self h =>
    obtain ⟨rfl, rfl⟩ := List.cons.inj hns
    exact ⟨[], _, d, links, rfl, Names.line_singleton defined,
      .inr ⟨requested, parent, .inl self, h⟩⟩

/-- A line in one registry begins a chain, if the rest of it is one. -/
theorem heritage_of_line {last : String} {e : Definition}
    (hrest : GoesOn n ancestors (last, e) rest) :
    ∀ {passed : List Link} {name : String}, n.Line (n.denoted name) (passed ++ [(last, e)]) →
      Heritage (n :: ancestors) name (passed ++ [(last, e)] ++ rest)
  | [], name, hline => by
    have hlast := hline.get?_last
    obtain rfl : last = n.denoted name := by simpa using hline.head
    rcases hrest with ⟨hroot, rfl⟩ | ⟨requested, hparent, hself | hunknown, h⟩
    · exact .root hlast hroot
    · exact .above hlast hparent hself h
    · refine .inherits hlast hparent (fun hself => ?_) (.elsewhere hunknown h)
      simp [hself, Table.contains_of_get? hlast] at hunknown
  | (x, d) :: passed, name, hline => by
    have hfirst : n.definitions.get? x = some d := hline.defined (x, d) List.mem_cons_self
    obtain rfl : x = n.denoted name := by simpa using hline.head
    obtain ⟨⟨y, f⟩, others, hnext⟩ : ∃ link others, passed ++ [(last, e)] = link :: others :=
      List.exists_cons_of_ne_nil (by simp)
    rw [List.cons_append, hnext] at hline
    have hchain := hline.inherits
    have hnodup := hline.nodup
    simp only [List.map_cons, List.isChain_cons_cons, List.nodup_cons, List.mem_cons,
      not_or] at hchain hnodup
    obtain ⟨d', requested, hd', hparent, rfl⟩ := hchain.1
    obtain rfl := Option.some.inj (hfirst.symm.trans hd')
    have htail : n.Line (n.denoted requested) (passed ++ [(last, e)]) := hnext ▸ hline.tail
    exact .inherits hfirst hparent (fun h => hnodup.1.1 h.symm) (heritage_of_line hrest htail)

/-! ## Folding a chain -/

/-- A chain is folded from its root on, so its front comes over what the rest makes. -/
theorem foldRooted_append {rest : List Link} (hrest : rest ≠ []) : ∀ front : List Link,
    foldRooted (front ++ rest) = fold front (foldRooted rest)
  | [] => rfl
  | (x, d) :: front => by
    obtain ⟨link, others, hnext⟩ : ∃ link others, front ++ rest = link :: others :=
      List.exists_cons_of_ne_nil (by simp [hrest])
    have ih := foldRooted_append hrest front
    rw [hnext] at ih
    rw [List.cons_append, hnext, foldRooted, ih]
    · rfl
    · simp

/-- A chain folds to a blend of its definitions. -/
theorem blend_foldRooted : ∀ {links : List Link}, links ≠ [] →
    Definition.Blend (links.map Prod.snd) (foldRooted links)
  | [(_, d)], _ => Definition.blend_root d
  | (_, d) :: link :: links, _ =>
    (blend_foldRooted (List.cons_ne_nil link links)).overlay (by simp) d

/-- The recipe of a name is the chain that it inherits from, folded, and there is one if there is
such a chain. -/
theorem recipe_eq_ok_iff : ∀ {ns : List Names} {name : String} {d : Definition},
    recipe ns name = .ok d ↔ ∃ links, Heritage ns name links ∧ foldRooted links = d
  | [], name, d => by
    constructor
    · intro h
      cases h
    · rintro ⟨links, h, -⟩
      cases h
  | n :: ancestors, name, d => by
    rw [recipe]
    cases hdefined : n.definitions.contains (n.denoted name) with
    | false =>
      have hunknown : n.ancestry (n.denoted name) = .unknown := by
        rw [Names.ancestry, Table.get?_eq_none_iff.mpr hdefined]
      simp only [hunknown, recipe_eq_ok_iff, heritage_cons_iff_of_unknown hdefined]
    | true =>
      obtain ⟨own, hown⟩ := Option.isSome_iff_exists.mp ((Table.isSome_get? _ _).trans hdefined)
      constructor
      · -- What the walk has passed is a line, and a line begins a chain.
        have hwalk := Names.walked_ancestry hdefined
        generalize n.ancestry (n.denoted name) = found at hwalk
        cases hwalk with
        | rooted line root =>
          intro h
          exact ⟨_, heritage_of_line (.inl ⟨root, rfl⟩) line, by simpa using h⟩
        | @continues passed last e requested line parent outside =>
          intro h
          cases hinherited : recipe ancestors requested with
          | error cause => simp [hinherited, Except.map] at h
          | ok inherited =>
            obtain ⟨rest, hrest, rfl⟩ := recipe_eq_ok_iff.mp hinherited
            refine ⟨_, heritage_of_line (.inr ⟨requested, parent, outside, hrest⟩) line, ?_⟩
            rw [foldRooted_append hrest.ne_nil]
            simpa [hinherited, Except.map] using h
        | circular => exact fun h => by cases h
      · -- A chain begins with a line, and the walk follows it to its end.
        rintro ⟨links, h, rfl⟩
        obtain ⟨passed, last, e, rest, rfl, hline, hrest⟩ := h.exists_line hdefined
        rcases hrest with ⟨hroot, rfl⟩ | ⟨requested, hparent, hout, hrest⟩
        · rw [(Names.Walked.rooted hline hroot).ancestry_eq hown, List.append_nil]
        · have hinherited := recipe_eq_ok_iff.mpr ⟨rest, hrest, rfl⟩
          rw [(Names.Walked.continues hline hparent hout).ancestry_eq hown,
            foldRooted_append hrest.ne_nil]
          simp [hinherited, Except.map]

/-! ## Merged definitions -/

/-- The definitions of a chain, folded, are what `merge` gives. -/
theorem merge_eq_foldRooted {l : Lineage} (hl : Truthful l)
    (h : Heritage (l.map (·.names)) name links) :
    (l.merge name).value.1 = inKnownScope l name (foldRooted links) := by
  rw [merge_of_truthful name hl, recipe_eq_ok_iff.mpr ⟨links, h, rfl⟩]
  rfl

/-- In every run, a name with a chain of parents has a recipe, which is what the definitions of the
chain blend to, and `merge` answers with it. -/
theorem merge_of_heritage (policies : List Policy) (requests : List (Nat × Request)) (level : Nat)
    (h : Heritage ((after policies requests level).map (·.names)) name links) :
    ∃ d, Definition.Blend (links.map Prod.snd) d ∧
      recipe ((after policies requests level).map (·.names)) name = .ok d ∧
      (Trusted policies requests level →
        ((after policies requests level).merge name).value.1 =
          inKnownScope (after policies requests level) name d) :=
  ⟨foldRooted links, blend_foldRooted h.ne_nil, recipe_eq_ok_iff.mpr ⟨links, h, rfl⟩,
    fun ht => merge_eq_foldRooted ht.truthful h⟩

/-- A definition with one property, a list of texts. -/
def listing (parent : Option String) (texts : List String) (merge : Option Bool) : Definition :=
  { parentName := parent
    properties := Table.ofList [("paths", .list (texts.map .literal) merge)] }

/-- A component with an empty class inherits from one of the same registry, which goes by a name
that the registry above has as well and inherits from that. The lists of both are to be merged. -/
def inheritedPaths : List (Nat × Request) := [
  (1, .change (.register "base" { listing none ["/"] none with className := some "Disk" })),
  (0, .change (.register "base" (listing (some "base") ["/usr"] (some true)))),
  (0, .merge "base"),
  (0, .change (.register "store"
    { listing (some "&base") ["/usr/local"] (some true) with className := some "" }))]

theorem merge_inheritedPaths : ∃ d,
    ((after [{}, {}] inheritedPaths 0).merge "store").value.1 = .ok d ∧
      d.className = some "Disk" ∧
      d.properties.get? "paths" =
        some (.list [.literal "/", .literal "/usr", .literal "/usr/local"] none) := by
  have htables : (after [{}, {}] inheritedPaths 0).map (fun r => (r.names.denoted "store",
      r.names.denoted "&base", r.names.denoted "base", r.names.definitions.get? "store",
      r.names.definitions.get? "base")) =
    [("store", "base", "base",
        some { listing (some "&base") ["/usr/local"] (some true) with className := some "" },
        some (listing (some "base") ["/usr"] (some true))),
      ("store", "base", "base", none,
        some { listing none ["/"] none with className := some "Disk" })] := by rfl
  obtain ⟨r, _, hrun, hr, hrest⟩ := List.map_eq_cons_iff.mp htables
  obtain ⟨s, rfl, hs⟩ := List.map_eq_singleton_iff.mp hrest
  simp only [Prod.mk.injEq] at hr hs
  obtain ⟨hstore, hmarked, hbase, hown, hnext⟩ := hr
  obtain ⟨-, -, hroot, -, hlast⟩ := hs
  have hother : r.names.denoted "&base" ≠ r.names.denoted "store" := by
    rw [hmarked, hstore]
    decide
  have hown := (congrArg r.names.definitions.get? hstore).trans hown
  have hnext := (congrArg r.names.definitions.get? hmarked).trans hnext
  have hlast := (congrArg s.names.definitions.get? hroot).trans hlast
  have hchain : Heritage [r.names, s.names] "store" _ :=
    .inherits hown rfl hother (.above hnext rfl (hbase.trans hmarked.symm) (.root hlast rfl))
  have hnames : (after [{}, {}] inheritedPaths 0).map (·.names) = [r.names, s.names] := by
    rw [hrun]
    rfl
  obtain ⟨d, hblend, -, hmerge⟩ := merge_of_heritage [{}, {}] inheritedPaths 0 (hnames ▸ hchain)
  have hscope : d.scope = none := hblend.texts Definition.scope (by simp [Definition.textFields])
  have hknown : (after [{}, {}] inheritedPaths 0).knowsScope d.effectiveScope = true := by
    rw [Definition.effectiveScope, hscope]
    rfl
  have hcount : (founded [{}, {}]).mutations inheritedPaths = 3 := by decide +kernel
  refine ⟨d, ?_, hblend.texts Definition.className (by simp [Definition.textFields]),
    (hblend.property "paths").trans rfl⟩
  rw [hmerge (.counted (by rw [hcount]; decide)), inKnownScope, if_pos hknown]

end Blueprint.Lineage
