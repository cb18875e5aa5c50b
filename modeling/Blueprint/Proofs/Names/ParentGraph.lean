import Blueprint.Registry.Lineage
import Mathlib.Data.List.Chain
import Mathlib.Data.List.Nodup
import Mathlib.Logic.Relation

/-!
# The graph of the parents

A definition has at most one parent, so the names of a registry are a graph in which a name has at
most one successor (`InheritsFrom.unique`), and a walk that comes to a name again goes round for
ever (`reflTransGen_of_cycle`).

`ancestry` walks along this graph. What it has passed is a `Line` : defined names, each the parent
of the one before, and no name twice. There are not more of them than definitions, which is why the
walk never uses up its steps. It ends in one of three ways, each of which is a fact about the graph
(`walked_ancestry`), and with more steps it would end in the same way (`Walked.ascend_eq`).
-/

namespace Blueprint.Names

open Relation

variable {n : Names} {start a b c x : String} {d : Definition} {links : List Link}

/-- The definition of `a` has a parent, which stands for `b`. -/
def InheritsFrom (n : Names) (a b : String) : Prop :=
  ∃ d requested, n.definitions.get? a = some d ∧ d.parent? = some requested ∧
    n.denoted requested = b

/-- The definition of `a` has a parent that is not defined, or that stands for `a` itself. -/
def AsksOutside (n : Names) (a requested : String) : Prop :=
  ∃ d, n.definitions.get? a = some d ∧ d.parent? = some requested ∧
    (n.denoted requested = a ∨ n.definitions.contains (n.denoted requested) = false)

/-- The definition of `a` inherits from no other definition. -/
def Stops (n : Names) (a : String) : Prop :=
  n.definitions.contains a = true ∧
    ∀ b, n.InheritsFrom a b → b = a ∨ n.definitions.contains b = false

theorem InheritsFrom.unique (h : n.InheritsFrom a b) (h' : n.InheritsFrom a c) : b = c := by
  obtain ⟨d, requested, hd, hparent, rfl⟩ := h
  obtain ⟨d', requested', hd', hparent', rfl⟩ := h'
  obtain rfl := Option.some.inj (hd.symm.trans hd')
  rw [Option.some.inj (hparent.symm.trans hparent')]

theorem rightUnique_inheritsFrom (n : Names) : Relator.RightUnique n.InheritsFrom :=
  fun _ _ _ h h' => h.unique h'

theorem InheritsFrom.contains (h : n.InheritsFrom a b) : n.definitions.contains a = true := by
  obtain ⟨d, requested, hd, -, -⟩ := h
  exact Table.contains_of_get? hd

theorem AsksOutside.stops {requested : String} (h : n.AsksOutside a requested) : n.Stops a := by
  obtain ⟨d, hd, hparent, hout⟩ := h
  refine ⟨Table.contains_of_get? hd, fun b hb => ?_⟩
  rw [← InheritsFrom.unique ⟨d, requested, hd, hparent, rfl⟩ hb]
  exact hout

theorem stops_of_root (hd : n.definitions.get? a = some d) (hroot : d.parent? = none) :
    n.Stops a := by
  refine ⟨Table.contains_of_get? hd, fun b hb => ?_⟩
  obtain ⟨d', requested, hd', hparent, -⟩ := hb
  obtain rfl := Option.some.inj (hd.symm.trans hd')
  simp [hroot] at hparent

/-! ## Cycles and ends -/

/-- What is reached from a name on a cycle leads back to it. -/
theorem reflTransGen_of_cycle (hcycle : TransGen n.InheritsFrom b b)
    (h : ReflTransGen n.InheritsFrom b c) : ReflTransGen n.InheritsFrom c b := by
  induction h with
  | refl => exact .refl
  | tail _ hstep ih =>
    -- The step is the first one of a path that returns to `b`.
    have hreturn := TransGen.trans_right ih hcycle
    obtain ⟨next, hnext, hback⟩ := TransGen.head'_iff.mp hreturn
    rwa [hstep.unique hnext]

/-- No other definition is reached from a name that inherits from none. -/
theorem Stops.eq_of_reflTransGen (ha : n.Stops a) (h : ReflTransGen n.InheritsFrom a b)
    (hb : n.definitions.contains b = true) : b = a := by
  induction h with
  | refl => rfl
  | tail _ hstep ih =>
    have hfrom := ih hstep.contains
    subst hfrom
    exact (ha.2 _ hstep).resolve_right (by simp [hb])

/-- A walk that stops somewhere comes to no other such name. -/
theorem Stops.unique (ha : n.Stops a) (hb : n.Stops b)
    (hsa : ReflTransGen n.InheritsFrom start a) (hsb : ReflTransGen n.InheritsFrom start b) :
    a = b := by
  rcases hsa.total_of_right_unique n.rightUnique_inheritsFrom hsb with h | h
  · exact (ha.eq_of_reflTransGen h hb.1).symm
  · exact hb.eq_of_reflTransGen h ha.1

/-- A walk that stops somewhere comes to no cycle but that of a name with itself. -/
theorem Stops.inheritsFrom_of_cycle (ha : n.Stops a)
    (hsa : ReflTransGen n.InheritsFrom start a) (hsb : ReflTransGen n.InheritsFrom start b)
    (hcycle : TransGen n.InheritsFrom b b) : n.InheritsFrom b b := by
  obtain ⟨next, hnext, hback⟩ := TransGen.head'_iff.mp hcycle
  have hab : ReflTransGen n.InheritsFrom a b := by
    rcases hsa.total_of_right_unique n.rightUnique_inheritsFrom hsb with h | h
    · exact h
    · exact reflTransGen_of_cycle hcycle h
  obtain rfl := ha.eq_of_reflTransGen hab hnext.contains
  have hdefined : n.definitions.contains next = true := by
    rcases reflTransGen_iff_eq_or_transGen.mp hback with rfl | h
    · exact hnext.contains
    · obtain ⟨_, hstep, -⟩ := TransGen.head'_iff.mp h
      exact hstep.contains
  have hself := ha.eq_of_reflTransGen (.single hnext) hdefined
  rwa [hself] at hnext

/-! ## Lines -/

/-- Definitions from a name on, each the parent of the one before, and no name twice. -/
structure Line (n : Names) (start : String) (links : List Link) : Prop where
  head : (links.map Prod.fst).head? = some start
  defined : ∀ link ∈ links, n.definitions.get? link.1 = some link.2
  inherits : (links.map Prod.fst).IsChain n.InheritsFrom
  nodup : (links.map Prod.fst).Nodup

theorem line_singleton (hd : n.definitions.get? a = some d) : n.Line a [(a, d)] where
  head := rfl
  defined := by simpa using hd
  inherits := .singleton a
  nodup := List.nodup_singleton a

namespace Line

theorem length_le (h : n.Line start links) : links.length ≤ n.definitions.size := by
  rw [← Table.length_keys, ← List.length_map (f := Prod.fst)]
  refine h.nodup.length_le_of_subset fun x hx => ?_
  obtain ⟨link, hlink, rfl⟩ := List.mem_map.mp hx
  exact Table.mem_keys.mpr (Table.contains_of_get? (h.defined link hlink))

theorem get?_last (h : n.Line start (links ++ [(x, d)])) : n.definitions.get? x = some d :=
  h.defined (x, d) (by simp)

/-- A line goes on to a parent that is not on it. -/
theorem concat (h : n.Line start (links ++ [(x, d)])) (hstep : n.InheritsFrom x b)
    {e : Definition} (he : n.definitions.get? b = some e)
    (hb : b ∉ (links ++ [(x, d)]).map Prod.fst) :
    n.Line start (links ++ [(x, d)] ++ [(b, e)]) where
  head := by
    have hhead := h.head
    rw [List.map_append, List.head?_append, hhead]
    rfl
  defined link hlink := by
    rcases List.mem_append.mp hlink with hlink | hlink
    · exact h.defined link hlink
    · rwa [List.mem_singleton.mp hlink]
  inherits := by
    rw [List.map_append, List.isChain_append]
    refine ⟨h.inherits, .singleton b, ?_⟩
    simpa using hstep
  nodup := by
    rw [List.map_append, List.nodup_append]
    refine ⟨h.nodup, List.nodup_singleton b, ?_⟩
    intro y hy z hz hyz
    obtain rfl : z = b := by simpa using hz
    exact hb (hyz ▸ hy)

/-- A line without its last link is a line. -/
theorem init {link : Link} (h : n.Line start (links ++ [(x, d)] ++ [link])) :
    n.Line start (links ++ [(x, d)]) where
  head := by
    have hhead := h.head
    rw [List.map_append, List.head?_append] at hhead
    simpa using hhead
  defined other hother := h.defined other (List.mem_append_left _ hother)
  inherits := by
    have hinherits := h.inherits
    rw [List.map_append, List.isChain_append] at hinherits
    exact hinherits.1
  nodup := by
    have hnodup := h.nodup
    rw [List.map_append, List.nodup_append] at hnodup
    exact hnodup.1

/-- A name that inherits from the start of a line can come before it. -/
theorem cons (hd : n.definitions.get? a = some d) (hstep : n.InheritsFrom a b)
    (hnew : a ∉ links.map Prod.fst) (h : n.Line b links) : n.Line a ((a, d) :: links) where
  head := rfl
  defined link hlink := by
    rcases List.mem_cons.mp hlink with rfl | hlink
    · exact hd
    · exact h.defined link hlink
  inherits := by
    rw [List.map_cons, List.isChain_cons, h.head]
    exact ⟨by simpa using hstep, h.inherits⟩
  nodup := List.nodup_cons.mpr ⟨hnew, h.nodup⟩

/-- A line without its first link is a line. -/
theorem tail {link : Link} (h : n.Line start (link :: (b, d) :: links)) :
    n.Line b ((b, d) :: links) where
  head := rfl
  defined other hother := h.defined other (List.mem_cons_of_mem link hother)
  inherits := (List.isChain_cons.mp h.inherits).2
  nodup := (List.nodup_cons.mp h.nodup).2

/-- The names of a line are reached one from the other. -/
theorem pairwise (h : n.Line start links) :
    (links.map Prod.fst).Pairwise (TransGen n.InheritsFrom) :=
  List.isChain_iff_pairwise.mp (h.inherits.imp fun _ _ => .single)

/-- The start of a line reaches every name on it. -/
theorem reaches (h : n.Line start links) (hx : x ∈ links.map Prod.fst) :
    ReflTransGen n.InheritsFrom start x := by
  have hpairwise := h.pairwise
  have hhead := h.head
  cases hnames : links.map Prod.fst with
  | nil => simp [hnames] at hx
  | cons y names =>
    rw [hnames] at hx hpairwise hhead
    obtain rfl : y = start := by simpa using hhead
    rcases List.mem_cons.mp hx with rfl | hx
    · exact .refl
    · exact ((List.pairwise_cons.mp hpairwise).1 x hx).to_reflTransGen

theorem reaches_last (h : n.Line start (links ++ [(x, d)])) :
    ReflTransGen n.InheritsFrom start x := h.reaches (by simp)

/-- Every other name of a line leads to the last one. -/
theorem transGen_last (h : n.Line start (links ++ [(x, d)])) (ha : a ∈ links.map Prod.fst) :
    TransGen n.InheritsFrom a x := by
  have hpairwise := h.pairwise
  rw [List.map_append, List.pairwise_append] at hpairwise
  exact hpairwise.2.2 a ha x (by simp)

/-- A name whose parent begins a line that stops is not on the line. -/
theorem not_mem_of_inheritsFrom (h : n.Line b (links ++ [(x, d)])) (hx : n.Stops x)
    (hstep : n.InheritsFrom a b) (hother : b ≠ a) : a ∉ (links ++ [(x, d)]).map Prod.fst := by
  intro ha
  have hback := h.reaches ha
  have hself := hx.inheritsFrom_of_cycle h.reaches_last hback (.head' hstep hback)
  exact hother (hstep.unique hself)

end Line

/-! ## The walk -/

/-- How a walk can end that has passed a line. -/
inductive Walked (n : Names) (start : String) : Ancestry → Prop
  /-- The last definition has no parent. -/
  | rooted {passed : List Link} {last : String} {e : Definition}
    (line : n.Line start (passed ++ [(last, e)])) (root : e.parent? = none) :
    Walked n start (.rooted (passed ++ [(last, e)]))
  /-- The last definition has a parent that is not for this registry. -/
  | continues {passed : List Link} {last : String} {e : Definition} {requested : String}
    (line : n.Line start (passed ++ [(last, e)])) (parent : e.parent? = some requested)
    (outside : n.denoted requested = last ∨
      n.definitions.contains (n.denoted requested) = false) :
    Walked n start (.continues (passed ++ [(last, e)]) requested)
  /-- The last definition has a parent that was passed before. -/
  | circular {passed : List Link} {last : String} {e : Definition} {requested : String}
    (line : n.Line start (passed ++ [(last, e)])) (parent : e.parent? = some requested)
    (other : n.denoted requested ≠ last) (again : n.denoted requested ∈ passed.map Prod.fst) :
    Walked n start (.circular ((passed ++ [(last, e)]).map Prod.fst ++ [n.denoted requested]))

section ascend

variable {steps : Nat} {before : List Link} {requested : String}

theorem ascend_of_root (hroot : d.parent? = none) :
    n.ascend steps before (x, d) = .rooted (before.reverse ++ [(x, d)]) := by
  rw [ascend.eq_def]
  simp [hroot]

theorem ascend_of_self (hparent : d.parent? = some requested) (hself : n.denoted requested = x) :
    n.ascend steps before (x, d) = .continues (before.reverse ++ [(x, d)]) requested := by
  rw [ascend.eq_def]
  simp [hparent, hself]

/-- A walk ends where it comes to a name again. -/
theorem ascend_of_mem (hparent : d.parent? = some requested) (hother : n.denoted requested ≠ x)
    (hagain : n.denoted requested ∈ before.map Prod.fst) :
    n.ascend steps before (x, d) =
      .circular ((before.reverse ++ [(x, d)]).map Prod.fst ++ [n.denoted requested]) := by
  have hmem : (((x, d) :: before).map Prod.fst).contains (n.denoted requested) = true := by
    simpa using Or.inr (List.mem_map.mp hagain)
  rw [ascend.eq_def]
  simp only [hparent, if_neg hother, hmem, if_true]
  simp

/-- A walk goes on to a parent that it has not passed. -/
theorem ascend_succ (hparent : d.parent? = some requested) (hother : n.denoted requested ≠ x)
    (hnew : n.denoted requested ∉ before.map Prod.fst) :
    n.ascend (steps + 1) before (x, d) = match n.definitions.get? (n.denoted requested) with
      | some e => n.ascend steps ((x, d) :: before) (n.denoted requested, e)
      | none => .continues (before.reverse ++ [(x, d)]) requested := by
  have hmem : (((x, d) :: before).map Prod.fst).contains (n.denoted requested) = false := by
    simpa [hother] using hnew
  rw [ascend]
  cases hget : n.definitions.get? (n.denoted requested) <;>
    simp only [hparent, if_neg hother, hmem, Bool.false_eq_true, if_false, hget, List.reverse_cons]

end ascend

/-- A walk with enough steps left for all definitions that it has not passed. -/
theorem walked_ascend : ∀ (steps : Nat) {before : List Link} {x : String} {d : Definition},
    n.Line start (before.reverse ++ [(x, d)]) → n.definitions.size ≤ before.length + steps →
      Walked n start (n.ascend steps before (x, d)) := by
  intro steps
  induction steps with
  | zero =>
    intro before x d hline hsteps
    have hlength := hline.length_le
    simp only [List.length_append, List.length_reverse, List.length_singleton] at hlength
    omega
  | succ steps ih =>
    intro before x d hline hsteps
    cases hparent : d.parent? with
    | none => exact ascend_of_root hparent ▸ .rooted hline hparent
    | some requested =>
      by_cases hself : n.denoted requested = x
      · exact ascend_of_self hparent hself ▸ .continues hline hparent (.inl hself)
      by_cases hagain : n.denoted requested ∈ before.map Prod.fst
      · rw [ascend_of_mem hparent hself hagain]
        exact .circular hline hparent hself (by simpa using hagain)
      rw [ascend_succ hparent hself hagain]
      cases hget : n.definitions.get? (n.denoted requested) with
      | none => exact .continues hline hparent (.inr (Table.get?_eq_none_iff.mp hget))
      | some e =>
        have hstep : n.InheritsFrom x (n.denoted requested) :=
          ⟨d, requested, hline.get?_last, hparent, rfl⟩
        refine ih ?_ (by simp only [List.length_cons]; omega)
        rw [List.reverse_cons]
        exact hline.concat hstep hget (by simpa [hself] using hagain)

/-- The ancestry of a defined name is what a walk from it finds. -/
theorem walked_ancestry (hstart : n.definitions.contains start = true) :
    Walked n start (n.ancestry start) := by
  rw [ancestry]
  cases hd : n.definitions.get? start with
  | none => simp [Table.get?_eq_none_iff.mp hd] at hstart
  | some d => exact walked_ascend _ (line_singleton hd) (by simp)

/-- A walk follows a line to its last definition. -/
theorem ascend_eq_of_line {steps : Nat} (hstart : n.definitions.get? start = some d) :
    ∀ {links : List Link} {x : String} {e : Definition}, n.Line start (links ++ [(x, e)]) →
      links.length ≤ steps →
      n.ascend steps [] (start, d) = n.ascend (steps - links.length) links.reverse (x, e) := by
  intro links
  induction links using List.reverseRecOn with
  | nil =>
    intro x e hline _
    obtain rfl : x = start := by simpa using hline.head
    obtain rfl := Option.some.inj (hstart.symm.trans hline.get?_last)
    rfl
  | append_singleton links link ih =>
    intro x e hline hsteps
    obtain ⟨y, f⟩ := link
    rw [List.length_append, List.length_singleton] at hsteps
    have hchain := hline.inherits
    have hnodup := hline.nodup
    simp only [List.map_append, List.map_cons, List.map_nil, List.isChain_append,
      List.nodup_append] at hchain hnodup
    obtain ⟨f', requested, hf, hparent, hx⟩ : n.InheritsFrom y x :=
      hchain.2.2 y (by simp) x (by simp)
    obtain rfl := Option.some.inj (hf.symm.trans hline.init.get?_last)
    have hother : n.denoted requested ≠ y := fun h =>
      hnodup.2.2 y (by simp) x (by simp) (h.symm.trans hx)
    have hnew : n.denoted requested ∉ links.reverse.map Prod.fst := by
      intro h
      rw [List.map_reverse, List.mem_reverse] at h
      exact hnodup.2.2 _ (List.mem_append_left _ h) x (by simp) hx
    have hleft : steps - links.length = steps - (links.length + 1) + 1 := by omega
    rw [ih hline.init (by omega), hleft, ascend_succ hparent hother hnew, hx, hline.get?_last]
    simp

/-- With no fewer steps than there are definitions a walk always ends in the same way. -/
theorem Walked.ascend_eq {found : Ancestry} (h : Walked n start found)
    (hstart : n.definitions.get? start = some d) {steps : Nat}
    (hsteps : n.definitions.size ≤ steps) : n.ascend steps [] (start, d) = found := by
  -- A line has no more definitions than the registry, so the walk gets to the end of it.
  have left : ∀ {links : List Link} {x : String} {e : Definition},
      n.Line start (links ++ [(x, e)]) → links.length + 1 ≤ steps := by
    intro links x e hline
    have := hline.length_le
    rw [List.length_append, List.length_singleton] at this
    omega
  cases h with
  | rooted line root =>
    rw [ascend_eq_of_line hstart line (Nat.le_of_succ_le (left line)), ascend_of_root root,
      List.reverse_reverse]
  | @continues passed last e requested line parent outside =>
    rw [ascend_eq_of_line hstart line (Nat.le_of_succ_le (left line))]
    by_cases hself : n.denoted requested = last
    · rw [ascend_of_self parent hself, List.reverse_reverse]
    · have hundefined := outside.resolve_left hself
      have hnew : n.denoted requested ∉ passed.reverse.map Prod.fst := by
        intro h
        obtain ⟨link, hlink, heq⟩ := List.mem_map.mp h
        have hdefined := line.defined link
          (List.mem_append_left _ (List.mem_reverse.mp hlink))
        simp [← heq, Table.contains_of_get? hdefined] at hundefined
      have hleft : steps - passed.length = steps - passed.length - 1 + 1 := by
        have := left line
        omega
      rw [hleft, ascend_succ parent hself hnew, Table.get?_eq_none_iff.mpr hundefined,
        List.reverse_reverse]
  | circular line parent other again =>
    rw [ascend_eq_of_line hstart line (Nat.le_of_succ_le (left line)),
      ascend_of_mem parent other (by simpa using again), List.reverse_reverse]

/-- What a walk has found, however many steps it took, is the ancestry of the name. -/
theorem Walked.ancestry_eq {found : Ancestry} (h : Walked n start found)
    (hstart : n.definitions.get? start = some d) : n.ancestry start = found := by
  rw [ancestry, hstart]
  exact h.ascend_eq hstart (Nat.le_refl _)

/-! ## Walks that go round -/

/-- The walk from a name comes to a name for the second time, and not only because a definition is
its own parent. -/
def GoesRound (n : Names) (start : String) : Prop :=
  ∃ b, ReflTransGen n.InheritsFrom start b ∧ TransGen n.InheritsFrom b b ∧ ¬n.InheritsFrom b b

/-- The names that a walk passes up to one that it passed before. -/
structure Circuit (n : Names) (start : String) (path : List String) : Prop where
  head : path.head? = some start
  inherits : path.IsChain n.InheritsFrom
  again : ∃ front last, path = front ++ [last] ∧ last ∈ front

/-- Nothing else is reached from a definition that is its own parent. -/
theorem InheritsFrom.eq_of_self (h : n.InheritsFrom a a) (hab : ReflTransGen n.InheritsFrom a b) :
    b = a := by
  induction hab with
  | refl => rfl
  | tail _ hstep ih =>
    subst ih
    exact hstep.unique h

/-- A walk that ends in a circle has passed a circuit. -/
theorem Walked.circuit {path : List String} (h : Walked n start (.circular path)) :
    n.Circuit start path := by
  cases h with
  | circular line parent other again =>
    refine ⟨?_, ?_, _, _, rfl, by simpa using Or.inl (List.mem_map.mp again)⟩
    · rw [List.head?_append, line.head]
      rfl
    · rw [List.isChain_append]
      refine ⟨line.inherits, .singleton _, ?_⟩
      simpa using ⟨_, _, line.get?_last, parent, rfl⟩

/-- A walk that ends in a circle goes round. -/
theorem Walked.goesRound {path : List String} (h : Walked n start (.circular path)) :
    n.GoesRound start := by
  cases h with
  | @circular passed last e requested line parent other again =>
    have hstep : n.InheritsFrom last (n.denoted requested) :=
      ⟨e, requested, line.get?_last, parent, rfl⟩
    have hback := line.transGen_last again
    refine ⟨n.denoted requested, line.reaches ?_, hback.tail hstep, fun hself => ?_⟩
    · exact List.mem_map.mpr ((List.mem_map.mp again).imp fun _ h =>
        ⟨List.mem_append_left _ h.1, h.2⟩)
    · exact other (hself.eq_of_self hback.to_reflTransGen).symm

/-- A walk that stops somewhere does not go round. -/
theorem Stops.not_goesRound (ha : n.Stops a) (hsa : ReflTransGen n.InheritsFrom start a) :
    ¬n.GoesRound start := fun ⟨_, hsb, hcycle, hself⟩ =>
  hself (ha.inheritsFrom_of_cycle hsa hsb hcycle)

/-! ## What the graph says about the walk -/

/-- A walk that ends outside comes to a name whose parent is not defined. -/
theorem Walked.exists_asksOutside {requested : String}
    (h : Walked n start (.continues links requested)) :
    ∃ a, ReflTransGen n.InheritsFrom start a ∧ n.AsksOutside a requested := by
  cases h with
  | continues line parent outside =>
    exact ⟨_, line.reaches_last, _, line.get?_last, parent, outside⟩

/-- A walk that ends at a root comes to a definition without a parent. -/
theorem Walked.exists_root (h : Walked n start (.rooted links)) :
    ∃ a root, ReflTransGen n.InheritsFrom start a ∧ n.definitions.get? a = some root ∧
      root.parent? = none := by
  cases h with
  | rooted line root => exact ⟨_, _, line.reaches_last, line.get?_last, root⟩

theorem AsksOutside.unique {requested requested' : String} (h : n.AsksOutside a requested)
    (h' : n.AsksOutside a requested') : requested = requested' := by
  obtain ⟨d, hd, hparent, -⟩ := h
  obtain ⟨d', hd', hparent', -⟩ := h'
  obtain rfl := Option.some.inj (hd.symm.trans hd')
  exact Option.some.inj (hparent.symm.trans hparent')

theorem AsksOutside.parent?_ne_none {requested : String} (h : n.AsksOutside a requested)
    (hd : n.definitions.get? a = some d) : d.parent? ≠ none := by
  obtain ⟨d', hd', hparent, -⟩ := h
  obtain rfl := Option.some.inj (hd.symm.trans hd')
  simp [hparent]

/-- A walk that goes round is found to be circular. -/
theorem ancestry_of_goesRound (hstart : n.definitions.contains start = true)
    (h : n.GoesRound start) : ∃ path, n.ancestry start = .circular path := by
  have hwalk := walked_ancestry hstart
  cases hfound : n.ancestry start with
  | unknown => rw [hfound] at hwalk; cases hwalk
  | circular path => exact ⟨path, rfl⟩
  | rooted links =>
    obtain ⟨a, root, hreach, hroot, hnone⟩ := (hfound ▸ hwalk).exists_root
    exact absurd h ((stops_of_root hroot hnone).not_goesRound hreach)
  | continues links requested =>
    obtain ⟨a, hreach, hout⟩ := (hfound ▸ hwalk).exists_asksOutside
    exact absurd h (hout.stops.not_goesRound hreach)

/-- A walk that comes to a definition with a parent outside ends there. -/
theorem ancestry_of_asksOutside {requested : String}
    (hstart : n.definitions.contains start = true)
    (hreach : ReflTransGen n.InheritsFrom start a) (h : n.AsksOutside a requested) :
    ∃ links, n.ancestry start = .continues links requested := by
  have hwalk := walked_ancestry hstart
  cases hfound : n.ancestry start with
  | unknown => rw [hfound] at hwalk; cases hwalk
  | circular path => exact absurd (hfound ▸ hwalk).goesRound (h.stops.not_goesRound hreach)
  | rooted links =>
    obtain ⟨b, root, hreachb, hroot, hnone⟩ := (hfound ▸ hwalk).exists_root
    obtain rfl := h.stops.unique (stops_of_root hroot hnone) hreach hreachb
    exact absurd hnone (h.parent?_ne_none hroot)
  | continues links requested' =>
    obtain ⟨b, hreachb, hout⟩ := (hfound ▸ hwalk).exists_asksOutside
    obtain rfl := h.stops.unique hout.stops hreach hreachb
    exact ⟨links, by rw [h.unique hout]⟩

/-- A walk that comes to a definition without a parent ends there. -/
theorem ancestry_of_root (hstart : n.definitions.contains start = true)
    (hreach : ReflTransGen n.InheritsFrom start a) (hd : n.definitions.get? a = some d)
    (hroot : d.parent? = none) : ∃ links, n.ancestry start = .rooted links := by
  have hwalk := walked_ancestry hstart
  have hstops := stops_of_root hd hroot
  cases hfound : n.ancestry start with
  | unknown => rw [hfound] at hwalk; cases hwalk
  | circular path => exact absurd (hfound ▸ hwalk).goesRound (hstops.not_goesRound hreach)
  | rooted links => exact ⟨links, rfl⟩
  | continues links requested =>
    obtain ⟨b, hreachb, hout⟩ := (hfound ▸ hwalk).exists_asksOutside
    obtain rfl := hstops.unique hout.stops hreach hreachb
    exact absurd hroot (hout.parent?_ne_none hd)

end Blueprint.Names
