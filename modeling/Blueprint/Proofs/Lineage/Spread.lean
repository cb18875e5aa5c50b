import Blueprint.Proofs.Lineage.Heritage

/-!
# Chains that are spread over a lineage

The definitions of a chain can all be in one registry, or be cut into segments that are in the
registries of a lineage, the nearest first (`Spread`). Wherever it is cut, the first name has the
same chain of parents (`Spread.heritage`), and so it has the same merged definition, down to the
order of its properties (`merge_of_spread`).
-/

namespace Blueprint

/-- Definitions under different names without marks, each of which has the next one as its parent,
and the last one none. -/
structure Chained (links : List Link) : Prop where
  nodup : (links.map Prod.fst).Nodup
  plain : ∀ link ∈ links, productName link.1 = link.1
  parents : links.IsChain fun child parent => child.2.parent? = some parent.1
  root : ∀ last, links.getLast? = some last → last.2.parent? = none

/-- Tables that have a segment of a chain and not what comes after it, and none of these names as an
alias. -/
structure Names.Holds (n : Names) (segment later : List Link) : Prop where
  defined : ∀ link ∈ segment, n.definitions.get? link.1 = some link.2
  undefined : ∀ link ∈ later, n.definitions.contains link.1 = false
  unaliased : ∀ link ∈ segment ++ later, n.aliases.contains link.1 = false

/-- The tables of a lineage have the segments of a chain, each of them one, which may be empty. -/
def Spread : List Names → (segments : List (List Link)) → Prop
  | [], [] => True
  | n :: ancestors, segment :: later => n.Holds segment later.flatten ∧ Spread ancestors later
  | _, _ => False

variable {n : Names} {link next : Link} {links segment later : List Link}

theorem Names.denoted_of_unaliased {x : String} (hplain : productName x = x)
    (h : n.aliases.contains x = false) : n.denoted x = x := by
  rw [denoted, hplain, canonical, follow, Table.get?_eq_none_iff.mpr h]

theorem Names.Holds.tail (h : n.Holds (link :: segment) later) : n.Holds segment later where
  defined other hother := h.defined other (List.mem_cons_of_mem link hother)
  undefined := h.undefined
  unaliased other hother := h.unaliased other (List.mem_cons_of_mem link hother)

namespace Chained

theorem tail (h : Chained (link :: next :: links)) : Chained (next :: links) where
  nodup := (List.nodup_cons.mp h.nodup).2
  plain other hother := h.plain other (List.mem_cons_of_mem link hother)
  parents := (List.isChain_cons_cons.mp h.parents).2
  root last hlast := h.root last (by rwa [List.getLast?_cons_cons])

theorem parent (h : Chained (link :: next :: links)) : link.2.parent? = some next.1 :=
  (List.isChain_cons_cons.mp h.parents).1

theorem ne_parent (h : Chained (link :: next :: links)) : next.1 ≠ link.1 := by
  intro heq
  have hnew := (List.nodup_cons.mp h.nodup).1
  rw [List.map_cons, heq] at hnew
  exact hnew List.mem_cons_self

end Chained

namespace Lineage

variable {ancestors : List Names}

/-- A chain of which a segment is here has the parents that it lists, if what comes after the
segment has them above. -/
theorem heritage_of_holds (habove : ∀ {link : Link} {links : List Link}, later = link :: links →
      Chained (link :: links) → Heritage ancestors link.1 (link :: links)) :
    ∀ {segment : List Link} {link : Link} {links : List Link}, n.Holds segment later →
      segment ++ later = link :: links → Chained (link :: links) →
      Heritage (n :: ancestors) link.1 (link :: links)
  -- Nothing is left of the segment, and the next name is not known here.
  | [], link, links, hn, hsplit, hchain => by
    have hmem : link ∈ later := (show later = link :: links from hsplit) ▸ List.mem_cons_self
    have hname := Names.denoted_of_unaliased (hchain.plain link List.mem_cons_self)
      (hn.unaliased link hmem)
    refine .elsewhere ?_ (habove hsplit hchain)
    rw [hname]
    exact hn.undefined link hmem
  | first :: segment, link, links, hn, hsplit, hchain => by
    obtain ⟨rfl, hlinks⟩ := List.cons.inj hsplit
    have hname := Names.denoted_of_unaliased (hchain.plain first List.mem_cons_self)
      (hn.unaliased first List.mem_cons_self)
    have hdefined : n.definitions.get? (n.denoted first.1) = some first.2 := by
      rw [hname]
      exact hn.defined first List.mem_cons_self
    have hlink : first = (n.denoted first.1, first.2) := by rw [hname]
    cases links with
    | nil =>
      have h : Heritage (n :: ancestors) first.1 [(n.denoted first.1, first.2)] :=
        .root hdefined (hchain.root first rfl)
      rwa [← hlink] at h
    | cons next links =>
      have hrest := heritage_of_holds habove hn.tail hlinks hchain.tail
      have hmem : next ∈ first :: segment ++ later := by
        rw [hsplit]
        simp
      have hnext := Names.denoted_of_unaliased (hchain.plain next (by simp))
        (hn.unaliased next hmem)
      have hother : n.denoted next.1 ≠ n.denoted first.1 := by
        rw [hname, hnext]
        exact hchain.ne_parent
      have h := Heritage.inherits hdefined hchain.parent hother hrest
      rwa [← hlink] at h

end Lineage

/-- Wherever a chain is cut, its first name has the parents that it lists. -/
theorem Spread.heritage {ns : List Names} {segments : List (List Link)} (h : Spread ns segments)
    (hsegments : segments.flatten = link :: links) (hchain : Chained (link :: links)) :
    Lineage.Heritage ns link.1 (link :: links) := by
  induction ns generalizing segments link links with
  | nil =>
    cases segments with
    | nil => cases hsegments
    | cons => exact h.elim
  | cons n ancestors ih =>
    cases segments with
    | nil => exact h.elim
    | cons segment later =>
      exact Lineage.heritage_of_holds (ih h.2) h.1 hsegments hchain

namespace Lineage

/-- In every run, a chain of definitions that are all in one registry without ancestors is merged
to the same definition as if it were cut into segments over the registries of another lineage. The
two answers are the same if the scope of that definition is known in both lineages or in none. -/
theorem merge_of_spread {r : Registry} {link : Link} {links : List Link}
    (hchain : Chained (link :: links))
    (policies : List Policy) (requests : List (Nat × Request)) (level : Nat)
    (hroot : after policies requests level = [r]) (hwhole : r.names.Holds (link :: links) [])
    (policies' : List Policy) (requests' : List (Nat × Request)) (level' : Nat)
    (segments : List (List Link)) (hsegments : segments.flatten = link :: links)
    (hspread : Spread ((after policies' requests' level').map (·.names)) segments)
    (ht : Trusted policies' requests' level') :
    ∃ d, (merge [r] link.1).value.1 = inKnownScope [r] link.1 d ∧
      ((after policies' requests' level').merge link.1).value.1 =
        inKnownScope (after policies' requests' level') link.1 d ∧
      ((after policies' requests' level').knowsScope d.effectiveScope =
          knowsScope [r] d.effectiveScope →
        ((after policies' requests' level').merge link.1).value.1 =
          (merge [r] link.1).value.1) := by
  -- A chain in one registry is one that is spread in a single segment.
  have hone : Spread ([r].map (·.names)) [link :: links] := ⟨by simpa using hwhole, trivial⟩
  have hall := merge_eq_foldRooted (truthful_of_current (current_of_after_eq_singleton hroot))
    (hone.heritage (by simp) hchain)
  have hcut := merge_eq_foldRooted ht.truthful (hspread.heritage hsegments hchain)
  refine ⟨foldRooted (link :: links), hall, hcut, fun hscope => ?_⟩
  rw [hall, hcut, inKnownScope, inKnownScope, hscope]

/-- Three definitions, of which the first two have a list to be merged. -/
def pathChain : List Link := [
  ("store", listing (some "base") ["/usr/local"] (some true)),
  ("base", listing (some "common") ["/usr"] (some true)),
  ("common", listing none ["/"] none)]

theorem chained_pathChain : Chained pathChain where
  nodup := by decide
  plain := by decide
  parents := .cons_cons rfl (.cons_cons rfl (.singleton _))
  root last hlast := by
    obtain rfl := Option.some.inj hlast
    rfl

/-- All three are registered in one registry. -/
def gatheredPaths : List (Nat × Request) :=
  pathChain.map fun link => (0, .change (.register link.1 link.2))

/-- Each of them is registered in a registry of its own, and the one in the middle is merged
first. -/
def scatteredPaths : List (Nat × Request) := [
  (2, .change (.register "common" (listing none ["/"] none))),
  (1, .change (.register "base" (listing (some "common") ["/usr"] (some true)))),
  (1, .merge "base"),
  (0, .change (.register "store" (listing (some "base") ["/usr/local"] (some true))))]

theorem merge_scatteredPaths :
    ((after [{}, {}, {}] scatteredPaths 0).merge "store").value.1 =
      ((after [{}] gatheredPaths 0).merge "store").value.1 ∧
    ((after [{}] gatheredPaths 0).merge "store").value.1.map (·.properties.get? "paths") =
      .ok (some (.list [.literal "/", .literal "/usr", .literal "/usr/local"] none)) := by
  have hone : (after [{}] gatheredPaths 0).map (fun r => (r.names.aliases, r.scopes,
      pathChain.map fun link => r.names.definitions.get? link.1)) =
    [({}, {}, pathChain.map fun link => some link.2)] := by rfl
  obtain ⟨r, hroot, hr⟩ := List.map_eq_singleton_iff.mp hone
  simp only [Prod.mk.injEq] at hr
  obtain ⟨haliases, hscopes, hdefined⟩ := hr
  have hwhole : r.names.Holds pathChain [] :=
    ⟨List.map_inj_left.mp hdefined, by simp, fun link _ => by rw [haliases]; rfl⟩
  have hthree : (after [{}, {}, {}] scatteredPaths 0).map (fun r => (r.names.aliases, r.scopes,
      pathChain.map fun link => r.names.definitions.get? link.1)) =
    [({}, {}, [some (listing (some "base") ["/usr/local"] (some true)), none, none]),
      ({}, {}, [none, some (listing (some "common") ["/usr"] (some true)), none]),
      ({}, {}, [none, none, some (listing none ["/"] none)])] := by rfl
  obtain ⟨child, _, hrun, hchild, hrest⟩ := List.map_eq_cons_iff.mp hthree
  obtain ⟨middle, _, rfl, hmiddle, hrest⟩ := List.map_eq_cons_iff.mp hrest
  obtain ⟨top, rfl, htop⟩ := List.map_eq_singleton_iff.mp hrest
  simp only [Prod.mk.injEq, pathChain, List.map_cons, List.map_nil, List.cons.injEq, and_true]
    at hchild hmiddle htop
  have hempty : ∀ name, (∅ : Table String String).get? name = none := fun _ => rfl
  have hspread : Spread ((after [{}, {}, {}] scatteredPaths 0).map (·.names))
      (pathChain.map fun link => [link]) := by
    rw [hrun]
    refine ⟨⟨?_, ?_, ?_⟩, ⟨?_, ?_, ?_⟩, ⟨?_, ?_, ?_⟩, trivial⟩
    all_goals simp [hchild, hmiddle, htop, hempty, ← Table.get?_eq_none_iff]
  have hcount : (founded [{}, {}, {}]).mutations scatteredPaths = 3 := by decide +kernel
  have hknown : ∀ scope, (after [{}, {}, {}] scatteredPaths 0).knowsScope scope =
      knowsScope [r] scope := by
    intro scope
    simp [hrun, knowsScope, hchild, hmiddle, htop, hscopes]
  obtain ⟨d, -, -, hsame⟩ := merge_of_spread chained_pathChain [{}] gatheredPaths 0 hroot hwhole
    [{}, {}, {}] scatteredPaths 0 _ rfl hspread (.counted (by rw [hcount]; decide))
  refine ⟨?_, by rfl⟩
  rw [hroot]
  exact hsame (hknown d.effectiveScope)

end Lineage

end Blueprint
