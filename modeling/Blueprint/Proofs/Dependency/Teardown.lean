import Blueprint.Dependency.Graph
import Mathlib.Data.List.Nodup
import Mathlib.Logic.Relation

/-!
# Teardown orders

The walk of `teardown` lists a name when all its dependents were visited. `Underway` is what it
keeps. A name that was visited is listed, or it stands on the list of visits and waits to be left;
whatever comes before it there depends on it, directly or through others; and each of its
dependents was visited or comes before it. So when a name is listed, a dependent that is not yet
listed waits to be left itself, and then the name depends on that dependent in turn (`Settled`).

`teardown_order` says what that means for the names that were asked for. Each is listed once. A
dependent comes before what it depends on unless the two are on a cycle, and without any cycle so
does whatever depends on it through others, wanted or not.
-/

namespace Blueprint.Graph

open Relation

variable {g : Graph} {wanted : String → Bool} {visited : NameSet} {name x y z : String}
  {done names order : List String} {visits : List Visit}

/-- An edge says that the first name depends on the second. -/
def DependsOn (g : Graph) (x y : String) : Prop := g.hasEdge x y = true

theorem dependsOn_iff_mem : g.DependsOn x y ↔ x ∈ g.dependentsOf y := by
  rw [DependsOn, hasEdge, List.contains_iff_mem]

/-- Recording an edge adds it and no other. -/
theorem dependsOn_connect (g : Graph) (a b : String) :
    (g.connect a b).DependsOn x y ↔ g.DependsOn x y ∨ x = a ∧ y = b := by
  have listed : (g.connect a b).dependentsOf y =
      if b = y then addName (g.dependentsOf b) a else g.dependentsOf y := by
    simp only [dependentsOf, connect, link, Std.TreeMap.get?_eq_getElem?,
      Std.TreeMap.getElem?_insert, Std.LawfulEqCmp.compare_eq_iff_eq]
    split <;> rfl
  rw [dependsOn_iff_mem, dependsOn_iff_mem, listed]
  by_cases hb : b = y
  · subst hb
    rw [if_pos rfl, addName]
    split
    · rename_i ha
      rw [List.contains_iff_mem] at ha
      exact ⟨.inl, fun h => h.elim id fun h => h.1 ▸ ha⟩
    · simp
  · rw [if_neg hb]
    exact ⟨.inl, fun h => h.resolve_right fun h => hb h.2.symm⟩

/-! ## Orders -/

/-- Every name comes behind its dependents, except for those that it depends on in turn. -/
def Settled (g : Graph) (order : List String) : Prop :=
  ∀ earlier name later, order = earlier ++ name :: later → ∀ x, g.DependsOn x name →
    x ∈ earlier ∨ ReflTransGen g.DependsOn name x

theorem settled_nil : g.Settled [] := by
  intro earlier name later h
  simp at h

/-- A name can be listed next if its dependents are listed, or depended on in turn. -/
theorem Settled.concat (h : g.Settled order) (hname : ∀ x, g.DependsOn x name →
    x ∈ order ∨ ReflTransGen g.DependsOn name x) : g.Settled (order ++ [name]) := by
  intro earlier last later hcut x hx
  rcases List.eq_nil_or_concat later with rfl | ⟨later, z, rfl⟩
  · obtain ⟨rfl, hlast⟩ := List.append_inj' hcut rfl
    obtain rfl := List.singleton_inj.mp hlast
    exact hname x hx
  · have hcut' : order ++ [name] = (earlier ++ last :: later) ++ [z] := by simpa using hcut
    exact h earlier last later (List.append_inj' hcut' rfl).1 x hx

/-- In a settled order a dependent comes first, unless the two depend on each other. -/
theorem Settled.sublist_of_dependsOn (h : g.Settled order) (hxy : g.DependsOn x y)
    (hyx : ¬TransGen g.DependsOn y x) (hy : y ∈ order) : [x, y].Sublist order := by
  obtain ⟨earlier, later, rfl⟩ := List.append_of_mem hy
  rcases h earlier y later rfl x hxy with hx | hback
  · exact (List.singleton_sublist.mpr hx).append (List.singleton_sublist.mpr List.mem_cons_self)
  · rcases reflTransGen_iff_eq_or_transGen.mp hback with rfl | hback
    · exact absurd (.single hxy) hyx
    · exact absurd hback hyx

/-- In a list without repetition, what comes before comes before in a row. -/
theorem sublist_pair_trans (hn : order.Nodup) (hxz : [x, z].Sublist order)
    (hzy : [z, y].Sublist order) : [x, y].Sublist order := by
  obtain ⟨front, back, hcut, hx, hz⟩ := List.cons_sublist_iff.mp hxz
  obtain ⟨front', back', hcut', hz', hy⟩ := List.cons_sublist_iff.mp hzy
  rw [List.singleton_sublist] at hz hy
  have apart := (List.nodup_append.mp (hcut ▸ hn)).2.2
  have hboth := List.append_eq_append_iff.mp (hcut.symm.trans hcut')
  rcases hboth with ⟨c, rfl, rfl⟩ | ⟨c, rfl, rfl⟩
  · rw [hcut]
    exact (List.singleton_sublist.mpr hx).append
      (List.singleton_sublist.mpr (List.mem_append_right c hy))
  · exact absurd rfl (apart z (List.mem_append_left c hz') z hz)

/-- Without a cycle a name comes behind everything that depends on it. -/
theorem Settled.sublist_of_transGen (h : g.Settled order) (hn : order.Nodup)
    (hc : ∀ x, ¬TransGen g.DependsOn x x) (hxy : TransGen g.DependsOn x y) (hy : y ∈ order) :
    [x, y].Sublist order := by
  have step : ∀ {x y}, g.DependsOn x y → y ∈ order → [x, y].Sublist order := fun hxy hy =>
    h.sublist_of_dependsOn hxy (fun hyx => hc _ (.head hxy hyx)) hy
  induction hxy using TransGen.head_induction_on with
  | single hxy => exact step hxy hy
  | head hxz _ ih => exact sublist_pair_trans hn (step hxz (ih.subset List.mem_cons_self)) ih

/-! ## The walk -/

/-- The name that a visit is about. -/
def Visit.subject : Visit → String
  | .enter n | .leave n => n

/-- Before a name is left, what stands before it on the list is something else and depends on
it. -/
def Visit.Precedes (g : Graph) (v w : Visit) : Prop :=
  ∀ n, w = .leave n → v ≠ w ∧ TransGen g.DependsOn v.subject n

/-- Every name that is to be left has only dependents that were seen, or that will be entered
before. -/
def Attended (g : Graph) : (seen : String → Prop) → List Visit → Prop
  | _, [] => True
  | seen, .enter x :: visits => Attended g (fun y => seen y ∨ y = x) visits
  | seen, .leave n :: visits => (∀ x, g.DependsOn x n → seen x) ∧ Attended g seen visits

/-- The more names were seen, the more visits are attended. -/
theorem Attended.mono : ∀ {visits : List Visit} {seen seen' : String → Prop},
    g.Attended seen visits → (∀ x, seen x → seen' x) → g.Attended seen' visits
  | [], _, _, _, _ => trivial
  | .enter x :: visits, seen, seen', h, hs => by
    have hrest : g.Attended (fun y => seen y ∨ y = x) visits := h
    show g.Attended (fun y => seen' y ∨ y = x) visits
    exact hrest.mono fun y hy => hy.imp_left (hs y)
  | .leave _ :: _, _, _, h, hs => ⟨fun x hx => hs x (h.1 x hx), h.2.mono hs⟩

/-- Names that are about to be entered count as seen for what comes behind them. -/
theorem attended_enter_append : ∀ {names : List String} {seen : String → Prop},
    g.Attended (fun x => seen x ∨ x ∈ names) visits →
      g.Attended seen (names.map .enter ++ visits)
  | [], _, h => h.mono fun x hx => hx.resolve_right List.not_mem_nil
  | name :: names, seen, h => by
    show g.Attended (fun x => seen x ∨ x = name) (names.map .enter ++ visits)
    refine attended_enter_append (h.mono fun x hx => ?_)
    rwa [List.mem_cons, ← or_assoc] at hx

/-- What the walk keeps. -/
structure Underway (g : Graph) (visited : NameSet) (done : List String) (visits : List Visit) :
    Prop where
  visited_iff : ∀ x, visited.contains x = true ↔ x ∈ done ∨ .leave x ∈ visits
  nodup : done.Nodup
  /-- What is listed was left for good. -/
  left : ∀ x ∈ done, .leave x ∉ visits
  precedes : visits.Pairwise (Visit.Precedes g)
  attended : g.Attended (fun x => visited.contains x = true) visits
  settled : g.Settled done.reverse

/-- At the beginning nothing was visited or listed. -/
theorem underway_enter (g : Graph) (names : List String) :
    g.Underway {} [] (names.map .enter) where
  visited_iff x := by simp
  nodup := List.nodup_nil
  left x hx := absurd hx List.not_mem_nil
  precedes := List.pairwise_map.mpr (List.pairwise_of_forall fun _ _ n h => by cases h)
  attended := by
    rw [← List.append_nil (names.map Visit.enter)]
    exact attended_enter_append trivial
  settled := settled_nil

/-- A name that was visited need not be entered again. -/
theorem Underway.skip (h : g.Underway visited done (.enter name :: visits))
    (hv : visited.contains name = true) : g.Underway visited done visits where
  visited_iff x := by simpa using h.visited_iff x
  nodup := h.nodup
  left x hx hl := h.left x hx (List.mem_cons_of_mem _ hl)
  precedes := h.precedes.of_cons
  attended := by
    have hrest : g.Attended (fun x => visited.contains x = true ∨ x = name) visits := h.attended
    exact hrest.mono fun x hx => hx.elim id fun hx => hx ▸ hv
  settled := h.settled

/-- A name is listed once its dependents were visited. One that is not listed yet waits to be left
further down, so that the name depends on it. -/
theorem Underway.leave (h : g.Underway visited done (.leave name :: visits)) :
    g.Underway visited (name :: done) visits where
  visited_iff x := by
    rw [h.visited_iff, List.mem_cons, List.mem_cons, Visit.leave.injEq]
    tauto
  nodup := List.nodup_cons.mpr ⟨fun hn => h.left name hn List.mem_cons_self, h.nodup⟩
  left x hx hl := by
    rcases List.mem_cons.mp hx with rfl | hx
    · exact ((List.pairwise_cons.mp h.precedes).1 _ hl x rfl).1 rfl
    · exact h.left x hx (List.mem_cons_of_mem _ hl)
  precedes := h.precedes.of_cons
  attended := h.attended.2
  settled := by
    rw [List.reverse_cons]
    refine h.settled.concat fun x hx => ?_
    rcases (h.visited_iff x).mp (h.attended.1 x hx) with hd | hl
    · exact .inl (List.mem_reverse.mpr hd)
    · rcases List.mem_cons.mp hl with hl | hl
      · rw [Visit.leave.inj hl]
        exact .inr .refl
      · exact .inr ((List.pairwise_cons.mp h.precedes).1 _ hl x rfl).2.to_reflTransGen

/-- A name is entered before its dependents, and waits to be left behind them. -/
theorem Underway.enter (h : g.Underway visited done (.enter name :: visits))
    (hv : visited.contains name = false) :
    g.Underway (visited.insert name) done
      ((g.dependentsOf name).map .enter ++ .leave name :: visits) := by
  have hnew : name ∉ done ∧ .leave name ∉ visits := by
    have := (h.visited_iff name).not.mp (by simp [hv])
    simpa [not_or] using this
  obtain ⟨hbefore, hrest⟩ := List.pairwise_cons.mp h.precedes
  refine ⟨fun x => ?_, h.nodup, fun x hx hl => ?_, ?_, ?_, h.settled⟩
  · have hx := h.visited_iff x
    simp only [List.mem_cons, reduceCtorEq, false_or] at hx
    rw [Std.TreeSet.contains_insert, Bool.or_eq_true, hx]
    simp only [List.mem_append, List.mem_map, reduceCtorEq, and_false, exists_false, false_or,
      List.mem_cons, Visit.leave.injEq, beq_iff_eq, Std.LawfulEqCmp.compare_eq_iff_eq]
    tauto
  · simp only [List.mem_append, List.mem_map, reduceCtorEq, and_false, exists_false, false_or,
      List.mem_cons, Visit.leave.injEq] at hl
    rcases hl with rfl | hl
    · exact hnew.1 hx
    · exact h.left x hx (List.mem_cons_of_mem _ hl)
  · refine List.pairwise_append.mpr ⟨?_, List.pairwise_cons.mpr ⟨?_, hrest⟩, ?_⟩
    · exact List.pairwise_map.mpr (List.pairwise_of_forall fun _ _ n h => by cases h)
    · rintro _ hw n rfl
      refine ⟨fun he => hnew.2 ?_, (hbefore _ hw n rfl).2⟩
      rw [he]
      exact hw
    · intro v hv w hw n hn
      obtain ⟨x, hx, rfl⟩ := List.mem_map.mp hv
      have hxname : g.DependsOn x name := dependsOn_iff_mem.mpr hx
      -- What is entered now depends on the name, and so on all that waits to be left.
      refine ⟨by simp [hn], ?_⟩
      rcases List.mem_cons.mp hw with rfl | hw
      · obtain rfl := Visit.leave.inj hn
        exact .single hxname
      · exact .head hxname (hbefore w hw n hn).2
  · have hrest : g.Attended (fun x => visited.contains x = true ∨ x = name) visits := h.attended
    refine attended_enter_append ⟨fun x hx => .inr (dependsOn_iff_mem.mp hx), ?_⟩
    refine hrest.mono fun x hx => .inl ?_
    rw [Std.TreeSet.contains_insert]
    rcases hx with hx | rfl
    · simp [hx]
    · simp

/-- A name that was to be entered was seen when it is entered. -/
theorem seen_of_enter (hx : visited.contains x = true ∨ .enter x ∈ .enter name :: visits) :
    (visited.insert name).contains x = true ∨ .enter x ∈ visits := by
  rw [Std.TreeSet.contains_insert]
  rcases hx with hx | hx
  · simp [hx]
  · rcases List.mem_cons.mp hx with hx | hx
    · simp [Visit.enter.inj hx]
    · exact .inr hx

/-! ## The order of all names -/

/-- A name that was not visited is followed by its dependents, and then by leaving it. -/
theorem visitAll_enter (hv : visited.contains name = false) :
    g.visitAll wanted visited done (.enter name :: visits) =
      g.visitAll wanted (visited.insert name) done
        ((g.dependentsOf name).map .enter ++ .leave name :: visits) := by
  rw [visitAll, dif_neg (by simp [hv]), dependentsOf]
  split
  · rename_i hnone
    rw [hnone, Option.getD_none, List.map_nil, List.nil_append, visitAll]
  · rename_i hsome
    rw [hsome, Option.getD_some]

/-- What holds of a walk holds of all, if it is handed on from one visit to the next. -/
theorem visitAll_induction {P : NameSet → List String → List Visit → Prop}
    (nil : ∀ visited done, P visited done [])
    (leave : ∀ visited done name visits, P visited (name :: done) visits →
      P visited done (.leave name :: visits))
    (skip : ∀ visited done name visits, visited.contains name = true → P visited done visits →
      P visited done (.enter name :: visits))
    (enter : ∀ visited done name visits, visited.contains name = false →
      P (visited.insert name) done ((g.dependentsOf name).map .enter ++ .leave name :: visits) →
        P visited done (.enter name :: visits)) (visited : NameSet) (done : List String)
    (visits : List Visit) : P visited done visits := by
  induction visited, done, visits using visitAll.induct g (fun _ => true) with
  | case1 visited done => exact nil visited done
  | case2 visited done name visits ih => exact leave visited done name visits ih
  | case3 visited done name visits hv ih => exact skip visited done name visits hv ih
  | case4 visited done name visits hv hnone ih =>
    refine enter visited done name visits (eq_false_of_ne_true hv) ?_
    rw [dependentsOf, hnone]
    exact leave _ _ _ _ ih
  | case5 visited done name visits hv names hsome ih =>
    refine enter visited done name visits (eq_false_of_ne_true hv) ?_
    rw [dependentsOf, hsome]
    exact ih

/-- What the walk lists when nothing is left to visit, if every name is wanted. -/
theorem Underway.visitAll {visited : NameSet} {done : List String} {visits : List Visit}
    (h : g.Underway visited done visits) :
    (g.visitAll (fun _ => true) visited done visits).Nodup ∧
      g.Settled (g.visitAll (fun _ => true) visited done visits) ∧
      ∀ x, visited.contains x = true ∨ .enter x ∈ visits →
        x ∈ g.visitAll (fun _ => true) visited done visits := by
  induction visited, done, visits using visitAll_induction with
  | nil visited done =>
    rw [Graph.visitAll]
    refine ⟨List.nodup_reverse.2 h.nodup, h.settled, fun x hx => ?_⟩
    simpa [h.visited_iff] using hx
  | leave visited done name visits ih =>
    obtain ⟨hn, hs, hall⟩ := ih h.leave
    rw [Graph.visitAll, if_pos rfl]
    exact ⟨hn, hs, fun x hx => hall x (by simpa using hx)⟩
  | skip visited done name visits hv ih =>
    obtain ⟨hn, hs, hall⟩ := ih (h.skip hv)
    rw [Graph.visitAll, dif_pos hv]
    refine ⟨hn, hs, fun x hx => hall x ?_⟩
    rcases hx with hx | hx
    · exact .inl hx
    · rcases List.mem_cons.mp hx with hx | hx
      · exact .inl (Visit.enter.inj hx ▸ hv)
      · exact .inr hx
  | enter visited done name visits hv ih =>
    obtain ⟨hn, hs, hall⟩ := ih (h.enter hv)
    rw [visitAll_enter hv]
    refine ⟨hn, hs, fun x hx => hall x ((seen_of_enter hx).imp_right fun hx => ?_)⟩
    exact List.mem_append_right _ (List.mem_cons_of_mem _ hx)

/-! ## Wanted names -/

/-- Names that are not wanted are left out of the order and change nothing else. -/
theorem visitAll_filter (g : Graph) (wanted : String → Bool) (visited : NameSet)
    (done : List String) (visits : List Visit) :
    g.visitAll wanted visited (done.filter wanted) visits =
      (g.visitAll (fun _ => true) visited done visits).filter wanted := by
  induction visited, done, visits using visitAll_induction with
  | nil visited done => rw [visitAll, visitAll, List.filter_reverse]
  | leave visited done name visits ih =>
    rw [visitAll, visitAll, if_pos rfl, ← ih, List.filter_cons]
  | skip visited done name visits hv ih => rw [visitAll, visitAll, dif_pos hv, dif_pos hv, ih]
  | enter visited done name visits hv ih => rw [visitAll_enter hv, visitAll_enter hv, ih]

/-- An order in which every name comes that can be reached from the wanted ones. -/
theorem teardown_eq_filter (g : Graph) (names : List String) :
    g.teardown names =
      (g.visitAll (fun _ => true) {} [] (names.map .enter)).filter names.contains := by
  have hwanted : (Std.TreeSet.ofList names : NameSet).contains = names.contains := by
    funext x
    rw [Std.TreeSet.contains_ofList]
  rw [teardown, hwanted]
  exact visitAll_filter g names.contains {} [] (names.map .enter)

/-- Every name that was asked for is listed once, and nothing else. A dependent comes before what
it depends on, unless the latter depends on it in turn. Without any cycle the same holds of what
depends on a name through others, wherever they stand. -/
theorem teardown_order (g : Graph) (names : List String) :
    (g.teardown names).Nodup ∧ (∀ x, x ∈ g.teardown names ↔ x ∈ names) ∧
      (∀ x ∈ names, ∀ y ∈ names, g.DependsOn x y → ¬TransGen g.DependsOn y x →
        [x, y].Sublist (g.teardown names)) ∧
      ((∀ x, ¬TransGen g.DependsOn x x) → ∀ x ∈ names, ∀ y ∈ names, TransGen g.DependsOn x y →
        [x, y].Sublist (g.teardown names)) := by
  obtain ⟨hn, hs, hall⟩ := (underway_enter g names).visitAll
  rw [teardown_eq_filter]
  have listed : ∀ x ∈ names, x ∈ g.visitAll (fun _ => true) {} [] (names.map .enter) :=
    fun x hx => hall x (.inr (List.mem_map_of_mem hx))
  have kept : ∀ x ∈ names, ∀ y ∈ names,
      [x, y].Sublist (g.visitAll (fun _ => true) {} [] (names.map .enter)) →
        [x, y].Sublist
          ((g.visitAll (fun _ => true) {} [] (names.map .enter)).filter names.contains) := by
    intro x hx y hy h
    simpa [hx, hy] using h.filter names.contains
  refine ⟨hn.filter _, fun x => ?_, fun x hx y hy hxy hyx => ?_, fun hc x hx y hy hxy => ?_⟩
  · rw [List.mem_filter, List.contains_iff_mem]
    exact ⟨fun h => h.2, fun hx => ⟨listed x hx, hx⟩⟩
  · exact kept x hx y hy (hs.sublist_of_dependsOn hxy hyx (listed y hy))
  · exact kept x hx y hy (hs.sublist_of_transGen hn hc hxy (listed y hy))

/-- A gate stands between the web and the store. -/
def gated : Graph := (({} : Graph).connect "web" "gate").connect "gate" "store"

/-- Behind the gate the store depends on the gate in turn. -/
def looped : Graph := gated.connect "store" "gate"

theorem dependsOn_gated :
    gated.DependsOn x y ↔ x = "web" ∧ y = "gate" ∨ x = "gate" ∧ y = "store" := by
  have hempty : ¬({} : Graph).DependsOn x y := by rintro ⟨⟩
  rw [gated, dependsOn_connect, dependsOn_connect]
  tauto

theorem not_transGen_gated_self (x : String) : ¬TransGen gated.DependsOn x x := by
  have ends : ∀ {y}, TransGen gated.DependsOn x y →
      x = "web" ∧ y = "gate" ∨ x ≠ "store" ∧ y = "store" := by
    intro y h
    induction h with
    | single h =>
      rcases dependsOn_gated.mp h with h | ⟨rfl, rfl⟩
      · exact .inl h
      · exact .inr ⟨by decide, rfl⟩
    | tail _ h ih =>
      rcases dependsOn_gated.mp h with ⟨rfl, rfl⟩ | ⟨rfl, rfl⟩
      · simp at ih
      · rcases ih with ⟨rfl, -⟩ | ⟨-, hfalse⟩
        · exact .inr ⟨by decide, rfl⟩
        · exact absurd hfalse (by decide)
  intro h
  rcases ends h with ⟨rfl, hfalse⟩ | ⟨hne, heq⟩
  · exact absurd hfalse (by decide)
  · exact hne heq

/-- The web goes before the store through a gate that nobody asks for, and before the gate even if
the gate is on a cycle. -/
theorem teardown_gated : ["web", "store"].Sublist (gated.teardown ["store", "web"]) ∧
    ["web", "gate"].Sublist (looped.teardown ["store", "gate", "web", "gate"]) := by
  have hweb : gated.DependsOn "web" "gate" := dependsOn_gated.mpr (by simp)
  have hgate : gated.DependsOn "gate" "store" := dependsOn_gated.mpr (by simp)
  refine ⟨(teardown_order gated _).2.2.2 not_transGen_gated_self _ (by simp) _ (by simp)
    (.tail (.single hweb) hgate), (teardown_order looped _).2.2.1 _ (by simp) _ (by simp)
      ((dependsOn_connect _ _ _).mpr (.inl hweb)) fun h => ?_⟩
  -- Nothing depends on the web, so no path leads there.
  obtain ⟨z, -, hz⟩ := TransGen.tail'_iff.mp h
  rcases (dependsOn_connect _ _ _).mp hz with hz | hz
  · simpa using dependsOn_gated.mp hz
  · simpa using hz.2

end Blueprint.Graph
