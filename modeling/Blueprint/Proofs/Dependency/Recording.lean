import Blueprint.Proofs.Dependency.Teardown

/-!
# Recording dependencies

What `connect` does to the lists of a graph, and what recording the edges from one name to several
does to its edges (`dependsOn_connectEach`).

Both walks over a graph see nothing of it but the lists of dependents (`isDependent_congr`,
`teardown_congr`). So graphs with the same lists give the same answers, and so does a graph in which
edges are recorded that were there on both sides (`sameLists_connectEach`). Without any edges
names are torn down in the order in which they are given (`teardown_of_no_edges`).
-/

namespace Blueprint.Graph

variable {g g' : Graph} {a b x y name : String} {bs names : List String}

/-! ## Lists -/

/-- To add a name to one list leaves all other lists. -/
theorem getD_get?_link (t : Std.TreeMap String (List String)) (key value name : String) :
    ((link t key value).get? name).getD [] =
      if key = name then addName ((t.get? key).getD []) value else (t.get? name).getD [] := by
  simp only [link, Std.TreeMap.get?_eq_getElem?, Std.TreeMap.getElem?_insert,
    Std.LawfulEqCmp.compare_eq_iff_eq]
  split <;> rfl

theorem dependentsOf_connect (g : Graph) (a b name : String) : (g.connect a b).dependentsOf name =
    if b = name then addName (g.dependentsOf b) a else g.dependentsOf name :=
  getD_get?_link g.dependents b a name

/-- An edge changes one list of dependencies. -/
theorem dependenciesOf_connect (g : Graph) (a b name : String) :
    (g.connect a b).dependenciesOf name =
      if a = name then addName (g.dependenciesOf a) b else g.dependenciesOf name :=
  getD_get?_link g.dependencies a b name

/-- The graphs list the same names in the same order. -/
structure SameLists (g' g : Graph) : Prop where
  dependents : ∀ name, g'.dependentsOf name = g.dependentsOf name
  dependencies : ∀ name, g'.dependenciesOf name = g.dependenciesOf name

theorem SameLists.refl (g : Graph) : SameLists g g := ⟨fun _ => rfl, fun _ => rfl⟩

theorem SameLists.trans {g'' : Graph} (h : SameLists g'' g') (h' : SameLists g' g) :
    SameLists g'' g where
  dependents name := (h.dependents name).trans (h'.dependents name)
  dependencies name := (h.dependencies name).trans (h'.dependencies name)

theorem mem_addName : x ∈ addName names name ↔ x ∈ names ∨ x = name := by
  by_cases h : name ∈ names
  · rw [addName, if_pos (List.contains_iff_mem.mpr h)]
    exact ⟨.inl, fun hx => hx.elim id fun hx => hx ▸ h⟩
  · rw [addName, if_neg fun hc => h (List.contains_iff_mem.mp hc), List.mem_append,
      List.mem_singleton]

theorem addName_of_mem (h : name ∈ names) : addName names name = names :=
  if_pos (List.contains_iff_mem.mpr h)

/-- An edge that is listed on both sides is not listed again. -/
theorem sameLists_connect (ha : a ∈ g.dependentsOf b) (hb : b ∈ g.dependenciesOf a) :
    SameLists (g.connect a b) g where
  dependents name := by
    rw [dependentsOf_connect, addName_of_mem ha]
    split
    · rename_i h
      rw [h]
    · rfl
  dependencies name := by
    rw [dependenciesOf_connect, addName_of_mem hb]
    split
    · rename_i h
      rw [h]
    · rfl

/-! ## Edges from one name -/

/-- Records that a name depends on others. -/
def connectEach (g : Graph) (a : String) (bs : List String) : Graph :=
  bs.foldl (fun g b => g.connect a b) g

/-- The edges from one name to several are added, and no others. -/
theorem dependsOn_connectEach : ∀ {bs : List String} {g : Graph},
    (g.connectEach a bs).DependsOn x y ↔ g.DependsOn x y ∨ x = a ∧ y ∈ bs
  | [], g => by simp [connectEach]
  | b :: bs, g => by
    rw [connectEach, List.foldl_cons, ← connectEach, dependsOn_connectEach, dependsOn_connect,
      List.mem_cons, or_assoc, ← and_or_left]

theorem mem_dependenciesOf_connect (g : Graph) (a b : String) :
    y ∈ (g.connect a b).dependenciesOf x ↔ y ∈ g.dependenciesOf x ∨ x = a ∧ y = b := by
  rw [dependenciesOf_connect]
  by_cases ha : a = x
  · simp [ha, mem_addName]
  · simp [ha, Ne.symm ha]

theorem mem_dependenciesOf_connectEach : ∀ {bs : List String} {g : Graph},
    y ∈ (g.connectEach a bs).dependenciesOf x ↔ y ∈ g.dependenciesOf x ∨ x = a ∧ y ∈ bs
  | [], g => by simp [connectEach]
  | b :: bs, g => by
    rw [connectEach, List.foldl_cons, ← connectEach, mem_dependenciesOf_connectEach,
      mem_dependenciesOf_connect, List.mem_cons, or_assoc, ← and_or_left]

/-- Edges that are there on both sides are not recorded again. -/
theorem sameLists_connectEach : ∀ {bs : List String} {g : Graph},
    (∀ b ∈ bs, a ∈ g.dependentsOf b ∧ b ∈ g.dependenciesOf a) → SameLists (g.connectEach a bs) g
  | [], g, _ => .refl g
  | b :: bs, g, h => by
    have hfirst := sameLists_connect (h b List.mem_cons_self).1 (h b List.mem_cons_self).2
    have hrest : SameLists ((g.connect a b).connectEach a bs) (g.connect a b) := by
      refine sameLists_connectEach fun b' hb' => ?_
      rw [hfirst.dependents, hfirst.dependencies]
      exact h b' (List.mem_cons_of_mem b hb')
    exact hrest.trans hfirst

/-! ## What the walks see -/

/-- The walk of a teardown sees nothing of a graph but its lists of dependents. -/
theorem visitAll_congr (h : ∀ name, g'.dependentsOf name = g.dependentsOf name)
    (wanted : String → Bool) (visited : NameSet) (done : List String) (visits : List Visit) :
    g'.visitAll wanted visited done visits = g.visitAll wanted visited done visits := by
  suffices all : ∀ done,
      g'.visitAll wanted visited done visits = g.visitAll wanted visited done visits from all done
  induction visited, done, visits using visitAll_induction (g := g) with
  | nil visited _ => exact fun done => by rw [visitAll, visitAll]
  | leave visited _ name visits ih => exact fun done => by rw [visitAll, visitAll, ih]
  | skip visited _ name visits hv ih =>
    exact fun done => by rw [visitAll, visitAll, dif_pos hv, dif_pos hv, ih]
  | enter visited _ name visits hv ih =>
    exact fun done => by rw [visitAll_enter hv, visitAll_enter hv, h, ih]

/-- Graphs with the same dependents are torn down in the same order. -/
theorem teardown_congr (h : ∀ name, g'.dependentsOf name = g.dependentsOf name)
    (names : List String) : g'.teardown names = g.teardown names :=
  visitAll_congr h _ _ _ _

/-- A name that was not visited is asked for its dependents. -/
theorem reaches_cons {candidate : String} {visited : NameSet} {pending : List String}
    (hv : visited.contains name = false) : g.reaches candidate visited (name :: pending) =
      ((g.dependentsOf name).contains candidate ||
        g.reaches candidate (visited.insert name) ((g.dependentsOf name).reverse ++ pending)) := by
  rw [reaches, dif_neg (by simp [hv]), dependentsOf]
  split
  · rename_i hnone
    rw [hnone]
    rfl
  · rename_i hsome
    rw [hsome]
    rfl

/-- What holds of a search holds of all, if it is handed on from one pending name to the next. -/
theorem reaches_induction {P : NameSet → List String → Prop} (nil : ∀ visited, P visited [])
    (skip : ∀ visited name pending, visited.contains name = true → P visited pending →
      P visited (name :: pending))
    (enter : ∀ visited name pending, visited.contains name = false →
      P (visited.insert name) ((g.dependentsOf name).reverse ++ pending) →
        P visited (name :: pending)) (visited : NameSet) (pending : List String) :
    P visited pending := by
  induction visited, pending using reaches.induct g with
  | case1 visited => exact nil visited
  | case2 visited name pending hv ih => exact skip visited name pending hv ih
  | case3 visited name pending hv hnone ih =>
    refine enter visited name pending (eq_false_of_ne_true hv) ?_
    rw [dependentsOf, hnone]
    exact ih
  | case4 visited name pending hv names hsome ih =>
    refine enter visited name pending (eq_false_of_ne_true hv) ?_
    rw [dependentsOf, hsome]
    exact ih

/-- The search for dependents sees nothing of a graph but its lists of dependents. -/
theorem reaches_congr (h : ∀ name, g'.dependentsOf name = g.dependentsOf name)
    (candidate : String) (visited : NameSet) (pending : List String) :
    g'.reaches candidate visited pending = g.reaches candidate visited pending := by
  induction visited, pending using reaches_induction (g := g) with
  | nil visited => rw [reaches, reaches]
  | skip visited name pending hv ih => rw [reaches, reaches, dif_pos hv, dif_pos hv, ih]
  | enter visited name pending hv ih => rw [reaches_cons hv, reaches_cons hv, h, ih]

theorem isDependent_congr (h : ∀ name, g'.dependentsOf name = g.dependentsOf name)
    (name candidate : String) : g'.isDependent name candidate = g.isDependent name candidate :=
  reaches_congr h candidate {} [name]

/-! ## Orders -/

theorem nodup_teardown (g : Graph) (names : List String) : (g.teardown names).Nodup := by
  rw [teardown_eq_filter]
  exact (underway_enter g names).visitAll.1.filter _

theorem mem_teardown_iff : x ∈ g.teardown names ↔ x ∈ names := by
  rw [teardown_eq_filter, List.mem_filter, List.contains_iff_mem]
  refine ⟨fun h => h.2, fun hx => ⟨?_, hx⟩⟩
  exact (underway_enter g names).visitAll.2.2 x (.inr (List.mem_map_of_mem hx))

/-- A dependent comes before what it depends on, unless the latter depends on it in turn. -/
theorem sublist_teardown_of_dependsOn (hxy : g.DependsOn x y)
    (hyx : ¬Relation.TransGen g.DependsOn y x) (hx : x ∈ names) (hy : y ∈ names) :
    [x, y].Sublist (g.teardown names) := by
  obtain ⟨-, hsettled, hall⟩ := (underway_enter g names).visitAll
  have hpair := (hsettled.sublist_of_dependsOn hxy hyx
    (hall y (.inr (List.mem_map_of_mem hy)))).filter names.contains
  rw [teardown_eq_filter]
  simpa [hx, hy] using hpair

/-- Without edges every name is left as soon as it is entered. -/
theorem visitAll_of_no_edges (h : ∀ name, g.dependentsOf name = []) :
    ∀ {names done : List String} {visited : NameSet}, names.Nodup →
      (∀ name ∈ names, visited.contains name = false) →
      g.visitAll (fun _ => true) visited done (names.map .enter) = done.reverse ++ names
  | [], done, visited, _, _ => by simp [visitAll]
  | name :: names, done, visited, hn, hv => by
    obtain ⟨hnot, hn⟩ := List.nodup_cons.mp hn
    have hrest : ∀ x ∈ names, (visited.insert name).contains x = false := by
      intro x hx
      have hne : name ≠ x := fun e => hnot (e ▸ hx)
      simp [Std.TreeSet.contains_insert, hv x (List.mem_cons_of_mem name hx), hne]
    rw [List.map_cons, visitAll_enter (hv name List.mem_cons_self), h, List.map_nil,
      List.nil_append, visitAll, if_pos rfl, visitAll_of_no_edges h hn hrest]
    simp

/-- Without edges names are torn down as they come. -/
theorem teardown_of_no_edges (h : ∀ x y, ¬g.DependsOn x y) (hn : names.Nodup) :
    g.teardown names = names := by
  have hnil : ∀ name, g.dependentsOf name = [] := fun name =>
    List.eq_nil_iff_forall_not_mem.mpr fun x hx => h x name (dependsOn_iff_mem.mpr hx)
  rw [teardown_eq_filter, visitAll_of_no_edges hnil hn (by simp), List.reverse_nil, List.nil_append,
    List.filter_eq_self]
  exact fun x hx => List.contains_iff_mem.mpr hx

end Blueprint.Graph
