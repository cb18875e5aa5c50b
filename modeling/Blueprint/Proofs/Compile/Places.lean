import Blueprint.Proofs.Compile.Scopes
import Mathlib.Data.Set.Card

/-!
# Places in a document

A place is a list of numbers that lead from the root of a document to an element in it : the first
one is the number of a child, the next one the number of a child of that, and so on. Document order
is the lexicographic order of places.

`Element.SaysAt` tells what is said at a place, by an element of a scope that is entered, or by the
scope itself if its defaults are invalid. That does not refer to outlines. `Element.tour` is the
outline with the place of every entry (`map_snd_tour`), and what it lists is what is said
(`mem_tour_iff`), in document order (`inOrder_tour`). `Element.numbering` are the places of the
entries that take a number, and how many stand before one of them can be counted in it
(`ncard_before`).
-/

namespace Blueprint

/-- The entry stands for invalid defaults. -/
def OutlineEntry.isComplaint : OutlineEntry → Bool
  | .invalidDefaults _ => true
  | _ => false

namespace Element

/-- What an element in a scope says, unless it is a group. -/
def said? (defaults : Defaults) (e : Element) : Option OutlineEntry :=
  match e.kind with
  | .importing => some (.importing e)
  | .aliasing => some (.aliasing e)
  | .component => some (.component e defaults)
  | .custom => some (.custom e)
  | .group => none

/-- What is said at a place in a scope with some defaults around it. Nothing is said in a scope
whose profiles are not accepted. -/
inductive SaysAt (env : Environment) :
    Defaults → Element → (place : List Nat) → OutlineEntry → Prop
  | complaint {enclosing : Defaults} {scope : Element} {cause : Error}
      (accepted : scope.unmetProfiles? env = none)
      (invalid : Defaults.derive scope enclosing = .error cause) :
      SaysAt env enclosing scope [] (.invalidDefaults cause)
  | child {enclosing : Defaults} {scope e : Element} {i : Nat} {entry : OutlineEntry}
      (accepted : scope.unmetProfiles? env = none) (child : scope.children[i]? = some e)
      (said : e.said? (enclosing.inside scope) = some entry) :
      SaysAt env enclosing scope [i] entry
  | inside {enclosing : Defaults} {scope group : Element} {i : Nat} {place : List Nat}
      {entry : OutlineEntry} (accepted : scope.unmetProfiles? env = none)
      (child : scope.children[i]? = some group) (kind : group.kind = .group)
      (said : SaysAt env (enclosing.inside scope) group place entry) :
      SaysAt env enclosing scope (i :: place) entry

/-- A component, an alias, an import or an unknown element of a document stands at a place, in
scopes that are all entered. -/
def DeclaresAt (env : Environment) (root : Element) (place : List Nat) : Prop :=
  ∃ entry, SaysAt env {} root place entry ∧ entry.isComplaint = false

/-- A scope that is entered, and whose defaults are invalid, stands at a place. -/
def ComplainsAt (env : Environment) (root : Element) (place : List Nat) : Prop :=
  ∃ entry, SaysAt env {} root place entry ∧ entry.isComplaint = true

/-! ## Tours -/

mutual

/-- The entries of a scope with their places. The marks of a scope stand at its own place. -/
def tour (env : Environment) (enclosing : Defaults) : Element → List (List Nat × OutlineEntry)
  | ⟨name, attributes, children, text⟩ =>
    let scope : Element := ⟨name, attributes, children, text⟩
    match scope.unmetProfiles? env with
    | some profiles => [([], .skipped profiles)]
    | none => (scope.complaints enclosing).map (Prod.mk []) ++ ([], .enter scope) ::
        tourAll env (enclosing.inside scope) 0 children ++ [([], .leave scope)]

/-- The entries of the children of a scope from a number on. -/
def tourAll (env : Environment) (defaults : Defaults) :
    Nat → List Element → List (List Nat × OutlineEntry)
  | _, [] => []
  | i, e :: es =>
    (match e.kind with
      | .group => tour env defaults e
      | _ => (said? defaults e).toList.map (Prod.mk [])).map (Prod.map (List.cons i) id) ++
        tourAll env defaults (i + 1) es

end

/-- The entries that a child of a scope stands for, with their places in it. -/
def childTour (env : Environment) (defaults : Defaults) (e : Element) :
    List (List Nat × OutlineEntry) :=
  match e.kind with
  | .group => tour env defaults e
  | _ => (said? defaults e).toList.map (Prod.mk [])

variable {env : Environment} {enclosing defaults : Defaults} {scope e : Element}
  {es : List Element} {place q : List Nat} {entry : OutlineEntry} {i : Nat}

/-- A scope that is not entered is met once, as skipped. -/
theorem tour_of_unmet {profiles : String} (unmet : scope.unmetProfiles? env = some profiles)
    (enclosing : Defaults) : tour env enclosing scope = [([], .skipped profiles)] := by
  obtain ⟨name, attributes, children, text⟩ := scope
  rw [tour, unmet]

/-- A scope that is entered is met before and after everything in it. -/
theorem tour_of_accepted (accepted : scope.unmetProfiles? env = none) (enclosing : Defaults) :
    tour env enclosing scope =
      (scope.complaints enclosing).map (Prod.mk []) ++ ([], .enter scope) ::
        tourAll env (enclosing.inside scope) 0 scope.children ++ [([], .leave scope)] := by
  obtain ⟨name, attributes, children, text⟩ := scope
  rw [tour, accepted]

theorem tourAll_cons (env : Environment) (defaults : Defaults) (i : Nat) (e : Element)
    (es : List Element) : tourAll env defaults i (e :: es) =
      (childTour env defaults e).map (Prod.map (List.cons i) id) ++
        tourAll env defaults (i + 1) es := by
  rw [tourAll, childTour]

/-- What is met in the children of a scope is met in one of them, under its number. -/
theorem mem_tourAll_iff : (place, entry) ∈ tourAll env defaults i es ↔
    ∃ j e q, es[j]? = some e ∧ place = (i + j) :: q ∧ (q, entry) ∈ childTour env defaults e := by
  induction es generalizing i with
  | nil => simp [tourAll]
  | cons e es ih =>
    rw [tourAll_cons, List.mem_append, ih, List.mem_map]
    constructor
    · rintro (⟨⟨q, entry'⟩, hq, heq⟩ | ⟨j, e', q, he', rfl, hq⟩)
      · obtain ⟨rfl, rfl⟩ := Prod.mk.inj heq
        exact ⟨0, e, q, rfl, rfl, hq⟩
      · exact ⟨j + 1, e', q, he', by rw [Nat.add_right_comm, Nat.add_assoc], hq⟩
    · rintro ⟨_ | j, e', q, he', rfl, hq⟩
      · obtain rfl := Option.some.inj he'
        exact .inl ⟨(q, entry), hq, rfl⟩
      · exact .inr ⟨j, e', q, he', by rw [Nat.add_right_comm, Nat.add_assoc], hq⟩

/-- Without places the tour of the children is their outline, if that is so of each child. -/
theorem map_snd_tourAll
    (h : ∀ e ∈ es, (tour env defaults e).map Prod.snd = outline env defaults e) (i : Nat) :
    (tourAll env defaults i es).map Prod.snd = outlineAll env defaults es := by
  induction es generalizing i with
  | nil => simp [tourAll, outlineAll]
  | cons e es ih =>
    obtain ⟨he, hes⟩ := List.forall_mem_cons.mp h
    rw [tourAll_cons, outlineAll, List.map_append, ih hes, childTour]
    congr 1
    cases hkind : e.kind <;> simp [said?, hkind, ← he, Function.comp_def]

/-- Without places the tour of a scope is its outline. -/
theorem map_snd_tour (env : Environment) (enclosing : Defaults) (scope : Element) :
    (tour env enclosing scope).map Prod.snd = outline env enclosing scope := by
  induction scope using children_induction generalizing enclosing with
  | step scope ih =>
    cases hunmet : scope.unmetProfiles? env with
    | some profiles => rw [tour_of_unmet hunmet, outline_of_unmet hunmet, List.map_singleton]
    | none =>
      have hchildren := map_snd_tourAll
        (fun e he => ih e he (enclosing.inside scope)) 0
      simp [tour_of_accepted hunmet, outline_of_accepted hunmet, hchildren, Function.comp_def]

/-! ## What is listed -/

/-- A scope complains of defaults that are invalid and of nothing else. -/
theorem mem_complaints_iff :
    entry ∈ scope.complaints enclosing ↔
      ∃ cause, Defaults.derive scope enclosing = .error cause ∧ entry = .invalidDefaults cause := by
  rw [complaints]
  cases Defaults.derive scope enclosing <;> simp

theorem takesNumber_of_said? (h : e.said? defaults = some entry) :
    entry.takesNumber = true := by
  rw [said?] at h
  cases hkind : e.kind <;> simp only [hkind, Option.some.injEq, reduceCtorEq] at h <;>
    subst h <;> rfl

theorem kind_ne_group_of_said? (h : e.said? defaults = some entry) : e.kind ≠ .group := by
  intro hkind
  simp [said?, hkind] at h

theorem childTour_of_kind_ne (kind : e.kind ≠ .group) (env : Environment) (defaults : Defaults) :
    childTour env defaults e = (e.said? defaults).toList.map (Prod.mk []) := by
  rw [childTour]
  cases hkind : e.kind <;> first | exact absurd hkind kind | rfl

theorem SaysAt.takesNumber (h : SaysAt env enclosing scope place entry) :
    entry.takesNumber = true := by
  induction h with
  | complaint accepted invalid => rfl
  | child accepted child said => exact takesNumber_of_said? said
  | inside accepted child kind said ih => exact ih

/-- At most one thing is said at a place. -/
theorem SaysAt.unique {entry' : OutlineEntry} (h : SaysAt env enclosing scope place entry)
    (h' : SaysAt env enclosing scope place entry') : entry' = entry := by
  induction h with
  | complaint accepted invalid =>
    cases h' with
    | complaint _ invalid' => rw [Except.error.inj (invalid'.symm.trans invalid)]
  | child accepted child said =>
    cases h' with
    | child _ child' said' =>
      obtain rfl := Option.some.inj (child'.symm.trans child)
      exact Option.some.inj (said'.symm.trans said)
    | inside _ child' kind' _ =>
      obtain rfl := Option.some.inj (child'.symm.trans child)
      exact absurd kind' (kind_ne_group_of_said? said)
  | inside accepted child kind said ih =>
    cases h' with
    | child _ child' said' =>
      obtain rfl := Option.some.inj (child'.symm.trans child)
      exact absurd kind (kind_ne_group_of_said? said')
    | inside _ child' _ said' =>
      obtain rfl := Option.some.inj (child'.symm.trans child)
      exact ih said'

/-- An entry with a number on the tour is said at its place. -/
theorem saysAt_of_mem_tour (h : (place, entry) ∈ tour env enclosing scope)
    (numbered : entry.takesNumber = true) : SaysAt env enclosing scope place entry := by
  induction scope using children_induction generalizing enclosing place with
  | step scope ih =>
    cases hunmet : scope.unmetProfiles? env with
    | some profiles =>
      rw [tour_of_unmet hunmet, List.mem_singleton] at h
      obtain ⟨-, rfl⟩ := Prod.mk.inj h
      cases numbered
    | none =>
      rw [tour_of_accepted hunmet] at h
      simp only [List.mem_append, List.mem_cons, List.mem_map, List.not_mem_nil, or_false,
        Prod.mk.injEq] at h
      rcases h with (⟨entry', hcomplaint, rfl, rfl⟩ | ⟨-, rfl⟩ | hchild) | ⟨-, rfl⟩
      · obtain ⟨cause, hinvalid, rfl⟩ := mem_complaints_iff.mp hcomplaint
        exact .complaint hunmet hinvalid
      · cases numbered
      · obtain ⟨j, e, q, hj, rfl, hq⟩ := mem_tourAll_iff.mp hchild
        rw [Nat.zero_add]
        by_cases hkind : e.kind = .group
        · rw [childTour, hkind] at hq
          exact .inside hunmet hj hkind (ih e (List.mem_of_getElem? hj) hq)
        · rw [childTour_of_kind_ne hkind] at hq
          obtain ⟨entry', hentry, heq⟩ := List.mem_map.mp hq
          obtain ⟨rfl, rfl⟩ := Prod.mk.inj heq
          exact .child hunmet hj (Option.mem_toList.mp hentry)
      · cases numbered

/-- What a child of a scope stands for is listed behind its number. -/
theorem mem_tour_of_child (accepted : scope.unmetProfiles? env = none)
    (child : scope.children[i]? = some e)
    (h : (place, entry) ∈ childTour env (enclosing.inside scope) e) :
    (i :: place, entry) ∈ tour env enclosing scope := by
  have hchildren : (i :: place, entry) ∈
      tourAll env (enclosing.inside scope) 0 scope.children :=
    mem_tourAll_iff.mpr ⟨i, e, place, child, by rw [Nat.zero_add], h⟩
  rw [tour_of_accepted accepted]
  simp [hchildren]

/-- What is said at a place is on the tour, with this place. -/
theorem SaysAt.mem_tour (h : SaysAt env enclosing scope place entry) :
    (place, entry) ∈ tour env enclosing scope := by
  induction h with
  | complaint accepted invalid =>
    rw [tour_of_accepted accepted]
    simp [mem_complaints_iff.mpr ⟨_, invalid, rfl⟩]
  | child accepted child said =>
    refine mem_tour_of_child accepted child ?_
    rw [childTour_of_kind_ne (kind_ne_group_of_said? said), said]
    exact List.mem_singleton_self _
  | inside accepted child kind said ih =>
    refine mem_tour_of_child accepted child ?_
    rw [childTour, kind]
    exact ih

/-- A tour lists what is said, besides the marks of scopes. -/
theorem mem_tour_iff : (place, entry) ∈ tour env enclosing scope ∧ entry.takesNumber = true ↔
    SaysAt env enclosing scope place entry :=
  ⟨fun h => saysAt_of_mem_tour h.1 h.2, fun h => ⟨h.mem_tour, h.takesNumber⟩⟩

/-! ## Document order -/

/-- Entries in document order, without the marks of scopes. -/
def InOrder (entries : List (List Nat × OutlineEntry)) : Prop :=
  (entries.filter (·.2.takesNumber)).Pairwise fun x y => x.1 < y.1

/-- Entries in order can be put behind others if every place of theirs comes later. -/
theorem inOrder_append {xs ys : List (List Nat × OutlineEntry)} :
    InOrder (xs ++ ys) ↔ InOrder xs ∧ InOrder ys ∧ ∀ x ∈ xs, x.2.takesNumber = true →
      ∀ y ∈ ys, y.2.takesNumber = true → x.1 < y.1 := by
  simp [InOrder, List.filter_append, List.pairwise_append, List.mem_filter]

theorem InOrder.push {entries : List (List Nat × OutlineEntry)} (h : InOrder entries) (i : Nat) :
    InOrder (entries.map (Prod.map (List.cons i) id)) := by
  rw [InOrder, List.filter_map]
  exact List.pairwise_map.mpr
    (h.imp fun hlt => List.cons_lt_cons_iff.mpr (.inr ⟨rfl, hlt⟩))

theorem inOrder_singleton (q : List Nat × OutlineEntry) : InOrder [q] := by
  rw [InOrder, List.filter_singleton]
  cases q.2.takesNumber <;> simp

/-- The tour of the children goes in document order if the tour of each of them does. -/
theorem inOrder_tourAll (h : ∀ e ∈ es, InOrder (tour env defaults e)) (i : Nat) :
    InOrder (tourAll env defaults i es) := by
  induction es generalizing i with
  | nil => simp [tourAll, InOrder]
  | cons e es ih =>
    obtain ⟨he, hes⟩ := List.forall_mem_cons.mp h
    have hfirst : InOrder (childTour env defaults e) := by
      by_cases hkind : e.kind = .group
      · rwa [childTour, hkind]
      · rw [childTour_of_kind_ne hkind]
        cases e.said? defaults with
        | none => simp [InOrder]
        | some entry => exact inOrder_singleton _
    rw [tourAll_cons, inOrder_append]
    refine ⟨hfirst.push i, ih hes (i + 1), ?_⟩
    rintro x hx - ⟨place, entry⟩ hy -
    obtain ⟨q, -, rfl⟩ := List.mem_map.mp hx
    obtain ⟨j, e', q', -, rfl, -⟩ := mem_tourAll_iff.mp hy
    exact List.cons_lt_cons_iff.mpr (.inl (by omega))

/-- The tour goes in document order. -/
theorem inOrder_tour (env : Environment) (enclosing : Defaults) (scope : Element) :
    InOrder (tour env enclosing scope) := by
  induction scope using children_induction generalizing enclosing with
  | step scope ih =>
    cases hunmet : scope.unmetProfiles? env with
    | some profiles =>
      rw [tour_of_unmet hunmet]
      exact inOrder_singleton _
    | none =>
      have hchildren := inOrder_tourAll
        (fun e he => ih e he (enclosing.inside scope)) 0
      have hcomplaints : InOrder ((scope.complaints enclosing).map (Prod.mk [])) := by
        rw [complaints]
        cases Defaults.derive scope enclosing with
        | ok defaults => simp [InOrder]
        | error cause => exact inOrder_singleton _
      rw [tour_of_accepted hunmet, inOrder_append, inOrder_append, ← List.singleton_append,
        inOrder_append]
      refine ⟨⟨hcomplaints, ⟨inOrder_singleton _, hchildren, ?_⟩, ?_⟩, inOrder_singleton _, ?_⟩
      · intro x hx numbered
        rw [List.mem_singleton.mp hx] at numbered
        cases numbered
      · rintro x hx - ⟨place, entry⟩ hy numbered
        obtain ⟨complaint, -, rfl⟩ := List.mem_map.mp hx
        rcases List.mem_append.mp hy with henter | hchild
        · rw [List.mem_singleton.mp henter] at numbered
          cases numbered
        · obtain ⟨j, e, q, -, rfl, -⟩ := mem_tourAll_iff.mp hchild
          exact List.nil_lt_cons _ _
      · intro x _ _ y hy numbered
        rw [List.mem_singleton.mp hy] at numbered
        cases numbered

/-! ## Numbers -/

/-- The places in a document that take a number, in document order, and whether there is a scope
with invalid defaults. -/
def numbering (env : Environment) (root : Element) : List (List Nat × Bool) :=
  ((tour env {} root).filter (·.2.takesNumber)).map fun q => (q.1, q.2.isComplaint)

/-- The numbered places are those where something is said. -/
theorem mem_numbering_iff {root : Element} {complaint : Bool} :
    (place, complaint) ∈ numbering env root ↔
      ∃ entry, SaysAt env {} root place entry ∧ entry.isComplaint = complaint := by
  rw [numbering, List.mem_map]
  constructor
  · rintro ⟨⟨place', entry⟩, hmem, heq⟩
    obtain ⟨rfl, rfl⟩ := Prod.mk.inj heq
    exact ⟨entry, mem_tour_iff.mp (List.mem_filter.mp hmem), rfl⟩
  · rintro ⟨entry, hsaid, rfl⟩
    exact ⟨(place, entry), List.mem_filter.mpr (mem_tour_iff.mpr hsaid), rfl⟩

theorem pairwise_numbering (env : Environment) (root : Element) :
    (numbering env root).Pairwise fun x y => x.1 < y.1 :=
  List.pairwise_map.mpr (inOrder_tour env {} root)

/-- An entry has the number of those that take one before it. -/
theorem getElem?_numbering {root : Element} {before after : List (List Nat × OutlineEntry)}
    (h : tour env {} root = before ++ (place, entry) :: after)
    (numbered : entry.takesNumber = true) :
    (numbering env root)[(before.map Prod.snd).countP (·.takesNumber)]? =
      some (place, entry.isComplaint) := by
  have hlength : (before.map Prod.snd).countP (·.takesNumber) =
      ((before.filter (·.2.takesNumber)).map fun q => (q.1, q.2.isComplaint)).length := by
    rw [List.countP_map, List.length_map, List.countP_eq_length_filter]
    rfl
  rw [numbering, h, List.filter_append, List.filter_cons, if_pos numbered, List.map_append, hlength,
    List.getElem?_append_right (Nat.le_refl _), Nat.sub_self]
  rfl

/-- Of the places that come before, each is a declaration or a scope that complains. -/
theorem countP_add_countP_numbering {root : Element} {k : Nat} {x : List Nat × Bool}
    (h : (numbering env root)[k]? = some x) :
    ((numbering env root).take k).countP (·.2 = false) +
      ((numbering env root).take k).countP (·.2 = true) = k := by
  have hlength : ((numbering env root).take k).length = k := by
    rw [List.length_take, Nat.min_eq_left (List.getElem?_eq_some_iff.mp h).1.le]
  have htotal := List.length_eq_countP_add_countP (l := (numbering env root).take k) (·.2 = false)
  rw [hlength] at htotal
  simpa using htotal.symm

/-- What stands before a place that has a number are those with a smaller number. -/
theorem mem_take_numbering_iff {root : Element} {k : Nat} {here : Bool} {x : List Nat × Bool}
    (h : (numbering env root)[k]? = some (place, here)) :
    x ∈ (numbering env root).take k ↔ x ∈ numbering env root ∧ x.1 < place := by
  obtain ⟨hk, hplace⟩ := List.getElem?_eq_some_iff.mp h
  have horder := List.pairwise_iff_getElem.mp (pairwise_numbering env root)
  rw [List.mem_take_iff_getElem]
  constructor
  · rintro ⟨i, hi, rfl⟩
    have hlt := horder i k (by omega) hk (by omega)
    rw [hplace] at hlt
    exact ⟨List.getElem_mem _, hlt⟩
  · rintro ⟨hmem, hbefore⟩
    obtain ⟨i, hi, rfl⟩ := List.mem_iff_getElem.mp hmem
    have hsmaller : i < k := by
      rcases Nat.lt_trichotomy i k with hlt | rfl | hgt
      · exact hlt
      · rw [hplace] at hbefore
        exact absurd hbefore (lt_irrefl place)
      · have hafter := horder k i hk hi hgt
        rw [hplace] at hafter
        exact absurd (hbefore.trans hafter) (lt_irrefl _)
    exact ⟨i, by omega, rfl⟩

/-- What stands before a place that has a number can be counted among those with a smaller one. -/
theorem ncard_before {root : Element} {k : Nat} {here : Bool}
    (h : (numbering env root)[k]? = some (place, here)) (complaint : Bool) :
    {q | (q, complaint) ∈ numbering env root ∧ q < place}.Finite ∧
      {q | (q, complaint) ∈ numbering env root ∧ q < place}.ncard =
        ((numbering env root).take k).countP (·.2 = complaint) := by
  have hset : {q | (q, complaint) ∈ numbering env root ∧ q < place} =
      ((((numbering env root).take k).filter (·.2 = complaint)).map Prod.fst).toFinset := by
    ext q
    rw [Set.mem_ofPred_eq, ← mem_take_numbering_iff h]
    simp
  have hnodup : ((((numbering env root).take k).filter (·.2 = complaint)).map Prod.fst).Nodup :=
    List.pairwise_map.mpr (((pairwise_numbering env root).sublist
      (List.filter_sublist.trans (List.take_sublist _ _))).imp ne_of_lt)
  rw [hset, Set.ncard_coe_finset, List.toFinset_card_of_nodup hnodup, List.length_map,
    List.countP_eq_length_filter]
  exact ⟨Finset.finite_toSet _, rfl⟩

/-- How many declarations stand before a numbered place. -/
theorem ncard_declared_before {root : Element} {k : Nat} {here : Bool}
    (h : (numbering env root)[k]? = some (place, here)) :
    {q | DeclaresAt env root q ∧ q < place}.ncard =
      ((numbering env root).take k).countP (·.2 = false) := by
  have hcount := (ncard_before h false).2
  simp only [mem_numbering_iff] at hcount
  exact hcount

/-- How many scopes with invalid defaults stand before a numbered place. -/
theorem ncard_complained_before {root : Element} {k : Nat} {here : Bool}
    (h : (numbering env root)[k]? = some (place, here)) :
    {q | ComplainsAt env root q ∧ q < place}.Finite ∧
      {q | ComplainsAt env root q ∧ q < place}.ncard =
        ((numbering env root).take k).countP (·.2 = true) := by
  have hcount := ncard_before h true
  simp only [mem_numbering_iff] at hcount
  exact hcount

end Element

end Blueprint
