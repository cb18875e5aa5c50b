import Blueprint.Proofs.Names.Sound

/-!
# Taking back what was written

`Names.restore` puts back the entries of some keys one after the other. A key that is still there
keeps its place, and one that was erased in the meantime comes back at the end. A declaration
erases at most one alias, the one with the name that it defines, and all aliases that it adds come
behind those that were there (`Grown`). So the aliases that a restoration leaves are the earlier
ones with that one alias moved to the end (`foldl_putBack_of_grown`).

The entries are the same, but `aliasesOf` lists aliases in the order of the table. It is the same
for all names unless an alias of the same target was registered after the one that was moved
(`HasYounger`, `aliasesOf_moveAliasLast_iff`).
-/

namespace Blueprint

namespace Table

universe u v

variable {κ : Type u} {α : Type v} [DecidableEq κ] {t earlier : Table κ α} {k : κ} {a : α}

/-! ## A key at the end -/

/-- The table with a key, if it is there, behind all others. -/
def moveLast (t : Table κ α) (k : κ) : Table κ α :=
  match t.get? k with
  | some a => (t.erase k).insert k a
  | none => t

theorem moveLast_of_get? (h : t.get? k = some a) : t.moveLast k = (t.erase k).insert k a := by
  simp [moveLast, h]

theorem moveLast_of_not_contains (h : t.contains k = false) : t.moveLast k = t := by
  simp [moveLast, get?_eq_none_iff.mpr h]

/-- To move a key changes nothing under any key. -/
@[simp] theorem get?_moveLast (t : Table κ α) (k x : κ) : (t.moveLast k).get? x = t.get? x := by
  cases h : t.get? k with
  | none => rw [moveLast_of_not_contains (get?_eq_none_iff.mp h)]
  | some a =>
    rw [moveLast_of_get? h, get?_insert, get?_erase]
    by_cases hx : x = k
    · simp [hx, h]
    · simp [hx]

theorem keys_moveLast (t : Table κ α) (k : κ) :
    (t.moveLast k).keys = (t.erase k).keys ++ if t.contains k then [k] else [] := by
  cases h : t.get? k with
  | none =>
    have hc := get?_eq_none_iff.mp h
    simp [moveLast_of_not_contains hc, erase_of_not_contains hc, hc]
  | some a =>
    rw [moveLast_of_get? h, keys_insert_of_not_contains (by simp [contains_erase])]
    simp [contains_of_get? h]

/-- The entries behind that of the key move up. -/
theorem exists_entries_moveLast (h : t.get? k = some a) :
    ∃ front back, t.entries = front ++ (k, a) :: back ∧
      (t.moveLast k).entries = front ++ back ++ [(k, a)] := by
  obtain ⟨front, back, he⟩ := List.append_of_mem (mem_entries_iff.mpr h)
  have hn := t.keys_nodup
  simp only [he, List.map_append, List.map_cons, List.nodup_append, List.nodup_cons,
    List.mem_cons, List.mem_map, ne_eq, forall_exists_index, and_imp] at hn
  obtain ⟨-, ⟨hback, -⟩, hfront⟩ := hn
  have hf : front.filter (fun e => ¬e.1 = k) = front := by
    refine List.filter_eq_self.mpr fun e he => ?_
    simpa using hfront _ e he rfl _ (.inl rfl)
  have hb : back.filter (fun e => ¬e.1 = k) = back := by
    refine List.filter_eq_self.mpr fun e he => ?_
    simpa using fun hk => hback ⟨e, he, hk⟩
  refine ⟨front, back, he, ?_⟩
  rw [moveLast_of_get? h, entries_insert_of_not_contains (by simp [contains_erase]),
    entries_erase, he, List.filter_append, hf, List.filter_cons, hb]
  simp

/-! ## Keys put back -/

/-- Gives a key what it had in an earlier table. -/
def putBack (earlier t : Table κ α) (k : κ) : Table κ α :=
  match earlier.get? k with
  | some a => t.insert k a
  | none => t.erase k

theorem get?_putBack (earlier t : Table κ α) (k x : κ) :
    (putBack earlier t k).get? x = if x = k then earlier.get? k else t.get? x := by
  cases h : earlier.get? k <;> simp [putBack, h, get?_insert, get?_erase]

/-- A key that is there keeps its place if it is put back, and is gone if it was not there. -/
theorem keys_putBack (h : earlier.contains k = true → t.contains k = true) :
    (putBack earlier t k).keys = t.keys.filter fun x => earlier.contains x || !decide (x = k) := by
  cases he : earlier.get? k with
  | some a =>
    have hc := contains_of_get? he
    rw [putBack, he, keys_insert_of_contains (h hc), eq_comm, List.filter_eq_self]
    intro x _
    by_cases hx : x = k
    · simp [hx, hc]
    · simp [hx]
  | none =>
    rw [putBack, he, keys_erase]
    refine List.filter_congr fun x _ => ?_
    by_cases hx : x = k
    · simp [hx, get?_eq_none_iff.mp he]
    · simp [hx]

/-- To put keys back gives each what it had, and changes nothing under others. -/
theorem get?_foldl_putBack (earlier : Table κ α) : ∀ (ks : List κ) (t : Table κ α) (x : κ),
    (ks.foldl (putBack earlier) t).get? x = if x ∈ ks then earlier.get? x else t.get? x
  | [], t, x => by simp
  | k :: ks, t, x => by
    rw [List.foldl_cons, get?_foldl_putBack earlier ks, get?_putBack]
    by_cases hx : x = k
    · simp [hx]
    · simp [hx]

/-- Keys that are all there still are put back in their places, and those that were new go away. -/
theorem keys_foldl_putBack : ∀ {ks : List κ} {t : Table κ α},
    (∀ k ∈ ks, earlier.contains k = true → t.contains k = true) →
      (ks.foldl (putBack earlier) t).keys =
        t.keys.filter fun x => earlier.contains x || !decide (x ∈ ks)
  | [], t, h => (List.filter_eq_self.mpr fun x _ => by simp).symm
  | k :: ks, t, h => by
    have hk := keys_putBack (h k List.mem_cons_self)
    have hks : ∀ x ∈ ks, earlier.contains x = true → (putBack earlier t k).contains x = true := by
      intro x hx he
      rw [← mem_keys, hk, List.mem_filter]
      exact ⟨mem_keys.mpr (h x (List.mem_cons_of_mem k hx) he), by simp [he]⟩
    rw [List.foldl_cons, keys_foldl_putBack hks, hk, List.filter_filter]
    refine List.filter_congr fun x _ => ?_
    cases earlier.contains x <;> simp [Bool.and_comm]

end Table

namespace Names

variable {n n' : Names} {name aliasName target : String} {written : List String}
  {earlier before after : Table String String}

/-! ## Aliases that were added -/

/-- What pointing some aliases at a name does to a table without that name : what is new stands at
the end, and all other keys keep what they had. -/
structure Grown (name : String) (written : List String) (before after : Table String String) :
    Prop where
  keys : ∃ added, after.keys = before.keys ++ added ∧ added ⊆ written
  get? : ∀ key, key ∉ written → after.get? key = before.get? key
  absent : after.contains name = false

theorem grown_refl (h : before.contains name = false) (written : List String) :
    Grown name written before before :=
  ⟨⟨[], by simp⟩, fun _ _ => rfl, h⟩

/-- One more alias was pointed at the name. -/
theorem Grown.pointed (hg : Grown name written before n.aliases) (hw : aliasName ∈ written)
    (hp : Pointed n name aliasName n') : Grown name written before n'.aliases := by
  obtain ⟨⟨added, hk, hsub⟩, hget, habs⟩ := hg
  cases hp with
  | dropped self known => simp [← self, known] at habs
  | pointed other _ _ _ _ =>
    have hne : name ≠ aliasName := fun h => other h.symm
    refine ⟨?_, fun key hkey => ?_, by simp [Table.contains_insert, habs, hne]⟩
    · rw [Table.keys_insert]
      split
      · exact ⟨added, hk, hsub⟩
      · exact ⟨added ++ [aliasName], by simp [hk],
          List.append_subset.mpr ⟨hsub, List.cons_subset.mpr ⟨hw, List.nil_subset _⟩⟩⟩
    · have hka : key ≠ aliasName := fun h => hkey (h ▸ hw)
      rw [Table.get?_insert_of_ne _ hka, hget key hkey]

/-- Putting back the name and all that was written leaves the earlier aliases, with the name as
the last of them if it was one. -/
theorem foldl_putBack_of_grown (hg : Grown name written (earlier.erase name) after) :
    (name :: written).foldl (Table.putBack earlier) after = earlier.moveLast name := by
  obtain ⟨⟨added, hk, hsub⟩, hget, habs⟩ := hg
  have hkey : (Table.putBack earlier after name).keys =
      (earlier.erase name).keys ++ added ++ if earlier.contains name then [name] else [] := by
    cases h : earlier.get? name with
    | some t =>
      rw [Table.putBack, h, Table.keys_insert_of_not_contains habs, hk]
      simp [Table.contains_of_get? h]
    | none =>
      rw [Table.putBack, h, Table.erase_of_not_contains habs, hk]
      simp [Table.get?_eq_none_iff.mp h]
  refine Table.ext_get? ?_ fun x => ?_
  -- The keys that were added come with no earlier entry, so that putting them back erases them.
  · have there : ∀ k ∈ written, earlier.contains k = true →
        (Table.putBack earlier after name).contains k = true := by
      intro k _ hek
      rw [← Table.mem_keys, hkey]
      by_cases hkn : k = name
      · simp [← hkn, hek]
      · simp [Table.contains_erase, hkn, hek]
    have kept : ∀ k ∈ (earlier.erase name).keys, earlier.contains k = true := by
      intro k hke
      simp only [Table.mem_keys, Table.contains_erase, Bool.and_eq_true] at hke
      exact hke.2
    have new : ∀ k ∈ added, earlier.contains k = false := by
      intro k hka
      have hnodup := after.nodup_keys
      rw [hk, List.nodup_append] at hnodup
      rw [← Bool.not_eq_true]
      intro he
      have hkn : k ≠ name := by
        rintro rfl
        have : after.contains k = true := Table.mem_keys.mp (by simp [hk, hka])
        simp [habs] at this
      refine hnodup.2.2 k ?_ k hka rfl
      simp [Table.contains_erase, hkn, he]
    rw [List.foldl_cons, Table.keys_foldl_putBack there, hkey, Table.keys_moveLast,
      List.filter_append, List.filter_append]
    congr 1
    · rw [List.filter_eq_self.mpr fun k hke => by simp [kept k hke],
        List.filter_eq_nil_iff.mpr fun k hka => by simp [new k hka, hsub hka], List.append_nil]
    · cases h : earlier.contains name <;> simp [h]
  · rw [Table.get?_foldl_putBack, Table.get?_moveLast]
    split
    · rfl
    · rename_i hx
      simp only [List.mem_cons, not_or] at hx
      rw [hget x hx.2, Table.get?_erase, if_neg hx.1]

/-- The tables with the alias, if it is one, behind all other aliases. -/
def moveAliasLast (n : Names) (name : String) : Names :=
  { n with aliases := n.aliases.moveLast name }

theorem moveAliasLast_of_not_contains (h : n.aliases.contains name = false) :
    n.moveAliasLast name = n := by
  rw [moveAliasLast, Table.moveLast_of_not_contains h]

/-- A definition that is taken back leaves the definitions that were there before. -/
theorem definitions_restore {d : Definition} (hd : n'.definitions = n.definitions.insert name d)
    (written : List String) : (restore n name written n').definitions = n.definitions := by
  rw [restore, hd]
  cases h : n.definitions.get? name with
  | some old => exact (Table.insert_insert _ _ _ _).trans (Table.insert_of_get? h)
  | none => exact Table.erase_insert_of_not_contains (Table.get?_eq_none_iff.mp h) d

/-- A definition of the name and aliases that were pointed at it are taken back. -/
theorem restore_of_grown {d : Definition} (hd : n'.definitions = n.definitions.insert name d)
    (hg : Grown name written (n.aliases.erase name) n'.aliases) :
    restore n name written n' = n.moveAliasLast name := by
  have definitions := definitions_restore hd written
  have aliases : (restore n name written n').aliases = n.aliases.moveLast name := by
    rw [← foldl_putBack_of_grown hg]
    refine congrArg (fun f => List.foldl f n'.aliases (name :: written)) ?_
    funext table key
    cases h : n.aliases.get? key <;> simp only [Table.putBack, h]
  exact congr (congrArg Names.mk definitions) aliases

/-! ## The order of the aliases of a name -/

/-- An alias of the same target was registered after this one. -/
def HasYounger (n : Names) (name : String) : Prop :=
  ∃ target other, n.aliases.get? name = some target ∧ n.aliases.get? other = some target ∧
    [name, other].Sublist n.aliases.keys

/-- The search for aliases sees nothing of a table but what points at a name. -/
theorem gatherAliases_congr (hp : ∀ found target,
    n'.pointingAt name found target = n.pointingAt name found target) :
    ∀ (steps : Nat) (pending found : List String),
      n'.gatherAliases name steps pending found = n.gatherAliases name steps pending found
  | 0, _, _ => rfl
  | _ + 1, [], _ => rfl
  | steps + 1, target :: pending, found => by
    simp only [gatherAliases, hp]
    exact gatherAliases_congr hp steps _ _

/-- What the search has found stays in front. -/
theorem prefix_gatherAliases : ∀ (steps : Nat) (pending found : List String),
    found <+: n.gatherAliases name steps pending found
  | 0, _, _ => List.prefix_rfl
  | _ + 1, [], _ => List.prefix_rfl
  | steps + 1, _ :: _, _ =>
    (List.prefix_append _ _).trans (prefix_gatherAliases steps _ _)

/-- What points at the name itself is listed before all else. -/
theorem pointingAt_prefix_aliasesOf (n : Names) (name : String) :
    n.pointingAt name [] name <+: n.aliasesOf name :=
  prefix_gatherAliases n.aliases.size _ _

/-- Without a younger alias of the same target no list of aliases changes. -/
theorem aliasesOf_moveAliasLast (h : ¬n.HasYounger name) (m : String) :
    (n.moveAliasLast name).aliasesOf m = n.aliasesOf m := by
  cases hn : n.aliases.get? name with
  | none =>
    rw [moveAliasLast_of_not_contains (Table.get?_eq_none_iff.mp hn)]
  | some aimed =>
    obtain ⟨front, back, he, he'⟩ := Table.exists_entries_moveLast hn
    have hback : ∀ e ∈ back, e.2 ≠ aimed := by
      intro e hb hea
      refine h ⟨aimed, e.1, hn, Table.mem_entries_iff.mp ?_, ?_⟩
      · simp [he, ← hea, hb]
      · simp only [Table.keys, he, List.map_append, List.map_cons]
        refine List.Sublist.trans ?_ (List.sublist_append_right _ _)
        exact (List.singleton_sublist.mpr (List.mem_map_of_mem hb)).cons_cons name
    have hp : ∀ found target,
        (n.moveAliasLast name).pointingAt m found target = n.pointingAt m found target := by
      intro found target
      simp only [pointingAt, moveAliasLast, he, he', List.filter_append, List.filter_cons]
      by_cases ht : aimed = target
      · have none_behind :
            back.filter (fun e => e.2 = target ∧ ¬found.contains e.1 ∧ ¬e.1 = m) = [] :=
          List.filter_eq_nil_iff.mpr fun e hb => by simp [ht ▸ hback e hb]
        rw [none_behind]
        split <;> simp
      · simp [ht]
    have hs : (n.moveAliasLast name).aliases.size = n.aliases.size := by
      simp only [moveAliasLast, Table.size, he, he', List.length_append, List.length_cons,
        List.length_nil]
      omega
    rw [aliasesOf, aliasesOf, hs, gatherAliases_congr hp]

/-- A younger alias of the same target stands behind the alias. -/
theorem exists_mem_back (h : n.HasYounger name) :
    ∃ target front back other, n.aliases.get? name = some target ∧
      n.aliases.entries = front ++ (name, target) :: back ∧
      (n.aliases.moveLast name).entries = front ++ back ++ [(name, target)] ∧
      (other, target) ∈ back := by
  obtain ⟨target, other, hname, hother, hsub⟩ := h
  obtain ⟨front, back, he, he'⟩ := Table.exists_entries_moveLast hname
  have hnodup := n.aliases.nodup_keys
  rw [Table.keys, he, List.map_append, List.map_cons] at hsub hnodup
  obtain ⟨first, rest, hcut, hfirst, hrest⟩ := List.sublist_append_iff.mp hsub
  cases first with
  | cons x first =>
    obtain ⟨rfl, -⟩ := List.cons.inj hcut
    have hx := hfirst.subset List.mem_cons_self
    exact absurd rfl ((List.nodup_append.mp hnodup).2.2 _ hx _ List.mem_cons_self)
  | nil =>
    rw [List.nil_append] at hcut
    rw [← hcut, List.cons_sublist_cons, List.singleton_sublist] at hrest
    obtain ⟨e, hb, rfl⟩ := List.mem_map.mp hrest
    have hg : n.aliases.get? e.1 = some e.2 := Table.mem_entries_iff.mp (by simp [he, hb])
    have ht := Option.some.inj (hg.symm.trans hother)
    exact ⟨target, front, back, e.1, hname, he, he', ht ▸ hb⟩

/-- Behind a younger alias of the same target the alias is listed later than before. -/
theorem aliasesOf_moveAliasLast_ne (hs : n.Sound) (h : n.HasYounger name) :
    ∃ m, (n.moveAliasLast name).aliasesOf m ≠ n.aliasesOf m := by
  obtain ⟨target, front, back, other, hname, he, he', hb⟩ := exists_mem_back h
  refine ⟨target, fun heq => ?_⟩
  let listed (e : String × String) : Bool :=
    e.2 = target ∧ ¬([] : List String).contains e.1 ∧ ¬e.1 = target
  have points : ∀ {x}, n.aliases.get? x = some target → listed (x, target) = true := by
    intro x hx
    have : x ≠ target := fun h => hs.acyclic x (.single (h ▸ hx))
    simp [listed, this]
  have hbefore : n.pointingAt target [] target =
      ((front ++ (name, target) :: back).filter listed).map Prod.fst := by
    rw [pointingAt, he]
  have hafter : (n.moveAliasLast name).pointingAt target [] target =
      ((front ++ back ++ [(name, target)]).filter listed).map Prod.fst := by
    rw [pointingAt, moveAliasLast, he']
  simp only [List.filter_append, List.filter_cons, points hname, if_true, List.map_append,
    List.map_cons, List.filter_nil, List.append_assoc, List.map_nil] at hbefore hafter
  -- Both are what the same list of aliases begins with, and they are of the same length.
  have hp := hafter ▸ heq ▸ (n.moveAliasLast name).pointingAt_prefix_aliasesOf target
  have hp' := hbefore ▸ n.pointingAt_prefix_aliasesOf target
  have hsame := (List.prefix_of_prefix_length_le hp hp' (by simp)).eq_of_length (by simp)
  have hturn := List.append_cancel_left hsame
  have hother : other ∈ (back.filter listed).map Prod.fst := by
    refine List.mem_map_of_mem (List.mem_filter.mpr ⟨hb, points ?_⟩)
    exact Table.mem_entries_iff.mp (by simp [he, hb])
  cases hlate : (back.filter listed).map Prod.fst with
  | nil => simp [hlate] at hother
  | cons first late =>
    rw [hlate, List.cons_append] at hturn
    have hfirst : first ∈ back.map Prod.fst :=
      (List.filter_sublist.map Prod.fst).subset (hlate ▸ List.mem_cons_self)
    have hnodup := n.aliases.nodup_keys
    rw [Table.keys, he, List.map_append, List.map_cons] at hnodup
    rw [(List.cons.inj hturn).1] at hfirst
    exact (List.nodup_cons.mp (List.nodup_append.mp hnodup).2.1).1 hfirst

/-- An alias can be moved to the end without a trace in the lists of aliases just if there is no
younger one of its target. -/
theorem aliasesOf_moveAliasLast_iff (hn : n.Sound) (name : String) :
    (∀ m, (n.moveAliasLast name).aliasesOf m = n.aliasesOf m) ↔ ¬n.HasYounger name := by
  refine ⟨fun h hy => ?_, fun h m => aliasesOf_moveAliasLast h m⟩
  obtain ⟨m, hm⟩ := aliasesOf_moveAliasLast_ne hn hy
  exact hm (h m)

end Names

end Blueprint
