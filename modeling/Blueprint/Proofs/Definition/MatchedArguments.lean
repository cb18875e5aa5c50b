import Blueprint.Proofs.Definition.Overlay
import Mathlib.Data.List.Induction

/-!
# Arguments that are matched

An argument without a position is matched by its `Slot` : the hint that it carries, or else its
value. The arguments that are `Built`, by adding one after the other and by putting such arguments
over each other, form a table with one argument for each slot (`Built.exists_tabulated`). To add an
argument is to write it into that table, and to put arguments over others is to write all of them.

So what is known of tables holds of these arguments : what one table leaves of another
(`values_insertAll`), and that it makes no difference in which order three of them are put over each
other (`insertAll_assoc`). With positions it is the same (`overlay_of_built`).
-/

namespace Blueprint

universe u v

/-! ## Writing a table into another -/

namespace Table

variable {κ : Type u} {α : Type v} [DecidableEq κ]

theorem values_eq_filterMap (t : Table κ α) : t.values = t.keys.filterMap t.get? := by
  rw [values, keys, List.filterMap_map, ← List.filterMap_eq_map]
  refine List.filterMap_congr fun e he => ?_
  exact (mem_entries_iff.mp (show (e.1, e.2) ∈ t.entries from he)).symm

theorem contains_insertAll (t s : Table κ α) (k : κ) :
    (t.insertAll s).contains k = (s.contains k || t.contains k) := by
  simp only [← isSome_get?, get?_insertAll, Option.isSome_or]

/-- The keys that are new come behind those that are there. -/
theorem keys_insertAll (t s : Table κ α) :
    (t.insertAll s).keys = t.keys ++ s.keys.filter fun k => !t.contains k := by
  have written : ∀ (entries : List (κ × α)) (t : Table κ α), (entries.map Prod.fst).Nodup →
      (entries.foldl (fun t e => t.insert e.1 e.2) t).keys =
        t.keys ++ (entries.map Prod.fst).filter fun k => !t.contains k := by
    intro entries
    induction entries with
    | nil => simp
    | cons e entries ih =>
      intro t hnodup
      obtain ⟨hnew, hnodup⟩ := List.nodup_cons.mp hnodup
      have hrest : (entries.map Prod.fst).filter (fun k => !(t.insert e.1 e.2).contains k) =
          (entries.map Prod.fst).filter fun k => !t.contains k := by
        refine List.filter_congr fun k hk => ?_
        have hne : k ≠ e.1 := fun h => hnew (h ▸ hk)
        simp [contains_insert, hne]
      rw [List.foldl_cons, ih _ hnodup, hrest, List.map_cons, List.filter_cons, keys_insert]
      cases t.contains e.1 <;> simp
  exact written s.entries t s.keys_nodup

/-- Every value is replaced by the one that is written under its key, and those under new keys come
behind. -/
theorem values_insertAll (t s : Table κ α) : (t.insertAll s).values =
    t.entries.map (fun e => (s.get? e.1).getD e.2) ++
      (s.entries.filter fun e => !t.contains e.1).map Prod.snd := by
  rw [values_eq_filterMap, keys_insertAll, List.filterMap_append]
  congr 1
  · rw [keys, List.filterMap_map, ← List.filterMap_eq_map]
    refine List.filterMap_congr fun e he => ?_
    have hold := mem_entries_iff.mp (show (e.1, e.2) ∈ t.entries from he)
    simp only [Function.comp_apply, get?_insertAll, hold]
    cases s.get? e.1 <;> rfl
  · rw [keys, List.filter_map, List.filterMap_map, ← List.filterMap_eq_map]
    refine List.filterMap_congr fun e he => ?_
    have hnew := mem_entries_iff.mp (show (e.1, e.2) ∈ s.entries from (List.mem_filter.mp he).1)
    simp [get?_insertAll, hnew]

theorem insertAll_assoc (t s r : Table κ α) :
    (t.insertAll s).insertAll r = t.insertAll (s.insertAll r) := by
  refine ext_get? ?_ fun k => ?_
  · simp only [keys_insertAll, contains_insertAll, List.filter_append, List.filter_filter,
      List.append_assoc, Bool.not_or, Bool.and_comm]
  · simp only [get?_insertAll, Option.or_assoc]

end Table

/-! ## Slots -/

/-- What an argument without a position is matched by. -/
inductive Slot where
  | hint (typeName name : Option String)
  /-- Without a hint an argument is the same as another just if their values are equal. -/
  | value (v : Value)
deriving DecidableEq

namespace Argument

variable {a b : Argument}

/-- What the argument is matched by. -/
def slot (a : Argument) : Slot := if a.hasHint then .hint a.typeName a.name else .value a.value

/-- An argument without a hint is its value. -/
theorem eq_ofValue_of_hasHint (h : a.hasHint = false) : a = .ofValue a.value := by
  simp only [hasHint, Bool.or_eq_false_iff, Option.isSome_eq_false_iff,
    Option.isNone_iff_eq_none] at h
  obtain ⟨value, typeName, name⟩ := a
  obtain ⟨rfl, rfl⟩ := h
  rfl

theorem hasHint_of_sameHint (h : a.sameHint b = true) : a.hasHint = true ∧ b.hasHint = true := by
  simp only [sameHint, Bool.and_eq_true, beq_iff_eq] at h
  obtain ⟨⟨ha, htype⟩, hname⟩ := h
  exact ⟨ha, by rwa [hasHint, htype, hname] at ha⟩

/-- Two arguments have one slot if they carry the same hint, or are equal. -/
theorem slot_eq_iff : a.slot = b.slot ↔ a.sameHint b = true ∨ a = b := by
  constructor
  · intro h
    simp only [slot] at h
    split at h <;> split at h
    · rename_i ha _
      obtain ⟨htype, hname⟩ := Slot.hint.inj h
      exact .inl (by simp [sameHint, ha, htype, hname])
    · cases h
    · cases h
    · rename_i ha hb
      rw [eq_ofValue_of_hasHint (eq_false_of_ne_true ha),
        eq_ofValue_of_hasHint (eq_false_of_ne_true hb), Slot.value.inj h]
      exact .inr rfl
  · rintro (h | rfl)
    · obtain ⟨ha, hb⟩ := hasHint_of_sameHint h
      simp only [sameHint, Bool.and_eq_true, beq_iff_eq] at h
      rw [slot, slot, if_pos ha, if_pos hb, h.1.2, h.2]
    · rfl

/-- The slot of an argument with a hint is shared by those that carry the same hint. -/
theorem slot_eq_iff_of_hasHint (h : b.hasHint = true) : a.slot = b.slot ↔ a.sameHint b = true := by
  rw [slot_eq_iff, or_iff_left_of_imp]
  rintro rfl
  simp [sameHint, h]

/-- The slot of an argument without a hint is shared by no other. -/
theorem slot_eq_iff_of_bare (h : b.hasHint = false) : a.slot = b.slot ↔ a = b := by
  rw [slot_eq_iff, or_iff_right]
  intro hsame
  rw [(hasHint_of_sameHint hsame).2] at h
  cases h

end Argument

namespace Arguments

variable {args c p g : Arguments} {a b : Argument} {s t : Table Slot Argument}

/-- The arguments without a position are the values of a table, each under its slot. -/
def Tabulated (args : Arguments) (t : Table Slot Argument) : Prop :=
  t.entries = args.generic.map fun a => (a.slot, a)

namespace Tabulated

theorem entries_eq (h : args.Tabulated t) : t.entries = args.generic.map fun a => (a.slot, a) := h

theorem values_eq (h : args.Tabulated t) : t.values = args.generic := by
  rw [Table.values, h.entries_eq, List.map_map]
  exact List.map_id _

theorem keys_eq (h : args.Tabulated t) : t.keys = args.generic.map Argument.slot := by
  rw [Table.keys, h.entries_eq, List.map_map]
  rfl

theorem get?_eq (h : args.Tabulated t) (k : Slot) :
    t.get? k = args.generic.find? fun a => a.slot = k := by
  rw [Table.get?, h.entries_eq, List.find?_map, Option.map_map]
  exact Option.map_id'

theorem contains_eq (h : args.Tabulated t) (k : Slot) :
    t.contains k = args.generic.any fun a => a.slot = k := by
  rw [Table.contains, h.entries_eq, List.any_map]
  rfl

/-- An argument is there if the table has it under its slot. -/
theorem mem_iff (h : args.Tabulated t) : a ∈ args.generic ↔ t.get? a.slot = some a := by
  rw [← Table.mem_entries_iff, h.entries_eq]
  constructor
  · exact fun ha => List.mem_map_of_mem ha
  · intro ha
    obtain ⟨b, hb, heq⟩ := List.mem_map.mp ha
    exact (Prod.mk.inj heq).2 ▸ hb

theorem generic_eq {args' : Arguments} (h : args.Tabulated t) (h' : args'.Tabulated t) :
    args.generic = args'.generic :=
  h.values_eq.symm.trans h'.values_eq

/-- No argument is there twice, and no two carry the same hint. -/
theorem pairwise (h : args.Tabulated t) :
    args.generic.Pairwise fun a b => a ≠ b ∧ a.sameHint b = false := by
  have hnodup := t.nodup_keys
  rw [h.keys_eq, List.Nodup, List.pairwise_map] at hnodup
  exact hnodup.imp fun hne => ⟨fun heq => hne (Argument.slot_eq_iff.mpr (.inr heq)),
    eq_false_of_ne_true fun hsame => hne (Argument.slot_eq_iff.mpr (.inl hsame))⟩

end Tabulated

/-! ## Adding and overlaying -/

/-- Where every slot is taken once, at most one argument is replaced. -/
theorem replaceHinted_eq_map (ha : a.hasHint = true) {bs : List Argument}
    (hnodup : (bs.map Argument.slot).Nodup) :
    replaceHinted a bs = bs.map fun b => if b.slot = a.slot then a else b := by
  induction bs with
  | nil => rfl
  | cons b bs ih =>
    obtain ⟨hnew, hnodup⟩ := List.nodup_cons.mp hnodup
    simp only [replaceHinted, List.map_cons, ← Argument.slot_eq_iff_of_hasHint ha]
    split
    · rename_i hb
      -- No later argument has the slot.
      have hrest : bs.map (fun b => if b.slot = a.slot then a else b) = bs := by
        refine (List.map_congr_left fun c hc => ?_).trans (List.map_id bs)
        have hne : c.slot ≠ a.slot := fun heq => by
          rw [hb, ← heq] at hnew
          exact hnew (List.mem_map_of_mem hc)
        exact if_neg hne
      rw [hrest]
    · rw [ih hnodup]

theorem tabulated_empty : empty.Tabulated {} := rfl

theorem Tabulated.addIndexed (h : args.Tabulated t) (i : Nat) (a : Argument) :
    (args.addIndexed i a).Tabulated t := h

/-- To add an argument is to write it under its slot. -/
theorem Tabulated.addGeneric (h : args.Tabulated t) (a : Argument) :
    (args.addGeneric a).Tabulated (t.insert a.slot a) := by
  rw [Arguments.addGeneric]
  split
  · rename_i hhinted
    obtain ⟨b, hb, hsame⟩ := List.any_eq_true.mp hhinted
    have hcontains : t.contains a.slot = true := by
      rw [h.contains_eq, List.any_eq_true]
      exact ⟨b, hb, decide_eq_true (Argument.slot_eq_iff.mpr (.inl hsame))⟩
    have hnodup := t.nodup_keys
    rw [h.keys_eq] at hnodup
    rw [Tabulated, Table.entries_insert_of_contains hcontains, h.entries_eq,
      replaceHinted_eq_map (Argument.hasHint_of_sameHint hsame).2 hnodup, List.map_map,
      List.map_map]
    refine List.map_congr_left fun c _ => ?_
    simp only [Function.comp_apply]
    split <;> rfl
  · rename_i hhinted
    split
    · -- An argument that is there already is written where it stands.
      rename_i hold
      rwa [Table.insert_of_get? (h.mem_iff.mp (List.contains_iff_mem.mp hold))]
    · rename_i hnew
      have hcontains : t.contains a.slot = false := by
        rw [h.contains_eq, List.any_eq_false]
        intro b hb hslot
        rcases Argument.slot_eq_iff.mp (of_decide_eq_true hslot) with hsame | rfl
        · exact hhinted (List.any_eq_true.mpr ⟨b, hb, hsame⟩)
        · exact hnew (List.contains_iff_mem.mpr hb)
      rw [Tabulated, Table.entries_insert_of_not_contains hcontains, h.entries_eq,
        List.map_append]
      rfl

/-- To put arguments over others is to write all of them. -/
theorem Tabulated.overlay (hc : c.Tabulated s) (hp : p.Tabulated t) :
    (c.overlay p).Tabulated (t.insertAll s) := by
  have hindexed : ∀ (entries : List (Nat × Argument)) {args : Arguments}, args.Tabulated t →
      (entries.foldl (fun args e => args.addIndexed e.1 e.2) args).Tabulated t := by
    intro entries
    induction entries with
    | nil => exact fun h => h
    | cons e entries ih => exact fun h => ih (h.addIndexed e.1 e.2)
  have hgeneric : ∀ (added : List Argument) {args : Arguments} {t : Table Slot Argument},
      args.Tabulated t → (added.foldl Arguments.addGeneric args).Tabulated
        ((added.map fun a => (a.slot, a)).foldl (fun t e => t.insert e.1 e.2) t) := by
    intro added
    induction added with
    | nil => exact fun h => h
    | cons a added ih => exact fun h => ih (h.addGeneric a)
  rw [Table.insertAll, hc.entries_eq]
  exact hgeneric c.generic (hindexed c.indexed hp)

/-- Arguments that were made by adding one after the other, and by putting such arguments over each
other. There is no other way to make them : nothing else writes their lists. -/
inductive Built : Arguments → Prop
  | empty : Built .empty
  | addIndexed {args : Arguments} (h : Built args) (i : Nat) (a : Argument) :
    Built (args.addIndexed i a)
  | addGeneric {args : Arguments} (h : Built args) (a : Argument) : Built (args.addGeneric a)
  | overlay {c p : Arguments} (hc : Built c) (hp : Built p) : Built (c.overlay p)

/-- Arguments that were built form a table. -/
theorem Built.exists_tabulated (h : args.Built) : ∃ t, args.Tabulated t := by
  induction h with
  | empty => exact ⟨{}, tabulated_empty⟩
  | addIndexed _ i a ih =>
    obtain ⟨t, ht⟩ := ih
    exact ⟨t, ht.addIndexed i a⟩
  | addGeneric _ a ih =>
    obtain ⟨t, ht⟩ := ih
    exact ⟨_, ht.addGeneric a⟩
  | overlay _ _ ihc ihp =>
    obtain ⟨s, hs⟩ := ihc
    obtain ⟨t, ht⟩ := ihp
    exact ⟨_, hs.overlay ht⟩

/-! ## What an overlay is -/

/-- The arguments with a position, each under its position. -/
def positions (args : Arguments) : Table Nat Argument :=
  ⟨args.indexed, (List.pairwise_map.mpr args.ascending).imp Nat.ne_of_lt⟩

theorem mem_indexed_iff {i : Nat} : (i, a) ∈ args.indexed ↔ args.at? i = some a :=
  args.positions.mem_entries_iff

/-- Arguments are what is found at every position, and those without one. -/
theorem ext_at? (hat : ∀ i, c.at? i = p.at? i) (hgeneric : c.generic = p.generic) : c = p := by
  have hmem : ∀ e, e ∈ c.indexed ↔ e ∈ p.indexed := fun e => by
    rw [show e = (e.1, e.2) from rfl, mem_indexed_iff, mem_indexed_iff, hat]
  have hperm : c.indexed.Perm p.indexed :=
    (List.perm_ext_iff_of_nodup (c.positions.keys_nodup.of_map _)
      (p.positions.keys_nodup.of_map _)).mpr hmem
  -- Positions ascend in both, so that there is one order for them.
  have hindexed : c.indexed = p.indexed :=
    hperm.eq_of_pairwise (fun _ _ _ _ hlt hgt => absurd hlt (Nat.lt_asymm hgt)) c.ascending
      p.ascending
  cases c
  cases p
  cases hindexed
  cases hgeneric
  rfl

/-- No argument without a position is lost when they are put over others. -/
theorem generic_subset_overlay (hc : c.Built) (hp : p.Built) :
    c.generic ⊆ (c.overlay p).generic := by
  obtain ⟨s, hs⟩ := hc.exists_tabulated
  obtain ⟨t, ht⟩ := hp.exists_tabulated
  intro a ha
  rw [(hs.overlay ht).mem_iff, Table.get?_insertAll, hs.mem_iff.mp ha, Option.some_or]

/-- An argument that stands in a slot is replaced by one with the same hint, and otherwise stays. -/
theorem Tabulated.getD_get?_slot (hc : c.Tabulated s) (b : Argument) :
    (s.get? b.slot).getD b = (c.generic.find? (·.sameHint b)).getD b := by
  rw [hc.get?_eq]
  cases hb : b.hasHint with
  | true => simp only [Argument.slot_eq_iff_of_hasHint hb, Bool.decide_eq_true]
  | false =>
    have hnone : c.generic.find? (·.sameHint b) = none := by
      refine List.find?_eq_none.mpr fun a _ hsame => ?_
      rw [(Argument.hasHint_of_sameHint hsame).2] at hb
      cases hb
    rw [hnone, Option.getD_none]
    cases hfind : c.generic.find? fun a => a.slot = b.slot with
    | none => rfl
    | some a =>
      have hslot : a.slot = b.slot := by simpa using List.find?_some hfind
      exact (Argument.slot_eq_iff_of_bare hb).mp hslot

/-- A slot is taken by an argument with the same hint, or by the argument itself. -/
theorem Tabulated.contains_slot (hp : p.Tabulated t) (a : Argument) :
    t.contains a.slot = (p.generic.any (·.sameHint a) || p.generic.contains a) := by
  rw [hp.contains_eq, Bool.eq_iff_iff, Bool.or_eq_true, List.any_eq_true, List.any_eq_true,
    List.contains_iff_mem]
  simp only [decide_eq_true_eq, Argument.slot_eq_iff]
  constructor
  · rintro ⟨b, hb, hsame | rfl⟩
    · exact .inl ⟨b, hb, hsame⟩
    · exact .inr hb
  · rintro (⟨b, hb, hsame⟩ | ha)
    · exact ⟨b, hb, .inl hsame⟩
    · exact ⟨a, ha, .inr rfl⟩

/-- The arguments of the parent come first, each replaced by one with the same hint, and then those
that are new. -/
theorem generic_overlay (hc : c.Built) (hp : p.Built) : (c.overlay p).generic =
    p.generic.map (fun b => (c.generic.find? (·.sameHint b)).getD b) ++
      c.generic.filter fun a => !(p.generic.any (·.sameHint a) || p.generic.contains a) := by
  obtain ⟨s, hs⟩ := hc.exists_tabulated
  obtain ⟨t, ht⟩ := hp.exists_tabulated
  rw [← (hs.overlay ht).values_eq, Table.values_insertAll, hs.entries_eq,
    ht.entries_eq, List.map_map, List.filter_map, List.map_map]
  congr 1
  · exact List.map_congr_left fun b _ => hs.getD_get?_slot b
  · refine (List.map_id _).trans (List.filter_congr fun a _ => ?_)
    exact congrArg not (ht.contains_slot a)

/-- Arguments are put over each other in whichever order. -/
theorem overlay_assoc (hc : c.Built) (hp : p.Built) (hg : g.Built) :
    c.overlay (p.overlay g) = (c.overlay p).overlay g := by
  obtain ⟨r, hr⟩ := hc.exists_tabulated
  obtain ⟨s, hs⟩ := hp.exists_tabulated
  obtain ⟨t, ht⟩ := hg.exists_tabulated
  have hgeneric : (c.overlay (p.overlay g)).generic = ((c.overlay p).overlay g).generic := by
    have hleft := hr.overlay (hs.overlay ht)
    rw [Table.insertAll_assoc] at hleft
    exact hleft.generic_eq ((hr.overlay hs).overlay ht)
  exact ext_at? (fun i => by simp only [at?_overlay, Option.or_assoc]) hgeneric

/-- An argument of an overlay comes from either side. -/
theorem mem_toList_overlay (hc : c.Built) (hp : p.Built) (h : a ∈ (c.overlay p).toList) :
    a ∈ c.toList ∨ a ∈ p.toList := by
  rcases List.mem_append.mp h with hindexed | hgeneric
  · obtain ⟨⟨i, _⟩, he, rfl⟩ := List.mem_map.mp hindexed
    rw [mem_indexed_iff, at?_overlay, Option.or_eq_some_iff, ← mem_indexed_iff] at he
    rcases he with he | ⟨-, he⟩
    · exact .inl (List.mem_append_left _ (List.mem_map_of_mem he))
    · exact .inr (List.mem_append_left _ (List.mem_map_of_mem (mem_indexed_iff.mpr he)))
  · rw [generic_overlay hc hp] at hgeneric
    rcases List.mem_append.mp hgeneric with hold | hnew
    · obtain ⟨b, hb, rfl⟩ := List.mem_map.mp hold
      cases hfind : c.generic.find? (·.sameHint b) with
      | none => exact .inr (List.mem_append_right _ hb)
      | some a => exact .inl (List.mem_append_right _ (List.mem_of_find?_eq_some hfind))
    · exact .inl (List.mem_append_right _ (List.mem_filter.mp hnew).1)

/-- All arguments that are put over others are kept. -/
theorem toList_subset_overlay (hc : c.Built) (hp : p.Built) :
    c.toList ⊆ (c.overlay p).toList := by
  intro a ha
  rcases List.mem_append.mp ha with hindexed | hgeneric
  · obtain ⟨⟨i, _⟩, he, rfl⟩ := List.mem_map.mp hindexed
    have hat := at?_overlay c p i
    rw [mem_indexed_iff.mp he, Option.some_or] at hat
    exact List.mem_append_left _ (List.mem_map_of_mem (mem_indexed_iff.mpr hat))
  · exact List.mem_append_right _ (generic_subset_overlay hc hp hgeneric)

/-- Of arguments that were built, no two without a position are equal or carry the same hint. Put
over others they are all there : first come the others in their order, each replaced by the one with
the same hint if there is one, and then those that replaced none and were not there already, in
their order. In which order three are put over each other makes no difference. -/
theorem overlay_of_built (c p g : Arguments) (hc : c.Built) (hp : p.Built) (hg : g.Built) :
    (c.generic.Nodup ∧ c.generic.Pairwise fun a b => a.sameHint b = false) ∧
    c.generic ⊆ (c.overlay p).generic ∧
    (c.overlay p).generic =
      p.generic.map (fun b => (c.generic.find? (·.sameHint b)).getD b) ++
        c.generic.filter (fun a => !(p.generic.any (·.sameHint a) || p.generic.contains a)) ∧
    c.overlay (p.overlay g) = (c.overlay p).overlay g := by
  obtain ⟨s, hs⟩ := hc.exists_tabulated
  have hdistinct := hs.pairwise
  exact ⟨⟨hdistinct.imp And.left, hdistinct.imp And.right⟩, generic_subset_overlay hc hp,
    generic_overlay hc hp, overlay_assoc hc hp hg⟩

/-- An argument with a text, for parameters of a type. -/
def typed (typeName text : String) : Argument := ⟨.literal text, some typeName, none⟩

/-- An argument with a text, for any parameter. -/
def plain (text : String) : Argument := .ofValue (.literal text)

/-- Arguments without a position. -/
def ofList (as : List Argument) : Arguments := as.foldl addGeneric .empty

/-- Arguments that are listed are added one after the other. -/
theorem built_ofList (as : List Argument) : (ofList as).Built := by
  induction as using List.reverseRecOn with
  | nil => exact .empty
  | append_singleton as a ih =>
    rw [ofList, List.foldl_append]
    exact ih.addGeneric a

/-- The limits of a pool, one of them given twice. -/
def ownLimits : Arguments :=
  (ofList [plain "disk", typed "int" "3", typed "path" "/", plain "disk"]).addIndexed 0
    (plain "own")

/-- The limits of its parent, with an integer that is replaced at once. -/
def parentLimits : Arguments :=
  (ofList [plain "memory", typed "int" "1", typed "int" "2", plain "disk"]).addIndexed 0
    (plain "parent")

/-- The limits of the parent's parent, which both of the others repeat in part. -/
def rootLimits : Arguments := ofList [typed "int" "0", plain "memory"]

theorem overlay_of_limits :
    ownLimits.Built ∧ parentLimits.Built ∧ rootLimits.Built ∧
      ownLimits.generic.Nodup ∧
      (ownLimits.overlay parentLimits).generic =
        [plain "memory", typed "int" "3", plain "disk", typed "path" "/"] ∧
      ownLimits.overlay (parentLimits.overlay rootLimits) =
        (ownLimits.overlay parentLimits).overlay rootLimits := by
  have hown : ownLimits.Built := (built_ofList _).addIndexed 0 (plain "own")
  have hparent : parentLimits.Built := (built_ofList _).addIndexed 0 (plain "parent")
  have hroot : rootLimits.Built := built_ofList _
  obtain ⟨⟨hnodup, -⟩, -, hgeneric, hassoc⟩ :=
    overlay_of_built ownLimits parentLimits rootLimits hown hparent hroot
  exact ⟨hown, hparent, hroot, hnodup, hgeneric.trans (by decide), hassoc⟩

end Arguments

end Blueprint
