/-!
# Insertion-ordered tables

A `Table κ α` holds at most one value per key and remembers the order in which the keys came in.
Writing to a key that is there replaces the value and keeps the place; erasing a key closes the
gap. The view of a table is its list of entries, in order, and every operation is pinned down by
what it does to `get?` (`get?_insert`, `get?_erase`) and to `keys` (`keys_insert`, `keys_erase`).

`sameEntries` compares two tables without regard to order.
-/

namespace Blueprint

universe u v w

/-- Entries in the order their keys were first written, no key twice. -/
structure Table (κ : Type u) (α : Type v) where
  entries : List (κ × α)
  keys_nodup : (entries.map Prod.fst).Nodup

namespace Table

variable {κ : Type u} {α : Type v}

/-- The table without entries. -/
def empty : Table κ α := ⟨[], by simp⟩

instance : EmptyCollection (Table κ α) := ⟨empty⟩

instance : Inhabited (Table κ α) := ⟨empty⟩

@[ext] theorem ext {t s : Table κ α} (h : t.entries = s.entries) : t = s := by
  cases t; cases s; cases h; rfl

/-- The keys, in the order they were first written. -/
def keys (t : Table κ α) : List κ := t.entries.map Prod.fst

/-- The values, in the order of their keys. -/
def values (t : Table κ α) : List α := t.entries.map Prod.snd

/-- How many keys the table holds. -/
def size (t : Table κ α) : Nat := t.entries.length

/-- Whether the table holds nothing. -/
def isEmpty (t : Table κ α) : Bool := t.entries.isEmpty

@[simp] theorem keys_empty : (empty : Table κ α).keys = [] := rfl

theorem nodup_keys (t : Table κ α) : t.keys.Nodup := t.keys_nodup

@[simp] theorem length_keys (t : Table κ α) : t.keys.length = t.size := by
  simp [keys, size]

variable [DecidableEq κ]

/-- The value written to `k`, if any. -/
def get? (t : Table κ α) (k : κ) : Option α :=
  (t.entries.find? fun e => e.1 = k).map Prod.snd

/-- Whether `k` was written. -/
def contains (t : Table κ α) (k : κ) : Bool := t.entries.any fun e => e.1 = k

/-- The entries with `a` in the place of the value of `k`. -/
private def overwrite (k : κ) (a : α) (es : List (κ × α)) : List (κ × α) :=
  es.map fun e => if e.1 = k then (k, a) else e

private theorem map_fst_overwrite (k : κ) (a : α) (es : List (κ × α)) :
    (overwrite k a es).map Prod.fst = es.map Prod.fst := by
  induction es with
  | nil => rfl
  | cons e es ih =>
    simp only [overwrite, List.map_cons] at ih ⊢
    rw [ih]
    by_cases h : e.1 = k <;> simp [h]

private theorem contains_eq_true_iff (t : Table κ α) (k : κ) :
    t.contains k = true ↔ k ∈ t.entries.map Prod.fst := by
  simp only [contains, List.any_eq_true, List.mem_map, decide_eq_true_eq]

/-- Writes `a` to `k` : a new key goes to the end, a known key keeps its place. -/
def insert (t : Table κ α) (k : κ) (a : α) : Table κ α :=
  if h : t.contains k = true then
    ⟨overwrite k a t.entries, by rw [map_fst_overwrite]; exact t.keys_nodup⟩
  else
    ⟨t.entries ++ [(k, a)], by
      rw [List.map_append, List.nodup_append]
      refine ⟨t.keys_nodup, by simp, ?_⟩
      intro x hx y hy hxy
      have hy' : y = k := by simpa using hy
      exact h ((contains_eq_true_iff t k).mpr (hy' ▸ hxy ▸ hx))⟩

/-- Drops `k`; the later entries move up. -/
def erase (t : Table κ α) (k : κ) : Table κ α :=
  ⟨t.entries.filter fun e => ¬ e.1 = k,
    t.keys_nodup.sublist (List.filter_sublist.map Prod.fst)⟩

/-- The table that results from writing the pairs one after the other. -/
def ofList (es : List (κ × α)) : Table κ α := es.foldl (fun t e => t.insert e.1 e.2) empty

/-- Writes the entries of `s` into `t`, one after the other. -/
def insertAll (t s : Table κ α) : Table κ α := s.entries.foldl (fun t e => t.insert e.1 e.2) t

/-- Equal as maps : the same keys with equal values, in whatever order. -/
def sameEntries [BEq α] (t s : Table κ α) : Bool :=
  t.size == s.size && t.entries.all fun e => match s.get? e.1 with
    | some a => e.2 == a
    | none => false

/-! ## What the operations do to the view -/

@[simp] theorem mem_keys {t : Table κ α} {k : κ} : k ∈ t.keys ↔ t.contains k = true :=
  (contains_eq_true_iff t k).symm

@[simp] theorem get?_empty (k : κ) : (empty : Table κ α).get? k = none := rfl

@[simp] theorem contains_empty (k : κ) : (empty : Table κ α).contains k = false := rfl

theorem isSome_get? (t : Table κ α) (k : κ) : (t.get? k).isSome = t.contains k := by
  rw [Bool.eq_iff_iff]
  simp [get?, contains]

theorem get?_eq_none_iff {t : Table κ α} {k : κ} : t.get? k = none ↔ t.contains k = false := by
  rw [← isSome_get?, Option.isSome_eq_false_iff, Option.isNone_iff_eq_none]

theorem keys_insert_of_contains {t : Table κ α} {k : κ} (h : t.contains k = true) (a : α) :
    (t.insert k a).keys = t.keys := by
  simp only [insert, h, dite_true, keys, map_fst_overwrite]

theorem keys_insert_of_not_contains {t : Table κ α} {k : κ} (h : t.contains k = false) (a : α) :
    (t.insert k a).keys = t.keys ++ [k] := by
  simp [insert, h, keys]

theorem keys_insert (t : Table κ α) (k : κ) (a : α) :
    (t.insert k a).keys = if t.contains k then t.keys else t.keys ++ [k] := by
  cases h : t.contains k
  · simp [keys_insert_of_not_contains h]
  · simp [keys_insert_of_contains h]

theorem keys_erase (t : Table κ α) (k : κ) :
    (t.erase k).keys = t.keys.filter fun x => ¬ x = k := by
  simp only [keys, erase, List.filter_map]
  rfl

theorem entries_insert_of_not_contains {t : Table κ α} {k : κ} (h : t.contains k = false) (a : α) :
    (t.insert k a).entries = t.entries ++ [(k, a)] := by
  simp [insert, h]

theorem entries_insert_of_contains {t : Table κ α} {k : κ} (h : t.contains k = true) (a : α) :
    (t.insert k a).entries = t.entries.map fun e => if e.1 = k then (k, a) else e := by
  simp only [insert, h, dite_true, overwrite]

theorem entries_erase (t : Table κ α) (k : κ) :
    (t.erase k).entries = t.entries.filter fun e => ¬ e.1 = k := rfl

private theorem find?_overwrite (k x : κ) (a : α) (es : List (κ × α)) :
    (overwrite k a es).find? (fun e => e.1 = x) =
      if x = k then (es.find? fun e => e.1 = k).map fun _ => (k, a)
      else es.find? fun e => e.1 = x := by
  induction es with
  | nil => simp [overwrite]
  | cons e es ih =>
    simp only [overwrite, List.map_cons] at ih ⊢
    by_cases hk : e.1 = k
    · by_cases hx : x = k
      · simp [hk, hx]
      · have : ¬ k = x := fun h => hx h.symm
        simp only [hk, if_true, List.find?_cons, this, decide_false, ih, hx, if_false]
    · by_cases hx : x = k
      · subst hx
        simp only [hk, if_false, List.find?_cons, decide_false, ih, if_true]
      · simp only [hk, if_false, List.find?_cons, ih, hx]

theorem get?_insert (t : Table κ α) (k x : κ) (a : α) :
    (t.insert k a).get? x = if x = k then some a else t.get? x := by
  cases h : t.contains k with
  | true =>
    simp only [insert, h, dite_true, get?, find?_overwrite]
    by_cases hx : x = k
    · have hs : ((t.entries.find? fun e => e.1 = k).map Prod.snd).isSome = true := by
        rw [← h]; exact isSome_get? t k
      simp only [hx, if_true]
      cases hf : t.entries.find? fun e => e.1 = k with
      | none => simp [hf] at hs
      | some e => simp
    · simp [hx]
  | false =>
    have hn : t.entries.find? (fun e => e.1 = k) = none := by
      simpa [get?] using get?_eq_none_iff.mpr h
    simp only [insert, h, Bool.false_eq_true, dite_false, get?, List.find?_append]
    by_cases hx : x = k
    · subst hx; simp [hn]
    · have : ¬ k = x := fun e => hx e.symm
      simp [hx, this]

@[simp] theorem get?_insert_self (t : Table κ α) (k : κ) (a : α) :
    (t.insert k a).get? k = some a := by
  simp [get?_insert]

theorem get?_insert_of_ne (t : Table κ α) {k x : κ} (h : x ≠ k) (a : α) :
    (t.insert k a).get? x = t.get? x := by
  simp [get?_insert, h]

theorem get?_erase (t : Table κ α) (k x : κ) :
    (t.erase k).get? x = if x = k then none else t.get? x := by
  simp only [get?, erase, List.find?_filter]
  by_cases hx : x = k
  · subst hx
    simp only [if_true, Option.map_eq_none_iff, List.find?_eq_none]
    intro e _
    by_cases h : e.1 = x <;> simp [h]
  · simp only [hx, if_false]
    congr 2
    funext e
    by_cases h : e.1 = x
    · simp [h, hx]
    · simp [h]

theorem contains_insert (t : Table κ α) (k x : κ) (a : α) :
    (t.insert k a).contains x = (decide (x = k) || t.contains x) := by
  rw [← isSome_get?, ← isSome_get?, get?_insert]
  by_cases h : x = k <;> simp [h]

theorem contains_erase (t : Table κ α) (k x : κ) :
    (t.erase k).contains x = (!decide (x = k) && t.contains x) := by
  rw [← isSome_get?, ← isSome_get?, get?_erase]
  by_cases h : x = k <;> simp [h]

/-! ## Tables with the same view -/

theorem mem_entries_iff {t : Table κ α} {k : κ} {a : α} :
    (k, a) ∈ t.entries ↔ t.get? k = some a := by
  constructor
  · intro h
    have unique : ∀ (es : List (κ × α)), (es.map Prod.fst).Nodup → (k, a) ∈ es →
        (es.find? fun e => e.1 = k) = some (k, a) := by
      intro es hes hm
      induction es with
      | nil => cases hm
      | cons e es ih =>
        obtain ⟨he, hes⟩ := List.nodup_cons.mp hes
        rcases List.mem_cons.mp hm with rfl | hm
        · simp
        · have hne : ¬ e.1 = k := fun h => he (h ▸ List.mem_map_of_mem hm)
          simp only [List.find?_cons, hne, decide_false]
          exact ih hes hm
    simp [get?, unique t.entries t.keys_nodup h]
  · intro h
    obtain ⟨e, he, rfl⟩ := Option.map_eq_some_iff.mp h
    have hk : e.1 = k := by simpa using List.find?_some he
    exact hk ▸ List.mem_of_find?_eq_some he

/-- A table is what its keys and the value of each make of it. -/
theorem ext_get? {t s : Table κ α} (hk : t.keys = s.keys) (hg : ∀ k, t.get? k = s.get? k) :
    t = s := by
  have view : ∀ u : Table κ α,
      u.entries.map (fun e => (e.1, some e.2)) = u.keys.map fun k => (k, u.get? k) := by
    intro u
    rw [keys, List.map_map]
    refine List.map_congr_left fun e he => ?_
    simp [mem_entries_iff.mp (show (e.1, e.2) ∈ u.entries from he)]
  have heq : t.entries.map (fun e => (e.1, some e.2)) = s.entries.map fun e => (e.1, some e.2) := by
    rw [view, view, hk]
    exact List.map_congr_left fun k _ => by rw [hg]
  refine ext ((List.map_inj_right fun e f h => ?_).mp heq)
  obtain ⟨hk, ha⟩ := Prod.mk.inj h
  exact Prod.ext hk (Option.some.inj ha)

theorem contains_eq_of_get? {t s : Table κ α} {k : κ} (h : t.get? k = s.get? k) :
    t.contains k = s.contains k := by
  rw [← isSome_get?, ← isSome_get?, h]

theorem size_eq_of_contains {β : Type w} {t : Table κ α} {s : Table κ β}
    (h : ∀ k, t.contains k = s.contains k) : t.size = s.size := by
  have hkeys : t.keys.Perm s.keys :=
    (List.perm_ext_iff_of_nodup t.nodup_keys s.nodup_keys).mpr fun k => by
      rw [mem_keys, mem_keys, h]
  rw [← length_keys, ← length_keys, hkeys.length_eq]

theorem size_eq_of_get? {t s : Table κ α} (h : ∀ k, t.get? k = s.get? k) : t.size = s.size :=
  size_eq_of_contains fun k => contains_eq_of_get? (h k)

theorem contains_of_get? {t : Table κ α} {k : κ} {a : α} (h : t.get? k = some a) :
    t.contains k = true := by
  rw [← isSome_get?, h]; rfl

theorem erase_of_not_contains {t : Table κ α} {k : κ} (h : t.contains k = false) :
    t.erase k = t := by
  refine ext_get? ?_ fun x => ?_
  · rw [keys_erase, List.filter_eq_self]
    intro x hx
    have : x ≠ k := fun e => by simp [e, h] at hx
    simpa using this
  · rw [get?_erase]
    split
    · rename_i hx
      exact (hx ▸ get?_eq_none_iff.mpr h).symm
    · rfl

theorem insert_of_get? {t : Table κ α} {k : κ} {a : α} (h : t.get? k = some a) :
    t.insert k a = t := by
  refine ext_get? (keys_insert_of_contains (contains_of_get? h) a) fun x => ?_
  rw [get?_insert]
  split
  · rename_i hx
    rw [hx, h]
  · rfl

theorem insert_insert (t : Table κ α) (k : κ) (a b : α) :
    (t.insert k a).insert k b = t.insert k b := by
  refine ext_get? ?_ fun x => ?_
  · rw [keys_insert_of_contains (by simp [contains_insert]), keys_insert, keys_insert]
  · simp only [get?_insert]
    split <;> rfl

theorem erase_insert_of_not_contains {t : Table κ α} {k : κ} (h : t.contains k = false) (a : α) :
    (t.insert k a).erase k = t := by
  refine ext_get? ?_ fun x => ?_
  · rw [keys_erase, keys_insert_of_not_contains h, List.filter_append]
    rw [← keys_erase, erase_of_not_contains h]
    simp
  · simp only [get?_erase, get?_insert]
    split
    · rename_i hx
      exact (hx ▸ get?_eq_none_iff.mpr h).symm
    · rfl

end Table

end Blueprint
