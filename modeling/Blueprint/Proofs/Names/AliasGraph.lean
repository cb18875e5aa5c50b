import Blueprint.Registry.Names
import Mathlib.Logic.Relation

/-!
# The graph of the aliases

Every alias points at one name, so the aliases of a registry are a graph in which a name has at
most one successor (`PointsAt.unique`). The walk of `canonical` takes one step more than there are
aliases. Without a cycle that is more than it needs (`follow_not_alias`) : the names it passes are
different aliases, and there are not enough of them to use up the steps.

`leadsTo` searches the names on the same walk, and misses none (`leadsTo_of_transGen`). An alias
that is not found there can be pointed at the start of the walk without closing a cycle
(`Acyclic.insert`). Erasing an alias closes none either (`Acyclic.erase`).
-/

namespace Blueprint.Names

open Relation

/-- The alias `a` points at the name `b`. -/
def PointsAt (aliases : Table String String) (a b : String) : Prop := aliases.get? a = some b

/-- No name is reached from itself. -/
def Acyclic (aliases : Table String String) : Prop := ∀ name, ¬TransGen (PointsAt aliases) name name

variable {aliases : Table String String} {a b c : String}

theorem PointsAt.unique (h : PointsAt aliases a b) (h' : PointsAt aliases a c) : b = c :=
  Option.some.inj (h.symm.trans h')

theorem not_transGen_of_get?_eq_none (h : aliases.get? a = none) :
    ¬TransGen (PointsAt aliases) a b := by
  intro ht
  obtain ⟨c, hc, -⟩ := TransGen.head'_iff.mp ht
  simp [PointsAt, h] at hc

/-! ## The bounded walk -/

/-- Names passed by a walk : different aliases that all lead to where it stands. -/
structure Passed (aliases : Table String String) (names : List String) (current : String) :
    Prop where
  nodup : names.Nodup
  contains : ∀ x ∈ names, aliases.contains x = true
  reaches : ∀ x ∈ names, TransGen (PointsAt aliases) x current

theorem Passed.length_le {names : List String} (h : Passed aliases names a) :
    names.length ≤ aliases.size := by
  rw [← Table.length_keys]
  exact h.nodup.length_le_of_subset fun x hx => Table.mem_keys.mpr (h.contains x hx)

/-- Without a cycle a walk passes no name twice. -/
theorem Passed.cons (hc : Acyclic aliases) {names : List String} (h : Passed aliases names a)
    (hab : PointsAt aliases a b) : Passed aliases (a :: names) b where
  nodup := List.nodup_cons.mpr ⟨fun ha => hc a (h.reaches a ha), h.nodup⟩
  contains := by
    intro x hx
    rcases List.mem_cons.mp hx with rfl | hx
    · exact Table.contains_of_get? hab
    · exact h.contains x hx
  reaches := by
    intro x hx
    rcases List.mem_cons.mp hx with rfl | hx
    · exact .single hab
    · exact .tail (h.reaches x hx) hab

/-- A walk with enough steps left to pass every alias once ends at a name that is none. -/
theorem follow_not_alias_of_passed (hc : Acyclic aliases) :
    ∀ (steps : Nat) {names : List String} {a : String}, Passed aliases names a →
      aliases.size < names.length + steps → aliases.contains (follow aliases steps a) = false
  | 0, names, a, hp, hs => by
    have := hp.length_le
    omega
  | steps + 1, names, a, hp, hs => by
    cases ha : aliases.get? a with
    | none => simpa [follow, ha] using Table.get?_eq_none_iff.mp ha
    | some b =>
      rw [follow, ha]
      refine follow_not_alias_of_passed hc steps (hp.cons hc ha) ?_
      simp only [List.length_cons]
      omega

/-- Without cycles a walk with more steps than there are aliases ends at a name that is none. -/
theorem follow_not_alias (hc : Acyclic aliases) {steps : Nat} (hs : aliases.size < steps)
    (a : String) : aliases.contains (follow aliases steps a) = false := by
  have start : Passed aliases [] a := ⟨List.nodup_nil, by simp, by simp⟩
  exact follow_not_alias_of_passed hc steps start (by simpa)

/-- Steps beyond the end of a walk change nothing. -/
theorem follow_add : ∀ {steps : Nat} {a : String},
    aliases.contains (follow aliases steps a) = false →
      ∀ more, follow aliases (steps + more) a = follow aliases steps a
  | 0, a, h, more => by
    have ha : aliases.get? a = none := Table.get?_eq_none_iff.mpr h
    cases more with
    | zero => rfl
    | succ more => simp [follow, ha]
  | steps + 1, a, h, more => by
    rw [Nat.add_right_comm]
    cases ha : aliases.get? a with
    | none => simp [follow, ha]
    | some b =>
      simp only [follow, ha] at h ⊢
      exact follow_add h more

/-- A walk goes along the aliases. -/
theorem reflTransGen_follow : ∀ (steps : Nat) (a : String),
    ReflTransGen (PointsAt aliases) a (follow aliases steps a)
  | 0, a => .refl
  | steps + 1, a => by
    cases ha : aliases.get? a with
    | none => simp [follow, ha, ReflTransGen.refl]
    | some b =>
      simp only [follow, ha]
      exact .head ha (reflTransGen_follow steps b)

/-- The names that a walk passes are those that can be reached. -/
theorem exists_follow_eq_iff :
    (∃ steps, follow aliases steps a = b) ↔ ReflTransGen (PointsAt aliases) a b := by
  constructor
  · rintro ⟨steps, rfl⟩
    exact reflTransGen_follow steps a
  · intro h
    induction h using ReflTransGen.head_induction_on with
    | refl => exact ⟨0, rfl⟩
    | @head a c hac hcb ih =>
      obtain ⟨steps, hsteps⟩ := ih
      have ha : aliases.get? a = some c := hac
      exact ⟨steps + 1, by simp only [follow, ha, hsteps]⟩

/-- A walk that ends passes every name that can be reached. -/
theorem leadsTo_of_transGen : ∀ {steps : Nat} {a : String},
    aliases.contains (follow aliases steps a) = false → TransGen (PointsAt aliases) a b →
      leadsTo aliases b steps a = true
  | 0, a, h, hab => (not_transGen_of_get?_eq_none (Table.get?_eq_none_iff.mpr h) hab).elim
  | steps + 1, a, h, hab => by
    obtain ⟨c, hac, hcb⟩ := TransGen.head'_iff.mp hab
    have ha : aliases.get? a = some c := hac
    simp only [follow, ha] at h
    simp only [leadsTo, ha, Bool.or_eq_true, beq_iff_eq]
    rcases reflTransGen_iff_eq_or_transGen.mp hcb with rfl | hcb
    · exact .inl rfl
    · exact .inr (leadsTo_of_transGen h hcb)

/-! ## Changes of the table -/

theorem acyclic_empty : Acyclic {} := fun _ => not_transGen_of_get?_eq_none rfl

/-- Fewer aliases close no cycle. -/
theorem Acyclic.of_get? {aliases' : Table String String}
    (h : ∀ a b, aliases'.get? a = some b → aliases.get? a = some b) (hc : Acyclic aliases) :
    Acyclic aliases' :=
  fun name hn => hc name (TransGen.mono h name name hn)

theorem Acyclic.erase (hc : Acyclic aliases) (a : String) : Acyclic (aliases.erase a) := by
  refine hc.of_get? fun x y hxy => ?_
  rw [Table.get?_erase] at hxy
  split at hxy
  · simp at hxy
  · exact hxy

/-- A path over a new edge from `a` to `b` reaches `a` before and leaves `b` behind. -/
theorem transGen_insert {x y : String} (h : TransGen (PointsAt (aliases.insert a b)) x y) :
    TransGen (PointsAt aliases) x y ∨
      ReflTransGen (PointsAt aliases) x a ∧ ReflTransGen (PointsAt aliases) b y := by
  have edge : ∀ {x y}, PointsAt (aliases.insert a b) x y →
      PointsAt aliases x y ∨ x = a ∧ y = b := by
    intro x y hxy
    rw [PointsAt, Table.get?_insert] at hxy
    split at hxy
    · exact .inr ⟨‹_›, (Option.some.inj hxy).symm⟩
    · exact .inl hxy
  induction h with
  | single hxy =>
    rcases edge hxy with hxy | ⟨rfl, rfl⟩
    · exact .inl (.single hxy)
    · exact .inr ⟨.refl, .refl⟩
  | tail _ hyz ih =>
    rcases edge hyz with hyz | ⟨rfl, rfl⟩
    · exact ih.imp (·.tail hyz) fun h => ⟨h.1, h.2.tail hyz⟩
    · exact .inr ⟨ih.elim (·.to_reflTransGen) (·.1), .refl⟩

/-- An alias may point at a name other than itself that does not lead to it. -/
theorem Acyclic.insert (hc : Acyclic aliases) (hne : a ≠ b)
    (hba : leadsTo aliases a (aliases.size + 1) b = false) : Acyclic (aliases.insert a b) := by
  have hno : ¬ReflTransGen (PointsAt aliases) b a := by
    intro h
    rcases reflTransGen_iff_eq_or_transGen.mp h with rfl | h
    · exact hne rfl
    · have := leadsTo_of_transGen (follow_not_alias hc (Nat.lt_succ_self _) b) h
      simp [hba] at this
  intro name hn
  rcases transGen_insert hn with h | ⟨h, h'⟩
  · exact hc name h
  · exact hno (h'.trans h)

end Blueprint.Names
