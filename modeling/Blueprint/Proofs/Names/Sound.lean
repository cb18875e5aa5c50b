import Blueprint.Proofs.Names.AliasGraph

/-!
# Sound tables

`Names.Sound` is what every registry keeps : no name is both defined and an alias, no name in the
tables is blank, and the aliases have no cycle. The two operations that can break it are inverted
here once. `define_eq_ok` says which tables a definition leaves, and `pointAlias_eq_some` which
tables an alias leaves (`Pointed`). Both keep the tables sound.
-/

namespace Blueprint.Names

variable {policy : Policy} {n n' : Names} {name aliasName target : String} {d : Definition}

/-! ## What the operations leave -/

/-- A definition that is given a name : the name is no longer an alias, and was not one unless
definitions may be overridden. -/
theorem define_eq_ok (h : (n.define policy name d).value = .ok n') :
    Text.isBlank name = false ∧ n'.definitions = n.definitions.insert name d ∧
      n'.aliases = (if n.definitions.contains name then n.aliases else n.aliases.erase name) ∧
      (policy.overrideDefinitions = false → n.definitions.contains name = false →
        n.aliases.contains name = false) := by
  unfold define at h
  cases hb : Text.isBlank name with
  | true => simp [hb] at h
  | false =>
    cases hd : n.definitions.get? name with
    | some existing =>
      have hc := Table.contains_of_get? hd
      cases hs : existing.sameContent d <;> cases ho : policy.overrideDefinitions <;>
        simp only [hb, hd, hs, ho, Traced.value_bind, Traced.value_pure, Bool.false_eq_true,
          Bool.not_true, Bool.not_false, if_true, if_false, Except.ok.injEq, reduceCtorEq] at h <;>
        subst h <;> simp [hc]
    | none =>
      have hc := Table.get?_eq_none_iff.mp hd
      cases ha : n.aliases.get? name with
      | some old =>
        cases ho : policy.overrideDefinitions <;>
          simp only [hb, hd, ha, ho, Traced.value_bind, Traced.value_pure, Bool.false_eq_true,
            Bool.not_true, Bool.not_false, if_true, if_false, Except.ok.injEq, reduceCtorEq] at h
        subst h
        simp [hc]
      | none =>
        have hca := Table.get?_eq_none_iff.mp ha
        simp only [hb, hd, ha, Traced.value_pure, Bool.false_eq_true, if_false,
          Except.ok.injEq] at h
        subst h
        simp [hc, hca, Table.erase_of_not_contains hca]

/-- If definitions may be overridden only a blank name is refused. -/
theorem isBlank_of_define_eq_error {e : Error} (ho : policy.overrideDefinitions = true)
    (h : (n.define policy name d).value = .error e) : Text.isBlank name = true := by
  unfold define at h
  cases hb : Text.isBlank name with
  | true => rfl
  | false =>
    cases hd : n.definitions.get? name with
    | some existing => cases hs : existing.sameContent d <;> simp [hb, hd, hs, ho] at h
    | none => cases ha : n.aliases.get? name <;> simp [hb, hd, ha, ho] at h

/-- The tables after an alias was pointed at a name, if that changed them. -/
inductive Pointed (n : Names) (name aliasName : String) : Names → Prop
  /-- An alias that is pointed at itself is dropped. -/
  | dropped (self : aliasName = name) (known : n.aliases.contains aliasName = true) :
    Pointed n name aliasName { n with aliases := n.aliases.erase aliasName }
  | pointed (other : aliasName ≠ name) (name_not_blank : Text.isBlank name = false)
    (alias_not_blank : Text.isBlank aliasName = false)
    (undefined : n.definitions.contains aliasName = false)
    (away : leadsTo n.aliases aliasName (n.aliases.size + 1) name = false) :
    Pointed n name aliasName { n with aliases := n.aliases.insert aliasName name }

theorem insertAlias_eq_some
    (h : (pointAlias.insertAlias n name aliasName).value = .ok (some n')) :
    leadsTo n.aliases aliasName (n.aliases.size + 1) name = false ∧
      n' = { n with aliases := n.aliases.insert aliasName name } := by
  unfold pointAlias.insertAlias at h
  split at h
  · simp at h
  · rename_i hc
    simp only [Bool.or_eq_true, decide_eq_true_eq, not_or, Bool.not_eq_true] at hc
    simp only [Traced.value_bind, Traced.value_pure, Except.ok.injEq, Option.some.injEq] at h
    exact ⟨hc.2, h.symm⟩

/-- The tables that an alias leaves, if it changes them. -/
theorem pointAlias_eq_some (h : (n.pointAlias policy name aliasName).value = .ok (some n')) :
    Pointed n name aliasName n' := by
  unfold pointAlias at h
  cases hb : Text.isBlank name with
  | true => simp [hb] at h
  | false =>
  cases hba : Text.isBlank aliasName with
  | true => simp [hb, hba] at h
  | false =>
  by_cases hself : aliasName = name
  · cases hk : n.aliases.contains aliasName with
    | false => simp [hb, hself, hself ▸ hk] at h
    | true =>
      simp only [hb, hself, hself ▸ hk, Bool.false_eq_true, if_true, if_false,
        Traced.value_pure, Except.ok.injEq, Option.some.injEq] at h
      subst h
      exact hself ▸ .dropped rfl (hself ▸ hk)
  · cases hd : n.definitions.contains aliasName with
    | true => simp [hb, hba, hself, hd] at h
    | false =>
      have inserted : (pointAlias.insertAlias n name aliasName).value = .ok (some n') := by
        cases ha : n.aliases.get? aliasName with
        | none => simpa [hb, hba, hself, hd, ha] using h
        | some existing =>
          by_cases he : existing = name
          · simp [hb, hba, hself, hd, ha, he] at h
          · cases ho : policy.overrideAliases <;> simp [hb, hba, hself, hd, ha, he, ho] at h
            exact h
      obtain ⟨hl, rfl⟩ := insertAlias_eq_some inserted
      exact .pointed hself hb hba hd hl

/-! ## Soundness -/

/-- Every name in the tables means something, and one thing only. -/
structure Sound (n : Names) : Prop where
  /-- No name is both defined and an alias. -/
  disjoint : ∀ name, n.definitions.contains name = true → n.aliases.contains name = false
  defined_not_blank : ∀ name, n.definitions.contains name = true → Text.isBlank name = false
  alias_not_blank : ∀ aliasName target, n.aliases.get? aliasName = some target →
    Text.isBlank aliasName = false ∧ Text.isBlank target = false
  acyclic : Acyclic n.aliases

theorem sound_empty : Sound {} where
  disjoint _ h := by cases h
  defined_not_blank _ h := by cases h
  alias_not_blank _ _ h := by cases h
  acyclic := acyclic_empty

/-- Soundness speaks of what the tables hold, not of their order. -/
theorem Sound.of_get? (hn : n.Sound)
    (hd : ∀ name, n'.definitions.get? name = n.definitions.get? name)
    (ha : ∀ name, n'.aliases.get? name = n.aliases.get? name) : n'.Sound where
  disjoint name h := by
    rw [Table.contains_eq_of_get? (ha name)]
    exact hn.disjoint name (Table.contains_eq_of_get? (hd name) ▸ h)
  defined_not_blank name h := hn.defined_not_blank name (Table.contains_eq_of_get? (hd name) ▸ h)
  alias_not_blank a t h := hn.alias_not_blank a t (ha a ▸ h)
  acyclic := hn.acyclic.of_get? fun a b h => ha a ▸ h

theorem Sound.eraseDefinition (hn : n.Sound) (name : String) :
    Sound { n with definitions := n.definitions.erase name } where
  disjoint x h := hn.disjoint x (by simp [Table.contains_erase] at h; exact h.2)
  defined_not_blank x h := hn.defined_not_blank x (by simp [Table.contains_erase] at h; exact h.2)
  alias_not_blank := hn.alias_not_blank
  acyclic := hn.acyclic

/-- Sound tables stay sound without one of their aliases. -/
theorem Sound.eraseAlias (hn : n.Sound) (aliasName : String) :
    Sound { n with aliases := n.aliases.erase aliasName } where
  disjoint x h := by simp [Table.contains_erase, hn.disjoint x h]
  defined_not_blank := hn.defined_not_blank
  alias_not_blank a t h := by
    rw [Table.get?_erase] at h
    split at h
    · cases h
    · exact hn.alias_not_blank a t h
  acyclic := hn.acyclic.erase aliasName

/-- The tables of a definition that was given a name. The name is never an alias after it. -/
theorem Sound.aliases_of_define (hn : n.Sound) (h : (n.define policy name d).value = .ok n') :
    n'.aliases = n.aliases.erase name := by
  obtain ⟨-, -, ha, -⟩ := define_eq_ok h
  rw [ha]
  split
  · exact (Table.erase_of_not_contains (hn.disjoint name ‹_›)).symm
  · rfl

/-- A definition that is accepted leaves sound tables. -/
theorem Sound.define (hn : n.Sound) (h : (n.define policy name d).value = .ok n') : n'.Sound := by
  have ha := hn.aliases_of_define h
  obtain ⟨hb, hd, -, -⟩ := define_eq_ok h
  refine ⟨fun x hx => ?_, fun x hx => ?_, fun a t hat => ?_, ?_⟩
  · rw [hd, Table.contains_insert] at hx
    rw [ha, Table.contains_erase]
    by_cases hxn : x = name
    · simp [hxn]
    · simp only [hxn, decide_false, Bool.false_or] at hx
      simp [hn.disjoint x hx]
  · rw [hd, Table.contains_insert] at hx
    by_cases hxn : x = name
    · exact hxn ▸ hb
    · simp only [hxn, decide_false, Bool.false_or] at hx
      exact hn.defined_not_blank x hx
  · rw [ha] at hat
    exact (hn.eraseAlias name).alias_not_blank a t hat
  · rw [ha]
    exact hn.acyclic.erase name

/-- An alias that is accepted leaves sound tables. -/
theorem Sound.pointed (hn : n.Sound) (h : Pointed n name aliasName n') : n'.Sound := by
  cases h with
  | dropped _ _ => exact hn.eraseAlias aliasName
  | pointed other name_not_blank alias_not_blank undefined away =>
    refine ⟨fun x hx => ?_, hn.defined_not_blank, fun a t hat => ?_,
      hn.acyclic.insert other away⟩
    · have hxa : x ≠ aliasName := fun e => by simp [← e, hx] at undefined
      simp [Table.contains_insert, hxa, hn.disjoint x hx]
    · rw [Table.get?_insert] at hat
      split at hat
      · rename_i ha
        exact ⟨ha ▸ alias_not_blank, Option.some.inj hat ▸ name_not_blank⟩
      · exact hn.alias_not_blank a t hat

/-! ## Where names end -/

/-- The walk to the canonical name always ends by itself, at a name that is no alias. -/
theorem Sound.canonical_not_alias (hn : n.Sound) (name : String) :
    n.aliases.contains (n.canonical name) = false :=
  follow_not_alias hn.acyclic (Nat.lt_succ_self _) name

/-- A name that is no alias is the canonical name of all that lead to it. -/
theorem Sound.canonical_of_reflTransGen (hn : n.Sound)
    (h : Relation.ReflTransGen (PointsAt n.aliases) name target)
    (hend : n.aliases.contains target = false) : n.canonical name = target := by
  have last : ∀ {a b}, n.aliases.contains a = false →
      Relation.ReflTransGen (PointsAt n.aliases) a b → b = a := by
    intro a b ha hab
    rcases Relation.reflTransGen_iff_eq_or_transGen.mp hab with rfl | hab
    · rfl
    · exact absurd hab (not_transGen_of_get?_eq_none (Table.get?_eq_none_iff.mpr ha))
  have hwalk : Relation.ReflTransGen (PointsAt n.aliases) name (n.canonical name) :=
    reflTransGen_follow _ name
  rcases h.total_of_right_unique (fun _ _ _ hb hc => hb.unique hc) hwalk with h | h
  · exact last hend h
  · exact (last (hn.canonical_not_alias name) h).symm

end Blueprint.Names
