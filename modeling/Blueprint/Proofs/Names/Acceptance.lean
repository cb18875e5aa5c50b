import Blueprint.Proofs.Names.Sound

/-!
# What is accepted

The other side of what `define` and `pointAlias` leave : when they are accepted. A name that is not
blank may be defined if definitions may be overridden or it is free (`exists_define_eq_ok`). An
alias may be pointed at a name if the checks of its spelling and its present meaning pass
(`Pointable`) and the name does not lead back to it (`Pointable.exists_eq_ok`). Under every policy
free names are accepted (`value_define_of_free`, `value_pointAlias_of_free`).
-/

namespace Blueprint.Names

open Relation

variable {policy : Policy} {n : Names} {name aliasName : String} {d : Definition}

/-- A free name is given its definition, whatever may be overridden. -/
theorem value_define_of_free (policy : Policy) (hb : Text.isBlank name = false)
    (hfree : n.inUse name = false) (d : Definition) :
    (n.define policy name d).value =
      .ok { n with definitions := n.definitions.insert name d } := by
  simp only [inUse, Bool.or_eq_false_iff] at hfree
  simp [define, hb, Table.get?_eq_none_iff.mpr hfree.1, Table.get?_eq_none_iff.mpr hfree.2]

/-- A free alias is pointed at a name that is no alias, whatever may be overridden. Aliases that
have no target yet do not get in the way, as the name leads nowhere. -/
theorem value_pointAlias_of_free (policy : Policy) (hb : Text.isBlank name = false)
    (hba : Text.isBlank aliasName = false) (hne : aliasName ≠ name)
    (hfree : n.inUse aliasName = false) (hplain : n.aliases.contains name = false) :
    (n.pointAlias policy name aliasName).value =
      .ok (some { n with aliases := n.aliases.insert aliasName name }) := by
  simp only [inUse, Bool.or_eq_false_iff] at hfree
  have hend : n.aliases.get? name = none := Table.get?_eq_none_iff.mpr hplain
  have hcanonical : n.canonical name = name := by rw [canonical, follow, hend]
  have hleads : leadsTo n.aliases aliasName (n.aliases.size + 1) name = false := by
    rw [leadsTo, hend]
  simp [pointAlias, pointAlias.insertAlias, hb, hba, hne, hne.symm, hfree.1,
    Table.get?_eq_none_iff.mpr hfree.2, hcanonical, hleads]

/-- A definition is accepted if its name may be taken. -/
theorem exists_define_eq_ok (hb : Text.isBlank name = false)
    (h : policy.overrideDefinitions = true ∨ n.inUse name = false) (d : Definition) :
    ∃ n', (n.define policy name d).value = .ok n' := by
  rcases h with ho | hfree
  · cases h : (n.define policy name d).value with
    | ok n' => exact ⟨n', rfl⟩
    | error e => simp [isBlank_of_define_eq_error ho h] at hb
  · exact ⟨_, value_define_of_free policy hb hfree d⟩

/-- What is checked before an alias is pointed at a name. An alias may stay as it is if it points
there already, or is to be dropped and is none. -/
structure Pointable (policy : Policy) (n : Names) (name aliasName : String) : Prop where
  name_not_blank : Text.isBlank name = false
  alias_not_blank : Text.isBlank aliasName = false
  undefined : aliasName ≠ name → n.definitions.contains aliasName = false
  same_target : aliasName ≠ name → policy.overrideAliases = false →
    ∀ target, n.aliases.get? aliasName = some target → target = name

/-- An alias that is accepted has passed the checks. -/
theorem pointable_of_pointAlias {after : Option Names}
    (h : (n.pointAlias policy name aliasName).value = .ok after) :
    Pointable policy n name aliasName := by
  unfold pointAlias at h
  cases hb : Text.isBlank name with
  | true => simp [hb] at h
  | false =>
  cases hba : Text.isBlank aliasName with
  | true => simp [hb, hba] at h
  | false =>
  refine ⟨hb, hba, fun hself => ?_,
    fun hself ho target ht => Decidable.byContradiction fun hne => ?_⟩
  · cases hd : n.definitions.contains aliasName with
    | true => simp [hb, hba, hself, hd] at h
    | false => rfl
  · cases hd : n.definitions.contains aliasName <;> simp [hb, hba, hself, hd, ht, hne, ho] at h

/-- Tables that stay as they are hold what was asked for. -/
theorem get?_of_pointAlias_eq_none (h : (n.pointAlias policy name aliasName).value = .ok none) :
    n.aliases.get? aliasName = if aliasName = name then none else some name := by
  have hp := pointable_of_pointAlias h
  unfold pointAlias at h
  by_cases hself : aliasName = name
  · cases hk : n.aliases.contains aliasName with
    | true => simp [hp.name_not_blank, hself, hself ▸ hk] at h
    | false => rw [if_pos hself, Table.get?_eq_none_iff.mpr hk]
  · rw [if_neg hself]
    have not_inserted : (pointAlias.insertAlias n name aliasName).value ≠ .ok none := by
      unfold pointAlias.insertAlias
      split <;> simp
    cases ha : n.aliases.get? aliasName with
    | none =>
      simp [hp.name_not_blank, hp.alias_not_blank, hself, hp.undefined hself, ha,
        not_inserted] at h
    | some existing =>
      by_cases he : existing = name
      · rw [he]
      · cases ho : policy.overrideAliases <;>
          simp [hp.name_not_blank, hp.alias_not_blank, hself, hp.undefined hself, ha, he, ho,
            not_inserted] at h

/-- An alias that was pointed at a name has it as its target, unless it was to be dropped. What is
so already stays as it is. -/
theorem tables_of_pointAlias {after : Option Names}
    (h : (n.pointAlias policy name aliasName).value = .ok after) :
    (after.getD n).definitions = n.definitions ∧
      (∀ x, (after.getD n).aliases.get? x =
        if x = aliasName then if aliasName = name then none else some name
        else n.aliases.get? x) ∧
      (n.aliases.get? aliasName = (if aliasName = name then none else some name) →
        (after.getD n).aliases = n.aliases) := by
  cases after with
  | none =>
    refine ⟨rfl, fun x => ?_, fun _ => rfl⟩
    split
    · rename_i hx
      rw [hx]
      exact get?_of_pointAlias_eq_none h
    · rfl
  | some n' =>
    cases pointAlias_eq_some h with
    | dropped self known =>
      refine ⟨rfl, fun x => by simp [Table.get?_erase, self], fun hsame => ?_⟩
      rw [if_pos self, Table.get?_eq_none_iff, known] at hsame
      cases hsame
    | pointed other =>
      refine ⟨rfl, fun x => by simp [Table.get?_insert, other], fun hsame => ?_⟩
      exact Table.insert_of_get? (hsame.trans (if_neg other))

/-- A name that is found on a walk is reached. -/
theorem transGen_of_leadsTo {aliases : Table String String} {b : String} :
    ∀ {steps : Nat} {a : String}, leadsTo aliases b steps a = true →
      TransGen (PointsAt aliases) a b
  | steps + 1, a, h => by
    cases ha : aliases.get? a with
    | none => simp [leadsTo, ha] at h
    | some c =>
      simp only [leadsTo, ha, Bool.or_eq_true, beq_iff_eq] at h
      rcases h with rfl | h
      · exact .single ha
      · exact .head ha (transGen_of_leadsTo h)

/-- An alias that passes the checks is accepted, if the name does not lead back to it. -/
theorem Pointable.exists_eq_ok (h : Pointable policy n name aliasName)
    (haway : aliasName ≠ name → ¬TransGen (PointsAt n.aliases) name aliasName) :
    ∃ after, (n.pointAlias policy name aliasName).value = .ok after := by
  unfold pointAlias
  by_cases hself : aliasName = name
  · cases n.aliases.contains aliasName <;> simp [h.name_not_blank, hself]
  · have inserted : ∃ after, (pointAlias.insertAlias n name aliasName).value = .ok after := by
      have hcanonical : n.canonical name ≠ aliasName := by
        intro he
        have hwalk : ReflTransGen (PointsAt n.aliases) name aliasName :=
          he ▸ reflTransGen_follow _ name
        rcases reflTransGen_iff_eq_or_transGen.mp hwalk with he | hwalk
        · exact hself he
        · exact haway hself hwalk
      have hleads : leadsTo n.aliases aliasName (n.aliases.size + 1) name = false :=
        eq_false_of_ne_true fun hl => haway hself (transGen_of_leadsTo hl)
      simp [pointAlias.insertAlias, hcanonical, hleads]
    cases ha : n.aliases.get? aliasName with
    | none =>
      simpa [h.name_not_blank, h.alias_not_blank, hself, h.undefined hself, ha] using inserted
    | some existing =>
      by_cases he : existing = name
      · simp [h.name_not_blank, h.alias_not_blank, hself, h.undefined hself, he]
      · have ho : policy.overrideAliases = true :=
          eq_true_of_ne_false fun ho => he (h.same_target hself ho existing ha)
        simpa [h.name_not_blank, h.alias_not_blank, hself, h.undefined hself, ha, he, ho]
          using inserted

end Blueprint.Names
