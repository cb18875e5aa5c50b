import Blueprint.Proofs.Definition.Content
import Blueprint.Proofs.Names.Acceptance

/-!
# Tables that only grow

Tables extend earlier ones if nothing in those was lost, moved or changed : names keep definitions
with the same content, and aliases their targets (`Extends`). Where nothing may be overridden,
definitions and aliases that are accepted extend the tables (`extends_define`,
`extends_pointAlias`). A name that leads to a definition leads there in all later tables, because
an alias is only added under a name that is not defined (`Extends.find?`).
-/

namespace Blueprint.Names

open Relation

variable {policy : Policy} {n n' n'' : Names} {name aliasName : String} {d existing : Definition}

/-- The second tables hold what the first hold, in the same order and before all else. -/
structure Extends (n n' : Names) : Prop where
  definedNames : n.definitions.keys <+: n'.definitions.keys
  aliasNames : n.aliases.keys <+: n'.aliases.keys
  definition : ∀ name d, n.definitions.get? name = some d →
    ∃ d', n'.definitions.get? name = some d' ∧ d.sameContent d' = true
  target : ∀ aliasName target, n.aliases.get? aliasName = some target →
    n'.aliases.get? aliasName = some target

namespace Extends

theorem refl (n : Names) : n.Extends n where
  definedNames := List.prefix_rfl
  aliasNames := List.prefix_rfl
  definition _ d h := ⟨d, h, Definition.sameContent_iff.mpr (.refl d)⟩
  target _ _ h := h

theorem trans (h : n.Extends n') (h' : n'.Extends n'') : n.Extends n'' where
  definedNames := h.definedNames.trans h'.definedNames
  aliasNames := h.aliasNames.trans h'.aliasNames
  definition name d hd := by
    obtain ⟨d', hd', hsame⟩ := h.definition name d hd
    obtain ⟨d'', hd'', hsame'⟩ := h'.definition name d' hd'
    rw [Definition.sameContent_iff] at hsame hsame'
    exact ⟨d'', hd'', Definition.sameContent_iff.mpr (hsame.trans hsame')⟩
  target aliasName target ht := h'.target aliasName target (h.target aliasName target ht)

/-- What a name leads to is found in all later tables, under the same canonical name. -/
theorem find? (h : n.Extends n') (hn' : n'.Sound) (hd : n.find? name = some d) :
    n'.denoted name = n.denoted name ∧
      ∃ d', n'.find? name = some d' ∧ d.sameContent d' = true := by
  obtain ⟨d', hd', hsame⟩ := h.definition (n.denoted name) d hd
  have hwalk : ReflTransGen (PointsAt n'.aliases) (productName name) (n.denoted name) :=
    ReflTransGen.mono h.target _ _ (reflTransGen_follow _ (productName name))
  have hdenoted : n'.denoted name = n.denoted name :=
    hn'.canonical_of_reflTransGen hwalk (hn'.disjoint _ (Table.contains_of_get? hd'))
  exact ⟨hdenoted, d', by rw [Names.find?, hdenoted, hd'], hsame⟩

end Extends

/-! ## What is accepted extends the tables -/

theorem prefix_keys_insert {α : Type} (t : Table String α) (key : String) (a : α) :
    t.keys <+: (t.insert key a).keys := by
  rw [Table.keys_insert]
  split
  · exact List.prefix_rfl
  · exact List.prefix_append _ _

/-- A name that has a definition may be given one of the same content only. -/
theorem sameContent_of_define (ho : policy.overrideDefinitions = false)
    (hd : n.definitions.get? name = some existing)
    (h : (n.define policy name d).value = .ok n') : existing.sameContent d = true := by
  cases hsame : existing.sameContent d with
  | true => rfl
  | false => cases hb : Text.isBlank name <;> simp [define, hb, hd, hsame, ho] at h

/-- Where no definition may be overridden, one that is accepted extends the tables. -/
theorem extends_define (ho : policy.overrideDefinitions = false)
    (h : (n.define policy name d).value = .ok n') : n.Extends n' := by
  obtain ⟨-, hdefinitions, haliases, hfree⟩ := define_eq_ok h
  have hkept : n'.aliases = n.aliases := by
    rw [haliases]
    split
    · rfl
    · exact Table.erase_of_not_contains (hfree ho (eq_false_of_ne_true ‹_›))
  refine ⟨hdefinitions ▸ prefix_keys_insert _ _ _, hkept ▸ List.prefix_rfl, fun x e he => ?_,
    fun a t ht => hkept ▸ ht⟩
  rw [hdefinitions, Table.get?_insert]
  split
  · rename_i hx
    exact ⟨d, rfl, sameContent_of_define ho (hx ▸ he) h⟩
  · exact ⟨e, he, Definition.sameContent_iff.mpr (.refl e)⟩

/-- An alias may be pointed at the name that it stands for already, and at no other. Only an alias
that is pointed at itself is lost. -/
theorem extends_pointAlias {after : Option Names} (ho : policy.overrideAliases = false)
    (hself : aliasName = name → n.aliases.contains aliasName = false)
    (h : (n.pointAlias policy name aliasName).value = .ok after) : n.Extends (after.getD n) := by
  cases after with
  | none => exact .refl n
  | some after =>
    have hp := pointable_of_pointAlias h
    cases pointAlias_eq_some h with
    | dropped self known =>
      rw [hself self] at known
      cases known
    | pointed other =>
      refine ⟨List.prefix_rfl, prefix_keys_insert _ _ _,
        fun x e he => ⟨e, he, Definition.sameContent_iff.mpr (.refl e)⟩, fun a t ht => ?_⟩
      show (n.aliases.insert aliasName name).get? a = some t
      rw [Table.get?_insert]
      split
      · rename_i ha
        rw [hp.same_target other ho t (ha ▸ ht)]
      · exact ht

end Blueprint.Names
