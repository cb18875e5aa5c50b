import Blueprint.Proofs.Definition.Content
import Blueprint.Proofs.Names.Undo
import Blueprint.Registry.Lineage

/-!
# Tables that restate others

A table of definitions restates another one if it has the same names in the same order and under
each of them the same definition up to restating it. With the same aliases beside them the two
give names the same meaning, and chains of parents reach equally far, over definitions of which
each is restated (`Restated.ancestry`).

A definition that is given a name again with the same content is always accepted, and leaves
tables that restate those before it (`exists_define_of_sameContent`).
-/

namespace Blueprint

/-- The parent is content. -/
theorem Definition.Restated.parent? {a b : Definition} (h : a.Restated b) :
    b.parent? = a.parent? := by
  cases h
  rfl

/-- A link of the same name to a definition that restates the other. -/
inductive LinkRestated : Link → Link → Prop
  | intro (name : String) {d d' : Definition} (h : d.Restated d') :
    LinkRestated (name, d) (name, d')

/-- Chains that reach equally far, link for link. -/
inductive Ancestry.Restated : Ancestry → Ancestry → Prop
  | unknown : Restated .unknown .unknown
  | rooted {links links' : List Link} (h : List.Forall₂ LinkRestated links links') :
    Restated (.rooted links) (.rooted links')
  | continues {links links' : List Link} (h : List.Forall₂ LinkRestated links links')
    (parent : String) : Restated (.continues links parent) (.continues links' parent)
  | circular (path : List String) : Restated (.circular path) (.circular path)

theorem map_fst_of_restated {links links' : List Link}
    (h : List.Forall₂ LinkRestated links links') :
    links'.map Prod.fst = links.map Prod.fst := by
  induction h with
  | nil => rfl
  | cons hlink _ ih =>
    cases hlink
    rw [List.map_cons, List.map_cons, ih]

namespace Names

variable {n n' : Names} {name : String} {d d' : Definition}

/-- The second tables restate the definitions of the first. -/
structure Restated (n n' : Names) : Prop where
  aliases : n'.aliases = n.aliases
  definedNames : n'.definitions.keys = n.definitions.keys
  definition : ∀ name,
    Option.Rel Definition.Restated (n.definitions.get? name) (n'.definitions.get? name)

namespace Restated

theorem refl (n : Names) : n.Restated n where
  aliases := rfl
  definedNames := rfl
  definition name := by
    cases n.definitions.get? name with
    | none => exact .none
    | some d => exact .some (.refl d)

theorem denoted (h : n.Restated n') (name : String) : n'.denoted name = n.denoted name := by
  rw [Names.denoted, Names.denoted, canonical, canonical, h.aliases]

theorem find? (h : n.Restated n') (name : String) :
    Option.Rel Definition.Restated (n.find? name) (n'.find? name) := by
  rw [Names.find?, Names.find?, h.denoted]
  exact h.definition (n.denoted name)

theorem aliasesOf (h : n.Restated n') (name : String) : n'.aliasesOf name = n.aliasesOf name := by
  rw [Names.aliasesOf, Names.aliasesOf, h.aliases]
  exact gatherAliases_congr (fun found target => by rw [pointingAt, pointingAt, h.aliases]) _ _ _

/-- A walk along restated parents takes the same way. -/
theorem ascend (h : n.Restated n') : ∀ (steps : Nat) {before before' : List Link}
    {link link' : Link}, List.Forall₂ LinkRestated before before' → LinkRestated link link' →
      (n.ascend steps before link).Restated (n'.ascend steps before' link') := by
  intro steps
  induction steps with
  | zero =>
    rintro before before' _ _ hbefore (@⟨name, d, d', hd⟩)
    have hlinks : List.Forall₂ LinkRestated _ _ := .cons (.intro name hd) hbefore
    rw [Names.ascend, Names.ascend]
    simp only [hd.parent?, h.denoted, map_fst_of_restated hlinks]
    cases d.parent? with
    | none => exact .rooted (List.rel_reverse hlinks)
    | some requested =>
      dsimp only
      split
      · exact .continues (List.rel_reverse hlinks) requested
      · split <;> exact .circular _
  | succ steps ih =>
    rintro before before' _ _ hbefore (@⟨name, d, d', hd⟩)
    have hlinks : List.Forall₂ LinkRestated _ _ := .cons (.intro name hd) hbefore
    rw [Names.ascend, Names.ascend]
    simp only [hd.parent?, h.denoted, map_fst_of_restated hlinks]
    cases d.parent? with
    | none => exact .rooted (List.rel_reverse hlinks)
    | some requested =>
      dsimp only
      split
      · exact .continues (List.rel_reverse hlinks) requested
      · split
        · exact .circular _
        · have hnext := h.definition (n.denoted requested)
          generalize n.definitions.get? (n.denoted requested) = next,
            n'.definitions.get? (n.denoted requested) = next' at hnext ⊢
          cases hnext with
          | none => exact .continues (List.rel_reverse hlinks) requested
          | some hnext => exact ih hlinks (.intro _ hnext)

/-- A name has chains of parents that reach equally far, link for link. -/
theorem ancestry (h : n.Restated n') (name : String) :
    (n.ancestry name).Restated (n'.ancestry name) := by
  have hsize : n'.definitions.size = n.definitions.size := by
    rw [← Table.length_keys, h.definedNames, Table.length_keys]
  have hd := h.definition name
  rw [Names.ancestry, Names.ancestry, hsize]
  generalize n.definitions.get? name = found, n'.definitions.get? name = found' at hd ⊢
  cases hd with
  | none => exact .unknown
  | some hd => exact h.ascend _ .nil (.intro name hd)

end Restated

/-- What a name has already can be given to it again. -/
theorem exists_define_of_sameContent (policy : Policy) (hn : n.Sound)
    (hd : n.definitions.get? name = some d)
    (hsame : d.sameContent d' = true) :
    ∃ n', (n.define policy name d').value = .ok n' ∧ n.Restated n' := by
  have hdefined := Table.contains_of_get? hd
  refine ⟨{ n with definitions := n.definitions.insert name d' }, ?_, rfl,
    Table.keys_insert_of_contains hdefined d', fun key => ?_⟩
  · simp [define, hn.defined_not_blank name hdefined, hd, hsame]
  · show Option.Rel _ _ ((n.definitions.insert name d').get? key)
    rw [Table.get?_insert]
    split
    · rename_i hkey
      rw [hkey, hd]
      exact .some (Definition.sameContent_iff.mp hsame)
    · exact (Restated.refl n).definition key

end Names

end Blueprint
