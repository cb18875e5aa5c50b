import Blueprint.Proofs.Names.Agreement
import Blueprint.Proofs.Registry.Introduction

/-!
# Introducing the same names again

Introductions that were accepted need not be accepted a second time. A definition takes the place
of an alias, but an alias does not take the place of a definition : whoever points an alias at
another name and then defines it is refused when he points it again (`Introduced.undefined_again`).
If they are accepted, the tables hold what they held before (`Introduced.agrees_again`,
`Introduced.definitions_again`).

Introductions that all hold in the end (`Standing`) are accepted again and change nothing
(`Introduced.exists_again`, `Introduced.names_again`). They hold in the end unless an alias is
defined or dropped (`Introduced.standing`).
-/

namespace Blueprint

variable {r s s' : Registry} {is : List Introduction} {x aliasName target : String}
  {d : Definition}

namespace Introduced

/-! ## What the second time leaves -/

/-- What is defined stays defined. -/
theorem defined_of_defined (h : Introduced r is s) (hr : r.names.Sound)
    (hx : r.names.definitions.contains x = true) : s.names.definitions.contains x = true := by
  refine (h.induction (P := fun s => s.names.definitions.contains x = true) ?_ hr hx).2
  intro _ i _ _ ha hx
  rw [ha.definitions]
  cases i with
  | definition name d => simp [Introduction.define, Table.contains_insert, hx]
  | aliasing aliasName target => exact hx

theorem defined_of_mem (h : Introduced r is s) (hr : r.names.Sound) (hd : .definition x d ∈ is) :
    s.names.definitions.contains x = true := by
  obtain ⟨_, _, u, u', -, -, ha, hback⟩ := h.exists_accepted hr hd
  refine hback.defined_of_defined ha.sound ?_
  rw [ha.definitions, Introduction.define, Table.contains_insert, decide_eq_true rfl,
    Bool.true_or]

/-- The tables hold the same under every name when introductions are accepted again. -/
theorem agrees_again (h : Introduced r is s) (h' : Introduced s is s') (hr : r.names.Sound) :
    s'.names.Agrees s.names where
  definition x := by
    rw [h'.definition_eq (h.sound hr), h.definition_eq hr, ← Option.or_assoc, Option.or_self]
  target x := by
    rw [h'.target_eq (h.sound hr), h.target_eq hr]
    cases (is.filterMap (·.targetOf? x)).getLast? <;> rfl

/-- So the definitions are the same, in the same order. -/
theorem definitions_again (h : Introduced r is s) (h' : Introduced s is s') (hr : r.names.Sound) :
    s'.names.definitions = s.names.definitions := by
  refine Table.ext_get? ?_ (h.agrees_again h' hr).definition
  refine (h'.induction (P := fun u => u.names.definitions.keys = s.names.definitions.keys) ?_
    (h.sound hr) rfl).2
  intro u i _ hi ha hkeys
  rw [ha.definitions]
  cases i with
  | definition name d =>
    have hdefined : name ∈ u.names.definitions.keys := by
      rw [hkeys, Table.mem_keys]
      exact h.defined_of_mem hr hi
    rw [Introduction.define, Table.keys_insert_of_contains (Table.mem_keys.mp hdefined), hkeys]
  | aliasing aliasName target => exact hkeys

/-- An alias that is defined as well is refused the second time. -/
theorem undefined_again (h : Introduced r is s) (h' : Introduced s is s') (hr : r.names.Sound)
    (ha : States is aliasName target) : .definition aliasName d ∉ is := by
  intro hd
  have hs := h.sound hr
  obtain ⟨_, _, u, u', -, hfront, haccepted, -⟩ := h'.exists_accepted hs ha.2
  have hfree := haccepted.undefined target (Introduction.target?_eq_some.mpr ⟨ha.1, rfl⟩)
  have hdefined := hfront.defined_of_defined hs (h.defined_of_mem hr hd)
  exact Bool.false_ne_true (hfree.symm.trans hdefined)

/-! ## Whether there is a second time -/

theorem within (h : Introduced r is s) (hr : r.names = {}) : Within is s.names :=
  (h.induction (P := fun s => Within is s.names) (fun _ _ _ hi ha => ha.within hi)
    (hr ▸ Names.sound_empty) (hr ▸ within_empty is)).2

/-- Introductions that do not contradict each other are accepted again. -/
theorem exists_again (h : Introduced r is s) (hr : r.names = {})
    (ho : r.policy.overrideDefinitions = true) (hc : Consistent is) : ∃ s', Introduced s is s' := by
  have hempty : r.names.Sound := hr ▸ Names.sound_empty
  exact hc.exists_introduced (h.spelled hempty) (List.Subset.refl is) (h.sound hempty)
    (h.within hr) (.inl (h.policy hempty ▸ ho))

/-- An alias keeps its target if nothing else is said about it and it may not change. -/
theorem pointsAt_of_pointsAt (h : Introduced r is s) (hr : r.names.Sound)
    (ho : r.policy.overrideAliases = false)
    (hsame : ∀ i ∈ is, i.name = aliasName → ∃ t, i.target? = some t)
    (ha : Names.PointsAt r.names.aliases aliasName target) :
    Names.PointsAt s.names.aliases aliasName target := by
  refine (h.induction (P := fun u => u.policy.overrideAliases = false ∧
    Names.PointsAt u.names.aliases aliasName target) ?_ hr ⟨ho, ha⟩).2.2
  rintro u i u' hi hu ⟨ho, ha⟩
  refine ⟨hu.policy ▸ ho, ?_⟩
  rw [Names.PointsAt, hu.target]
  split
  · rename_i hname
    obtain ⟨t, ht⟩ := hsame i hi hname.symm
    rw [ht, ← hu.same_target t ht ho target (hname ▸ ha)]
  · exact ha

/-- What is said about aliases still holds in the end, if an alias that was pointed at a name is
neither defined nor pointed at itself nor may be pointed elsewhere. -/
theorem standing (h : Introduced r is s) (hr : r.names = {})
    (ho : r.policy.overrideAliases = false)
    (hdropped : ∀ a t, States is a t → .aliasing a a ∉ is)
    (hdefined : ∀ a t, States is a t → ∀ d, .definition a d ∉ is) : Standing is s.names := by
  have hempty : r.names.Sound := hr ▸ Names.sound_empty
  intro i hi
  cases i with
  | definition name d =>
    exact Table.get?_eq_none_iff.mpr ((h.sound hempty).disjoint _ (h.defined_of_mem hempty hi))
  | aliasing a t =>
    by_cases hself : a = t
    · rw [Introduction.target?, if_pos hself]
      refine Option.eq_none_iff_forall_ne_some.mpr fun t' hat' => ?_
      exact hdropped a t' ((h.within hr).pointed hat') (hself ▸ hi)
    · have stated : States is a t := ⟨hself, hi⟩
      have hpoints : (Introduction.aliasing a t).target? = some t :=
        Introduction.target?_eq_some.mpr ⟨hself, rfl⟩
      obtain ⟨front, back, u, u', heq, hfront, hu, hback⟩ := h.exists_accepted hempty hi
      rw [hpoints]
      -- The alias was pointed at its target once, and nothing behind that takes it away.
      refine hback.pointsAt_of_pointsAt hu.sound (hu.policy ▸ hfront.policy hempty ▸ ho) ?_ ?_
      · intro j hj hname
        have hmem : j ∈ is := by
          rw [heq]
          exact List.mem_append_right _ (List.mem_cons_of_mem _ hj)
        cases j with
        | definition name d =>
          obtain rfl : name = a := hname
          exact absurd hmem (hdefined name t stated d)
        | aliasing b t' =>
          obtain rfl : b = a := hname
          refine ⟨t', Introduction.target?_eq_some.mpr ⟨?_, rfl⟩⟩
          rintro rfl
          exact hdropped b t stated hmem
      · exact (hu.target a).trans ((if_pos rfl).trans hpoints)

/-- The tables stay as they are when introductions that still hold are accepted again. -/
theorem names_again (h : Introduced r is s) (h' : Introduced s is s') (hr : r.names.Sound)
    (hs : Standing is s.names) : s'.names = s.names := by
  have haliases := (h'.induction (P := fun u => u.names.aliases = s.names.aliases)
    (fun u i _ hi ha hu => (ha.aliases (hu ▸ hs i hi)).trans hu) (h.sound hr) rfl).2
  have hdefinitions := h.definitions_again h' hr
  show (⟨s'.names.definitions, s'.names.aliases⟩ : Names) = _
  rw [hdefinitions, haliases]

end Introduced

end Blueprint
