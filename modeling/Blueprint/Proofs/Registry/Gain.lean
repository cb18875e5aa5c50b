import Blueprint.Proofs.Names.Acceptance
import Blueprint.Proofs.Registry.Declare

/-!
# Fresh declarations

A declaration is `Fresh` for some names if its name and aliases are spelled, in no use and all
different. Every registry accepts it, whatever may be overridden there, and has it behind all that
was there before (`Registry.declare_of_fresh`). Nothing else is asked of the registry : aliases that
already point at the new name may stand in it, and start to lead somewhere.
-/

namespace Blueprint

/-- A declaration whose name and aliases are not blank, belong to nothing and are all different. -/
structure Declaration.Fresh (n : Names) (d : Declaration) : Prop where
  not_blank : ∀ x ∈ d.name :: d.aliases, Text.isBlank x = false
  free : ∀ x ∈ d.name :: d.aliases, n.inUse x = false
  distinct : (d.name :: d.aliases).Nodup

/-- The names with a declaration behind everything else, which stays as it is and where it is. -/
structure Names.Gains (d : Declaration) (before after : Names) : Prop where
  definitions : after.definitions.entries = before.definitions.entries ++ [(d.name, d.definition)]
  aliases : after.aliases.entries = before.aliases.entries ++ d.aliases.map fun a => (a, d.name)

/-- The declared name comes behind those that were defined before. -/
theorem Names.Gains.keys {d : Declaration} {before after : Names} (h : Gains d before after) :
    after.definitions.keys = before.definitions.keys ++ [d.name] := by
  rw [Table.keys, h.definitions, List.map_append, List.map_singleton, Table.keys]

/-- A definition brings no name into use but its own. -/
theorem Names.inUse_insert_definition {n : Names} {x name : String} (h : x ≠ name)
    (d : Definition) :
    ({ n with definitions := n.definitions.insert name d } : Names).inUse x = n.inUse x := by
  simp [inUse, Table.contains_insert, h]

/-- An alias brings no name into use but its own. -/
theorem Names.inUse_insert_alias {n : Names} {x aliasName : String} (h : x ≠ aliasName)
    (name : String) :
    ({ n with aliases := n.aliases.insert aliasName name } : Names).inUse x = n.inUse x := by
  simp [inUse, Table.contains_insert, h]

namespace Registry

variable {name : String}

/-- Aliases that are spelled, in no use and all different are accepted, and come behind those that
were there. -/
theorem registerAliases_of_free (hname : Text.isBlank name = false) :
    ∀ {r : Registry} (aliases : List String), r.names.aliases.contains name = false →
      (∀ a ∈ aliases, Text.isBlank a = false) → (∀ a ∈ aliases, r.names.inUse a = false) →
      (name :: aliases).Nodup →
      ∃ r', (r.registerAliases name aliases).value = (none, r') ∧
        r'.names.definitions = r.names.definitions ∧
        r'.names.aliases.entries = r.names.aliases.entries ++ aliases.map fun a => (a, name)
  | r, [], _, _, _, _ => ⟨r, rfl, rfl, by simp⟩
  | r, aliasName :: rest, hplain, hblank, hfree, hdistinct => by
    have hne : aliasName ≠ name := by
      rintro rfl
      exact (List.nodup_cons.mp hdistinct).1 List.mem_cons_self
    have hthis : r.names.inUse aliasName = false := hfree _ List.mem_cons_self
    have haccepted := Names.value_pointAlias_of_free r.policy hname
      (hblank _ List.mem_cons_self) hne hthis hplain
    -- The others stay free, as they are different from the alias that was added.
    have hrest : (aliasName :: rest).Nodup := (List.nodup_cons.mp hdistinct).2
    obtain ⟨r', hr', hdefinitions, haliases⟩ := registerAliases_of_free hname
      (r := r.withNames { r.names with aliases := r.names.aliases.insert aliasName name })
      rest (by simp [withNames, Table.contains_insert, hplain, hne.symm])
      (fun a ha => hblank a (List.mem_cons_of_mem _ ha))
      (fun a ha => by
        have hother : a ≠ aliasName := by
          rintro rfl
          exact (List.nodup_cons.mp hrest).1 ha
        exact (Names.inUse_insert_alias hother name).trans (hfree a (List.mem_cons_of_mem _ ha)))
      (hdistinct.sublist (.cons_cons _ (List.sublist_cons_self _ _)))
    refine ⟨r', ?_, hdefinitions, haliases.trans ?_⟩
    · rw [value_registerAliases, haccepted]
      exact hr'
    · simp only [Names.inUse, Bool.or_eq_false_iff] at hthis
      simp [withNames, Table.entries_insert_of_not_contains hthis.2]

/-- A fresh declaration is accepted under every policy and adds nothing but itself. -/
theorem declare_of_fresh {r : Registry} {d : Declaration} (h : d.Fresh r.names) :
    ∃ r', (r.declare d).value = (.ok (), r') ∧ Names.Gains d r.names r'.names := by
  have hblank := h.not_blank d.name List.mem_cons_self
  have hfree := h.free d.name List.mem_cons_self
  have hdefine := Names.value_define_of_free r.policy hblank hfree d.definition
  have hnone : r.names.definitions.contains d.name = false ∧
      r.names.aliases.contains d.name = false := by
    simpa [Names.inUse] using hfree
  obtain ⟨r', hr', hdefinitions, haliases⟩ := registerAliases_of_free hblank
    (r := r.withNames
      { r.names with definitions := r.names.definitions.insert d.name d.definition })
    d.aliases hnone.2 (fun a ha => h.not_blank a (List.mem_cons_of_mem _ ha))
    (fun a ha => by
      have hother : a ≠ d.name := by
        rintro rfl
        exact (List.nodup_cons.mp h.distinct).1 ha
      exact (Names.inUse_insert_definition hother _).trans
        (h.free a (List.mem_cons_of_mem _ ha)))
    h.distinct
  refine ⟨r', ?_, ?_, haliases⟩
  · rw [value_declare, hdefine]
    simp only [hr']
  · rw [hdefinitions]
    exact Table.entries_insert_of_not_contains hnone.1 _

end Registry

end Blueprint
