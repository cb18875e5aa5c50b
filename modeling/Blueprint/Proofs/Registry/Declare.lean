import Blueprint.Proofs.Names.Undo
import Blueprint.Registry.Basic

/-!
# What the checked writes leave of a registry

`register`, `registerAlias`, `registerAliases` and `declare` as equations on values, with the
events left out. A list of aliases keeps what each of them keeps
(`registerAliases_induction`).

A declaration that is refused leaves the names as they were, but for the place of an alias of the
declared name that may be overridden by a definition (`names_declare_of_error`) : the definition
erases it, and the restoration puts it behind all other aliases.
-/

namespace Blueprint.Registry

variable {r r' : Registry} {name aliasName : String} {aliases : List String} {d : Declaration}
  {e : Error}

/-! ## Values -/

/-- `register` leaves the registry alone if the definition is refused. -/
theorem value_register (r : Registry) (name : String) (d : Definition) :
    (r.register name d).value = match (r.names.define r.policy name d).value with
      | .error e => (.error e, r)
      | .ok names => (.ok (), r.withNames names) := by
  rw [register, Traced.value_bind]
  cases (r.names.define r.policy name d).value <;> rfl

/-- `registerAlias` writes the names if the alias is accepted and not there yet. -/
theorem value_registerAlias (r : Registry) (name aliasName : String) :
    (r.registerAlias name aliasName).value =
      match (r.names.pointAlias r.policy name aliasName).value with
      | .error e => (.error e, r)
      | .ok none => (.ok (), r)
      | .ok (some names) => (.ok (), r.withNames names) := by
  rw [registerAlias, Traced.value_bind]
  cases (r.names.pointAlias r.policy name aliasName).value with
  | error e => rfl
  | ok names => cases names <;> rfl

/-- `registerAliases` stops at the first alias that is refused, and keeps those before it. -/
theorem value_registerAliases (r : Registry) (name aliasName : String) (rest : List String) :
    (r.registerAliases name (aliasName :: rest)).value =
      match (r.names.pointAlias r.policy name aliasName).value with
      | .error e => (some (aliasName, e), r)
      | .ok none => (r.registerAliases name rest).value
      | .ok (some names) => ((r.withNames names).registerAliases name rest).value := by
  rw [registerAliases, Traced.value_bind, value_registerAlias]
  cases (r.names.pointAlias r.policy name aliasName).value with
  | error e => rfl
  | ok names => cases names <;> rfl

/-- `declare` restores the names if one of its aliases is refused. -/
theorem value_declare (r : Registry) (d : Declaration) :
    (r.declare d).value = match (r.names.define r.policy d.name d.definition).value with
      | .error e => (.error e, r)
      | .ok names =>
        match ((r.withNames names).registerAliases d.name d.aliases).value with
        | (none, done) => (.ok (), done)
        | (some (_, e), partly) =>
          (.error e, partly.withNames (r.names.restore d.name d.aliases partly.names)) := by
  rw [declare, Traced.value_bind, value_register]
  cases (r.names.define r.policy d.name d.definition).value with
  | error e => rfl
  | ok names =>
    simp only [Traced.value_bind]
    rcases ((r.withNames names).registerAliases d.name d.aliases).value with ⟨_ | _, _⟩ <;> rfl

/-! ## Lists of aliases -/

/-- What holds of a registry and is kept whenever one of the aliases is pointed at the name. -/
theorem registerAliases_induction {P : Registry → Prop}
    (step : ∀ r aliasName names, aliasName ∈ aliases → P r →
      Names.Pointed r.names name aliasName names → P (r.withNames names)) (hr : P r) :
    P (r.registerAliases name aliases).value.2 := by
  induction aliases generalizing r with
  | nil => exact hr
  | cons aliasName rest ih =>
    have later := fun r a names ha => step r a names (List.mem_cons_of_mem aliasName ha)
    rw [value_registerAliases]
    split
    · exact hr
    · exact ih later hr
    · exact ih later (step r aliasName _ List.mem_cons_self hr (Names.pointAlias_eq_some ‹_›))

/-- Pointing an alias keeps the names sound. -/
theorem sound_registerAlias (hr : r.names.Sound) (name aliasName : String) :
    (r.registerAlias name aliasName).value.2.names.Sound := by
  rw [value_registerAlias]
  split
  · exact hr
  · exact hr
  · exact hr.pointed (Names.pointAlias_eq_some ‹_›)

/-- Pointing aliases keeps the names sound, also where it stops. -/
theorem sound_registerAliases (hr : r.names.Sound) (name : String) (aliases : List String) :
    (r.registerAliases name aliases).value.2.names.Sound :=
  registerAliases_induction (P := fun r => r.names.Sound) (fun _ _ _ _ h hp => h.pointed hp) hr

/-- Aliases that were pointed at a name that is none leave the definitions and grow the aliases. -/
theorem grown_registerAliases (h : r.names.aliases.contains name = false) (aliases : List String) :
    (r.registerAliases name aliases).value.2.names.definitions = r.names.definitions ∧
      Names.Grown name aliases r.names.aliases
        (r.registerAliases name aliases).value.2.names.aliases := by
  refine registerAliases_induction (P := fun s => s.names.definitions = r.names.definitions ∧
    Names.Grown name aliases r.names.aliases s.names.aliases) ?_
    ⟨rfl, Names.grown_refl h aliases⟩
  intro s aliasName names ha hs hp
  refine ⟨?_, hs.2.pointed ha hp⟩
  cases hp <;> exact hs.1

/-! ## Declarations -/

/-- A declaration that is refused leaves the names as they were, with the declared name as the
last alias if it was one and could be overridden. -/
theorem names_declare_of_error (hr : r.names.Sound) (h : (r.declare d).value = (.error e, r')) :
    r'.names =
      if r.policy.overrideDefinitions then r.names.moveAliasLast d.name else r.names := by
  rw [value_declare] at h
  cases hdef : (r.names.define r.policy d.name d.definition).value with
  | error e' =>
    simp only [hdef, Prod.mk.injEq] at h
    rw [← h.2]
    split
    · have blank := Names.isBlank_of_define_eq_error ‹_› hdef
      refine (Names.moveAliasLast_of_not_contains ?_).symm
      cases ha : r.names.aliases.get? d.name with
      | none => exact Table.get?_eq_none_iff.mp ha
      | some target => simp [(hr.alias_not_blank _ _ ha).1] at blank
    · rfl
  | ok names =>
    obtain ⟨-, hdefs, -, hfree⟩ := Names.define_eq_ok hdef
    have haliases := hr.aliases_of_define hdef
    have hgone : (r.withNames names).names.aliases.contains d.name = false := by
      simp [withNames, haliases, Table.contains_erase]
    obtain ⟨hsame, hgrown⟩ := grown_registerAliases hgone d.aliases
    simp only [hdef] at h
    rcases hs : ((r.withNames names).registerAliases d.name d.aliases).value with
      ⟨_ | ⟨aliasName, e'⟩, partly⟩
    · simp [hs] at h
    · simp only [hs, Prod.mk.injEq] at h hsame hgrown
      rw [← h.2]
      have restored : r.names.restore d.name d.aliases partly.names =
          r.names.moveAliasLast d.name :=
        Names.restore_of_grown (hsame.trans hdefs) (haliases ▸ hgrown)
      split
      · exact restored
      · rename_i ho
        refine restored.trans (Names.moveAliasLast_of_not_contains ?_)
        cases hd : r.names.definitions.contains d.name with
        | true => exact hr.disjoint _ hd
        | false => exact hfree (by simpa using ho) hd

/-- What the tables hold for a name is the same after a declaration that is refused. -/
theorem get?_names_declare_of_error (hr : r.names.Sound)
    (h : (r.declare d).value = (.error e, r')) :
    r'.names.definitions = r.names.definitions ∧
      ∀ name, r'.names.aliases.get? name = r.names.aliases.get? name := by
  rw [names_declare_of_error hr h]
  split
  · exact ⟨rfl, fun name => Table.get?_moveLast _ _ name⟩
  · exact ⟨rfl, fun _ => rfl⟩

/-- A declaration keeps the names sound, whether or not it is accepted. -/
theorem sound_declare (hr : r.names.Sound) (d : Declaration) :
    (r.declare d).value.2.names.Sound := by
  rcases h : (r.declare d).value with ⟨e | u, r'⟩
  · obtain ⟨hd, ha⟩ := get?_names_declare_of_error hr h
    exact hr.of_get? (fun name => by rw [hd]) ha
  · rw [value_declare] at h
    cases hdef : (r.names.define r.policy d.name d.definition).value with
    | error e => simp [hdef] at h
    | ok names =>
      have hs := sound_registerAliases (r := r.withNames names) (hr.define hdef) d.name d.aliases
      rcases hv : ((r.withNames names).registerAliases d.name d.aliases).value with
        ⟨_ | _, partly⟩
      · simp only [hdef, hv, Prod.mk.injEq] at h
        rw [hv] at hs
        exact h.2 ▸ hs
      · simp [hdef, hv] at h

/-! ## Definitions -/

/-- No definition is written when an alias is pointed. -/
theorem definitions_registerAlias (r : Registry) (name aliasName : String) :
    (r.registerAlias name aliasName).value.2.names.definitions = r.names.definitions := by
  rw [value_registerAlias]
  split
  · rfl
  · rfl
  · cases Names.pointAlias_eq_some ‹_› <;> rfl

theorem definitions_registerAliases (r : Registry) (name : String) (aliases : List String) :
    (r.registerAliases name aliases).value.2.names.definitions = r.names.definitions := by
  refine registerAliases_induction (P := fun s => s.names.definitions = r.names.definitions)
    (fun s aliasName names _ hs hp => ?_) rfl
  cases hp <;> exact hs

/-- A declaration that is accepted adds its definition, and no other. -/
theorem definitions_declare_of_ok (h : (r.declare d).value = (.ok (), r')) :
    r'.names.definitions = r.names.definitions.insert d.name d.definition := by
  rw [value_declare] at h
  cases hdef : (r.names.define r.policy d.name d.definition).value with
  | error e => simp [hdef] at h
  | ok names =>
    have hsame := definitions_registerAliases (r.withNames names) d.name d.aliases
    rcases hs : ((r.withNames names).registerAliases d.name d.aliases).value with ⟨_ | _, done⟩
    · simp only [hdef, hs, Prod.mk.injEq, true_and] at h
      rw [hs] at hsame
      rw [← h, hsame]
      exact (Names.define_eq_ok hdef).2.1
    · simp [hdef, hs] at h

/-- A declaration that is refused leaves the definitions of any registry as they were. -/
theorem definitions_declare_of_error (h : (r.declare d).value = (.error e, r')) :
    r'.names.definitions = r.names.definitions := by
  rw [value_declare] at h
  cases hdef : (r.names.define r.policy d.name d.definition).value with
  | error e =>
    simp only [hdef, Prod.mk.injEq] at h
    rw [h.2]
  | ok names =>
    have hsame := definitions_registerAliases (r.withNames names) d.name d.aliases
    rcases hs : ((r.withNames names).registerAliases d.name d.aliases).value with ⟨_ | _, partly⟩
    · simp [hdef, hs] at h
    · simp only [hdef, hs, Prod.mk.injEq] at h
      rw [hs] at hsame
      rw [← h.2]
      exact Names.definitions_restore (hsame.trans (Names.define_eq_ok hdef).2.1) d.aliases

end Blueprint.Registry
