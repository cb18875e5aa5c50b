import Blueprint.Proofs.Lineage.Run

/-!
# Refused declarations

A declaration that is refused is taken back. In a registry of a run every lookup answers as before
it, and so does the list of the definitions. The lists of aliases answer as before unless the
declared name was an alias that a definition may displace and that stood before another alias of
the same target (`alike_declare_of_error_iff`). Then the alias is listed behind that one.
-/

namespace Blueprint

/-- Two registries cannot be told apart by looking up names or listing them. -/
structure Registry.Alike (r' r : Registry) : Prop where
  definition : ∀ name, r'.names.definitions.get? name = r.names.definitions.get? name
  target : ∀ aliasName, r'.names.aliases.get? aliasName = r.names.aliases.get? aliasName
  definedNames : r'.definedNames = r.definedNames
  aliasesOf : ∀ name, r'.names.aliasesOf name = r.names.aliasesOf name

namespace Lineage

/-- A declaration that is refused leaves the registry as it was just if no alias of the declared
name that may be overridden stood before another alias of its target. Only the lists of aliases
can differ. -/
theorem alike_declare_of_error_iff (policies : List Policy) (requests : List (Nat × Request))
    {r r' : Registry} (hr : r ∈ (founded policies).run requests) {d : Declaration} {e : Error}
    (h : (r.declare d).value = (.error e, r')) :
    (r'.Alike r ↔ ¬(r.policy.overrideDefinitions = true ∧ r.names.HasYounger d.name)) ∧
      (∀ name, r'.names.definitions.get? name = r.names.definitions.get? name) ∧
      (∀ aliasName, r'.names.aliases.get? aliasName = r.names.aliases.get? aliasName) ∧
      r'.definedNames = r.definedNames := by
  have hs := sound_of_mem_run policies requests hr
  have hnames := Registry.names_declare_of_error hs h
  obtain ⟨hdefs, htargets⟩ := Registry.get?_names_declare_of_error hs h
  have hdefined : r'.definedNames = r.definedNames := congrArg Table.keys hdefs
  refine ⟨?_, fun name => by rw [hdefs], htargets, hdefined⟩
  have lists : (∀ name, r'.names.aliasesOf name = r.names.aliasesOf name) ↔
      ¬(r.policy.overrideDefinitions = true ∧ r.names.HasYounger d.name) := by
    rw [hnames]
    split
    · rename_i ho
      rw [Names.aliasesOf_moveAliasLast_iff hs, ho]
      simp
    · rename_i ho
      simp [ho]
  exact ⟨fun halike => lists.mp halike.aliasesOf,
    fun hy => ⟨fun name => by rw [hdefs], htargets, hdefined, lists.mpr hy⟩⟩

/-- Two aliases of one target. -/
def twoAliases : List (Nat × Request) := [
  (0, .change (.registerAlias "store" "cache")), (0, .change (.registerAlias "store" "buffer"))]

/-- A definition of the younger alias is refused for its own alias, and nothing has changed. -/
theorem alike_declare_twoAliases :
    ∃ r ∈ (founded [{}]).run twoAliases,
      (r.declare ⟨"buffer", [" "], {}⟩).value.1 = .error (.invalidAlias "buffer" " " .blankAlias) ∧
        (r.declare ⟨"buffer", [" "], {}⟩).value.2.Alike r := by
  have h : ((founded [{}]).run twoAliases).map (fun r =>
      (r.names.aliases.keys, (r.declare ⟨"buffer", [" "], {}⟩).value.1)) =
        [(["cache", "buffer"], .error (.invalidAlias "buffer" " " .blankAlias))] := by
    rfl
  obtain ⟨r, hrun, hr⟩ := List.map_eq_singleton_iff.mp h
  obtain ⟨hkeys, herror⟩ := Prod.mk.inj hr
  have hmem : r ∈ (founded [{}]).run twoAliases := hrun ▸ List.mem_singleton_self r
  refine ⟨r, hmem, herror,
    (alike_declare_of_error_iff _ _ hmem (Prod.ext herror rfl)).1.mpr ?_⟩
  rintro ⟨-, target, other, -, -, hlater⟩
  rw [hkeys] at hlater
  simpa using hlater.eq_of_length rfl

/-- A definition of the older alias is refused in the same way, and the aliases of the target have
changed places. -/
theorem aliasesOf_declare_twoAliases :
    ((founded [{}]).run twoAliases).map (fun r =>
      ((r.declare ⟨"cache", [" "], {}⟩).value.1, r.names.aliasesOf "store",
        (r.declare ⟨"cache", [" "], {}⟩).value.2.names.aliasesOf "store")) =
      [(.error (.invalidAlias "cache" " " .blankAlias), ["cache", "buffer"],
        ["buffer", "cache"])] := by
  rfl

end Lineage

end Blueprint
