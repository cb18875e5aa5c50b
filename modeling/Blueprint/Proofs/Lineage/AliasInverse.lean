import Blueprint.Proofs.Lineage.Run
import Blueprint.Proofs.Names.AliasClosure

/-!
# Aliases are listed where they are followed

The aliases of a name are found backwards, by a search that keeps a stack of names, and an alias is
resolved forwards, one target after the other. In every registry of a run both agree
(`aliasesOf_of_mem_run`) : the search ends, and what it lists are the names from which the name is
passed, each of them once. That is so for names that are nowhere defined, too, and for names in the
middle of a chain. At the end of a chain, that is for a name that is no alias, they are the names
that it is the canonical name of.
-/

namespace Blueprint

namespace Lineage

open Names Relation

/-- Whatever was asked before, the search for the aliases of a name ends, lists none of them twice,
and lists just the other names from which the aliases, followed one at a time, come to the name. -/
theorem aliasesOf_of_mem_run (policies : List Policy) (requests : List (Nat × Request))
    {r : Registry} (hr : r ∈ (founded policies).run requests) (name : String) :
    r.names.Searched name [name] [] (r.names.aliasesOf name) ∧
    (r.names.aliasesOf name).Nodup ∧
    (∀ aliasName, aliasName ∈ r.names.aliasesOf name ↔
      aliasName ≠ name ∧ ∃ steps, follow r.names.aliases steps aliasName = name) ∧
    (r.names.aliases.contains name = false → ∀ aliasName, aliasName ∈ r.names.aliasesOf name ↔
      aliasName ≠ name ∧ r.names.canonical aliasName = name) := by
  have hs := sound_of_mem_run policies requests hr
  have hlisted (aliasName : String) : aliasName ∈ r.names.aliasesOf name ↔
      aliasName ≠ name ∧ ReflTransGen (PointsAt r.names.aliases) aliasName name := by
    rw [hs.mem_aliasesOf_iff, reflTransGen_iff_eq_or_transGen]
    constructor
    · intro h
      exact ⟨fun he => hs.acyclic name (he ▸ h), .inr h⟩
    · rintro ⟨hne, he | h⟩
      · exact absurd he.symm hne
      · exact h
  refine ⟨searched_aliasesOf _ _, nodup_aliasesOf _ _, fun aliasName => ?_,
    fun hend aliasName => ?_⟩
  · rw [hlisted, exists_follow_eq_iff]
  · rw [hlisted]
    refine and_congr_right fun _ => ⟨fun h => hs.canonical_of_reflTransGen h hend, ?_⟩
    rintro rfl
    exact reflTransGen_follow _ aliasName

/-- A tree of aliases over a name that is defined only later and removed again. -/
def danglingAliases : List (Nat × Request) := [
  (0, .change (.registerAlias "store" "cache")), (0, .change (.registerAlias "cache" "fast")),
  (0, .change (.registerAlias "store" "disk")), (0, .change (.registerAlias "cache" "quick")),
  (0, .change (.register "store" {})), (0, .change (.remove "store"))]

theorem aliasesOf_danglingAliases :
    ∃ r ∈ (founded [{}]).run danglingAliases,
      r.names.definitions.keys = [] ∧
      r.names.aliasesOf "store" = ["cache", "disk", "fast", "quick"] ∧
      (∃ steps, follow r.names.aliases steps "fast" = "cache") ∧
      r.names.canonical "quick" = "store" ∧ "disk" ∉ r.names.aliasesOf "cache" := by
  have h : ((founded [{}]).run danglingAliases).map
      (fun r => (r.names.definitions.keys, r.names.aliasesOf "store", r.names.aliasesOf "cache",
        r.names.aliases.contains "store")) =
      [([], ["cache", "disk", "fast", "quick"], ["fast", "quick"], false)] := by decide +kernel
  obtain ⟨r, hrun, hr⟩ := List.map_eq_singleton_iff.mp h
  simp only [Prod.mk.injEq] at hr
  obtain ⟨hdefined, hstore, hcache, hend⟩ := hr
  have hmem : r ∈ (founded [{}]).run danglingAliases := hrun ▸ List.mem_singleton_self r
  obtain ⟨-, -, hpassed, -⟩ := aliasesOf_of_mem_run [{}] danglingAliases hmem "cache"
  obtain ⟨-, -, -, hcanonical⟩ := aliasesOf_of_mem_run [{}] danglingAliases hmem "store"
  exact ⟨r, hmem, hdefined, hstore, ((hpassed "fast").mp (by simp [hcache])).2,
    ((hcanonical hend "quick").mp (by simp [hstore])).2, by simp [hcache]⟩

end Lineage

end Blueprint
