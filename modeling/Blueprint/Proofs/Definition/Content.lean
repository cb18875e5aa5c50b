import Blueprint.Proofs.Definition.Overlay
import Mathlib.Data.List.Perm.Subperm

/-!
# Definitions with the same content

`Definition.sameContent` compares the properties and the lookup methods of two definitions as maps
and passes over the documents they come from. So one of them is the other, from another document
and with these tables in another order (`Restated`, `sameContent_iff`), and no way to put
definitions over each other tells restated definitions apart (`Restated.overlay`).
-/

namespace Blueprint

universe u v

namespace Table

variable {κ : Type u} {α : Type v} [DecidableEq κ] [BEq α] [LawfulBEq α] {t s : Table κ α}

/-- Tables have the same entries just if they hold the same under every key. -/
theorem sameEntries_iff : t.sameEntries s = true ↔ ∀ k, t.get? k = s.get? k := by
  rw [sameEntries, Bool.and_eq_true, beq_iff_eq, List.all_eq_true]
  constructor
  · rintro ⟨hsize, hall⟩ k
    have kept : ∀ k a, t.get? k = some a → s.get? k = some a := by
      intro k a hk
      have he := hall (k, a) (mem_entries_iff.mpr hk)
      cases hs : s.get? k with
      | none => simp [hs] at he
      | some b =>
        simp only [hs, beq_iff_eq] at he
        rw [he]
    -- The keys of the first are among those of the second, and there are as many.
    have hsub : t.keys ⊆ s.keys := by
      intro x hx
      obtain ⟨a, ha⟩ := Option.isSome_iff_exists.mp ((t.isSome_get? x).trans (mem_keys.mp hx))
      exact mem_keys.mpr (contains_of_get? (kept x a ha))
    have hperm : t.keys.Perm s.keys :=
      (t.nodup_keys.subperm hsub).perm_of_length_le (by simp [hsize])
    cases hk : t.get? k with
    | some a => exact (kept k a hk).symm
    | none =>
      refine (get?_eq_none_iff.mpr (eq_false_of_ne_true fun hc => ?_)).symm
      have hmem := mem_keys.mp (hperm.mem_iff.mpr (mem_keys.mpr hc))
      rw [get?_eq_none_iff.mp hk] at hmem
      cases hmem
  · intro h
    refine ⟨size_eq_of_get? h, fun e he => ?_⟩
    rw [← h, mem_entries_iff.mp (show (e.1, e.2) ∈ t.entries from he)]
    exact beq_self_eq_true e.2

end Table

namespace Definition

variable {a b c inherited inherited' : Definition}

/-- The second definition states the first again : from another document, and with its properties
and lookup methods in another order. -/
inductive Restated (d : Definition) : Definition → Prop
  | intro (properties : Table String Value) (lookupMethods : Table String String)
    (resource : Option String) (property : ∀ key, properties.get? key = d.properties.get? key)
    (lookup : ∀ method, lookupMethods.get? method = d.lookupMethods.get? method) :
    Restated d { d with properties, lookupMethods, resource }

/-- Definitions have the same content just if one of them restates the other. -/
theorem sameContent_iff : a.sameContent b = true ↔ a.Restated b := by
  simp only [sameContent, Bool.and_eq_true, beq_iff_eq, Table.sameEntries_iff, and_assoc]
  constructor
  · rintro ⟨hclass, hparent, hscope, hlazy, hprimary, hcandidate, hmode, hargs, hproperty, hlookup,
      hbean, hfactory, hinit, hdestroy, hdepends, habstract, hrole, hdescription⟩
    have hb : b = { a with
        properties := b.properties, lookupMethods := b.lookupMethods, resource := b.resource } := by
      cases b
      simp_all
    rw [hb]
    exact .intro _ _ _ (fun key => (hproperty key).symm) fun method => (hlookup method).symm
  · rintro ⟨properties, lookupMethods, resource, property, lookup⟩
    simp [property, lookup]

namespace Restated

theorem refl (d : Definition) : d.Restated d :=
  .intro d.properties d.lookupMethods d.resource (fun _ => rfl) fun _ => rfl

theorem trans (h : a.Restated b) (h' : b.Restated c) : a.Restated c := by
  cases h with
  | intro _ _ _ property lookup =>
    cases h' with
    | intro properties lookupMethods resource property' lookup' =>
      exact .intro properties lookupMethods resource
        (fun key => (property' key).trans (property key))
        fun method => (lookup' method).trans (lookup method)

/-- Overlays of restated definitions are restated. -/
theorem overlay (h : a.Restated b) (hinherited : inherited.Restated inherited') :
    (a.overlay inherited).Restated (b.overlay inherited') := by
  cases h with
  | intro properties lookupMethods resource property lookup =>
    cases hinherited with
    | intro properties' lookupMethods' resource' property' lookup' =>
      refine .intro _ _ _ (fun key => ?_) fun method => ?_
      · show (overlayProperties properties properties').get? key =
          (overlayProperties a.properties inherited.properties).get? key
        rw [get?_overlayProperties, get?_overlayProperties, property, property']
      · show (lookupMethods'.insertAll lookupMethods).get? method =
          (inherited.lookupMethods.insertAll a.lookupMethods).get? method
        rw [Table.get?_insertAll, Table.get?_insertAll, lookup, lookup']

theorem effectiveScope (h : a.Restated b) : b.effectiveScope = a.effectiveScope := by
  cases h
  rfl

/-- Definitions without their parents are restated as they were with them. -/
theorem rooted (h : a.Restated b) :
    ({ a with parentName := none } : Definition).Restated { b with parentName := none } := by
  cases h with
  | intro properties lookupMethods resource property lookup =>
    exact .intro properties lookupMethods resource property lookup

end Restated

end Definition

end Blueprint
