import Blueprint.Declaration.Component
import Mathlib.Data.List.Nodup
import Mathlib.Data.List.Perm.Subperm

/-!
# Free names

The number in the name of an unnamed component is looked for among more numbers than there are names
in use, and different numbers make different names (`numbered_inj`). So there always is a free one
(`Declared.isFree_freeNumber`), and the one that is found is the least
(`Declared.isFree_eq_false_of_lt_freeNumber`).
-/

namespace Blueprint

theorem toList_numbered (base : String) (number : Nat) :
    (numbered base number).toList = base.toList ++ '#' :: Nat.toDigits 10 number := by
  rw [numbered, String.toList_append, String.toList_append,
    show toString number = String.ofList (Nat.toDigits 10 number) from
      Nat.toString_eq_ofList_toDigits, String.toList_ofList, List.append_assoc]
  rfl

/-- Different numbers make different names of one base. -/
theorem numbered_inj {base : String} {m n : Nat} : numbered base m = numbered base n ↔ m = n := by
  refine ⟨fun h => ?_, fun h => by rw [h]⟩
  have hlist := congrArg String.toList h
  rw [toList_numbered, toList_numbered] at hlist
  have hdigits := congrArg (Nat.ofDigitChars 10 · 0)
    (List.cons.inj (List.append_cancel_left hlist)).2
  simpa using hdigits

/-- A numbered name is longer than its base. -/
theorem ne_numbered (base : String) (number : Nat) : base ≠ numbered base number := by
  intro h
  have hlength := congrArg (List.length ∘ String.toList) h
  simp only [Function.comp_apply, toList_numbered, List.length_append, List.length_cons] at hlength
  omega

theorem isBlank_numbered (base : String) (number : Nat) :
    Text.isBlank (numbered base number) = false := by
  have hmark : Text.isBlankChar '#' = false := by decide
  simp [Text.isBlank, toList_numbered, hmark]

namespace Declared

variable {declared : Declared} {registered : Names} {name base : String}

/-- A name that nothing has : no definition, no alias and nothing declared so far. -/
structure Unused (declared : Declared) (registered : Names) (name : String) : Prop where
  undefined : registered.definitions.contains name = false
  no_alias : registered.aliases.contains name = false
  undeclared : name ∉ declared.names

/-- The search for a free name accepts what is unused. -/
theorem isFree_iff_unused :
    declared.isFree registered name = true ↔ declared.Unused registered name := by
  simp only [isFree, Names.inUse, Bool.and_eq_true, Bool.not_eq_true', Bool.or_eq_false_iff,
    List.contains_eq_mem, decide_eq_false_iff_not]
  constructor
  · rintro ⟨⟨hd, ha⟩, hn⟩
    exact ⟨hd, ha, hn⟩
  · intro h
    exact ⟨⟨h.undefined, h.no_alias⟩, h.undeclared⟩

/-- The names that cannot be given to an unnamed component. -/
def taken (declared : Declared) (registered : Names) : List String :=
  registered.definitions.keys ++ registered.aliases.keys ++ declared.names

theorem isFree_eq_true_iff : declared.isFree registered name = true ↔
    name ∉ declared.taken registered := by
  simp [isFree, Names.inUse, taken, Table.mem_keys, and_assoc]

/-- The name with the number that is found is free. -/
theorem isFree_freeNumber (declared : Declared) (registered : Names) (base : String) :
    declared.isFree registered (numbered base (declared.freeNumber registered base)) = true := by
  rw [freeNumber]
  generalize hused : registered.definitions.size + registered.aliases.size +
    declared.names.length = used
  cases hfind : (List.range (used + 1)).find? fun k =>
      declared.isFree registered (numbered base k) with
  | some k =>
    have hk := List.find?_some hfind
    exact hk
  | none =>
    -- Otherwise more names than there are in use would be in use.
    have htaken : (List.range (used + 1)).map (numbered base) ⊆ declared.taken registered := by
      intro name hname
      obtain ⟨k, hk, rfl⟩ := List.mem_map.mp hname
      by_contra hfree
      exact List.find?_eq_none.mp hfind k hk (isFree_eq_true_iff.mpr hfree)
    have hnodup : ((List.range (used + 1)).map (numbered base)).Nodup :=
      List.nodup_range.map (fun _ _ h => numbered_inj.mp h)
    have hlength := (hnodup.subperm htaken).length_le
    simp only [List.length_map, List.length_range, taken, List.length_append,
      Table.length_keys] at hlength
    omega

/-- All smaller numbers make names that are taken. -/
theorem isFree_eq_false_of_lt_freeNumber {k : Nat} (h : k < declared.freeNumber registered base) :
    declared.isFree registered (numbered base k) = false := by
  rw [freeNumber] at h
  generalize registered.definitions.size + registered.aliases.size +
    declared.names.length = used at h
  cases hfind : (List.range (used + 1)).find? fun k =>
      declared.isFree registered (numbered base k) with
  | some found =>
    rw [hfind] at h
    simpa using (List.find?_range_eq_some.mp hfind).2.2 k h
  | none =>
    rw [hfind] at h
    simpa using List.find?_range_eq_none.mp hfind k h

end Declared

end Blueprint
