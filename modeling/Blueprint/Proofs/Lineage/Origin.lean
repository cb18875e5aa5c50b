import Blueprint.Proofs.Lineage.Coherence
import Mathlib.Data.List.DropRight
import Mathlib.Data.Option.Basic

/-!
# Where a name leads

A name leads to an entry of a lineage : the nearest registry that has a definition for it, and the
name under which it is there (`Lineage.origin?`). Looking it up and merging it give nothing that
depends on the spelling beyond that, in whatever state the memories are
(`get_of_origin?_eq`, `merge_of_origin?_eq`).

So a name and its canonical name can be exchanged if they lead to the same entry
(`interchange_of_run`). They do if the nearest registry has the definition. If it has not, the
ancestors are asked for the name as it was spelled, so that an alias of the nearest registry is not
followed to a definition of theirs (`not_interchange_ancestorTarget`).
-/

namespace Blueprint

/-- Two errors are of one kind, whatever they name. -/
def Error.SameKind (e e' : Error) : Prop := e.ctorIdx = e'.ctorIdx

/-- Two answers are the same definition, or errors of one kind. -/
def SameAnswer : (answer answer' : Except Error Definition) → Prop
  | .ok d, .ok d' => d = d'
  | .error e, .error e' => e.SameKind e'
  | _, _ => False

theorem SameAnswer.refl : ∀ answer, SameAnswer answer answer
  | .ok _ => rfl
  | .error _ => rfl

/-- Two answers are the same definition, or say that there is none under either name. -/
inductive SameLookup (name name' : String) : (answer answer' : Except Error Definition) → Prop
  | found (d : Definition) : SameLookup name name' (.ok d) (.ok d)
  | missing : SameLookup name name' (.error (.notFound name)) (.error (.notFound name'))

/-! ## Spellings -/

theorem productName_productName (name : String) :
    productName (productName name) = productName name := by
  rw [productName, productName, String.toList_ofList, List.dropWhile_idempotent]

theorem Names.denoted_productName (n : Names) (name : String) :
    n.denoted (productName name) = n.denoted name := by
  rw [denoted, productName_productName, denoted]

/-- A canonical name without marks stands for itself. -/
theorem Names.Sound.denoted_denoted {n : Names} (hn : n.Sound) {name : String}
    (hmark : productName (n.denoted name) = n.denoted name) :
    n.denoted (n.denoted name) = n.denoted name := by
  have hend : n.aliases.get? (n.denoted name) = none :=
    Table.get?_eq_none_iff.mpr (hn.canonical_not_alias (productName name))
  rw [denoted, hmark, canonical, follow, hend]

namespace Lineage

variable {r : Registry} {ancestors l : Lineage} {name name' : String}

/-! ## Entries -/

/-- The entry that a name leads to : the level of the nearest registry that has a definition for
it, and the name of the definition there. -/
def origin? : Lineage → (name : String) → Option (Nat × String)
  | [], _ => none
  | r :: ancestors, name =>
    if r.names.definitions.contains (r.names.denoted name) then some (0, r.names.denoted name)
    else (origin? ancestors name).map fun entry => (entry.1 + 1, entry.2)

/-- Two names lead to one entry either in the nearest registry, or in an ancestor. -/
theorem origin?_cons_eq_iff : origin? (r :: ancestors) name = origin? (r :: ancestors) name' ↔
    r.names.definitions.contains (r.names.denoted name) = true ∧
        r.names.denoted name' = r.names.denoted name ∨
      r.names.definitions.contains (r.names.denoted name) = false ∧
        r.names.definitions.contains (r.names.denoted name') = false ∧
        origin? ancestors name = origin? ancestors name' := by
  have up : Function.Injective fun entry : Nat × String => (entry.1 + 1, entry.2) := by
    rintro ⟨level, key⟩ ⟨level', key'⟩ h
    simpa using h
  rw [origin?, origin?]
  cases h : r.names.definitions.contains (r.names.denoted name) <;>
    cases h' : r.names.definitions.contains (r.names.denoted name')
  · simp [(Option.map_injective up).eq_iff]
  · simp [eq_comm]
  · have : r.names.denoted name' ≠ r.names.denoted name := fun e => by simp [e, h] at h'
    simp [this]
  · simp [eq_comm]

/-- Spellings that every registry takes for the same name lead to the same entry. -/
theorem origin?_congr : ∀ {l : Lineage}, (∀ r ∈ l, r.names.denoted name' = r.names.denoted name) →
    origin? l name = origin? l name'
  | [], _ => rfl
  | r :: ancestors, h => by
    rw [origin?, origin?, h r List.mem_cons_self,
      origin?_congr fun s hs => h s (List.mem_cons_of_mem r hs)]

/-- Two names that lead to the same entry are looked up with the same answer, or are both missing.
-/
theorem get_of_origin?_eq : ∀ {l : Lineage}, origin? l name = origin? l name' →
    SameLookup name name' (l.get name).value (l.get name').value
  | [], _ => .missing
  | r :: ancestors, h => by
    rw [get, get]
    rcases origin?_cons_eq_iff.mp h with ⟨hc, hsame⟩ | ⟨hc, hc', hrest⟩
    · have hfind : r.names.find? name' = r.names.find? name := by
        rw [Names.find?, Names.find?, hsame]
      rw [hfind]
      cases hf : r.names.find? name with
      | none =>
        rw [Names.find?, Table.get?_eq_none_iff, hc] at hf
        cases hf
      | some d => exact .found d
    · have hf : r.names.find? name = none := Table.get?_eq_none_iff.mpr hc
      have hf' : r.names.find? name' = none := Table.get?_eq_none_iff.mpr hc'
      rw [hf, hf']
      exact get_of_origin?_eq hrest

end Lineage

/-! ## Memories -/

/-- Only names with a definition are remembered. -/
def Registry.Mindful (r : Registry) : Prop :=
  ∀ name, r.memory.contains name = true → r.names.definitions.contains name = true

theorem Registry.mindful_of_memory {r : Registry} (h : r.memory = {}) : r.Mindful := by
  intro name hm
  rw [h] at hm
  cases hm

/-- A registry stays mindful when it remembers a name that it defines. -/
theorem Registry.Mindful.remember {r : Registry} (h : r.Mindful) {key : String} (stamp : UInt64)
    (d : Definition) (hk : r.names.definitions.contains key = true) :
    (Lineage.remember r key stamp d).Mindful := by
  intro name hm
  rw [Lineage.remember, Table.contains_insert, Bool.or_eq_true, decide_eq_true_eq] at hm
  exact hm.elim (fun he => he ▸ hk) (h name)

/-- The walk along the parents of a link does not end as unknown, as it has a link to begin with. -/
theorem Names.ascend_ne_unknown (n : Names) : ∀ (steps : Nat) (before : List Link) (link : Link),
    n.ascend steps before link ≠ .unknown := by
  intro steps
  induction steps with
  | zero =>
    rintro before ⟨name, d⟩
    rw [ascend]
    split
    · simp
    · dsimp only
      split
      · simp
      · split <;> simp
  | succ steps ih =>
    rintro before ⟨name, d⟩
    rw [ascend]
    split
    · simp
    · dsimp only
      split
      · simp
      · split
        · simp
        · split
          · exact ih _ _
          · simp

theorem Names.ancestry_eq_unknown_iff {n : Names} {name : String} :
    n.ancestry name = .unknown ↔ n.definitions.contains name = false := by
  rw [ancestry]
  cases h : n.definitions.get? name with
  | none => simp [Table.get?_eq_none_iff.mp h]
  | some d => simp [Table.contains_of_get? h, n.ascend_ne_unknown]

namespace Lineage

variable {r : Registry} {ancestors l : Lineage} {name name' : String}

theorem forall_mem_modifyHead {P : Registry → Prop} {f : Registry → Registry}
    (hf : ∀ r, P r → P (f r)) (hl : ∀ r ∈ l, P r) : ∀ r ∈ l.modifyHead f, P r := by
  cases l with
  | nil => exact hl
  | cons r ancestors =>
    intro s hs
    rcases List.mem_cons.mp hs with rfl | hs
    · exact hf r (hl r List.mem_cons_self)
    · exact hl s (List.mem_cons_of_mem r hs)

/-- Looking for a merged definition keeps the registries mindful. -/
theorem mindful_mergedDefinition : ∀ {l : Lineage} (name : String), (∀ r ∈ l, r.Mindful) →
    ∀ r ∈ (l.mergedDefinition name).value.2, r.Mindful
  | [], _, h => h
  | r :: ancestors, name, h => by
    obtain ⟨hr, hanc⟩ := List.forall_mem_cons.mp h
    rw [value_mergedDefinition_cons]
    cases remembered? r (r.names.denoted name) (stamp (r :: ancestors)) with
    | some d => exact h
    | none =>
      have defined : r.names.ancestry (r.names.denoted name) ≠ .unknown →
          r.names.definitions.contains (r.names.denoted name) = true := fun hne =>
        eq_true_of_ne_false fun hc => hne (Names.ancestry_eq_unknown_iff.mpr hc)
      cases hc : r.names.ancestry (r.names.denoted name) with
      | unknown => exact List.forall_mem_cons.mpr ⟨hr, mindful_mergedDefinition name hanc⟩
      | circular path => exact h
      | rooted links =>
        exact List.forall_mem_cons.mpr ⟨hr.remember _ _ (defined (by simp [hc])), hanc⟩
      | continues links parent =>
        have hlater := mindful_mergedDefinition parent hanc
        rcases hm : (mergedDefinition ancestors parent).value with ⟨e | inherited, later⟩
        · simp only [hm] at hlater ⊢
          exact List.forall_mem_cons.mpr ⟨hr, hlater⟩
        · simp only [hm] at hlater ⊢
          exact List.forall_mem_cons.mpr ⟨hr.remember _ _ (defined (by simp [hc])), hlater⟩

/-- Merging keeps the registries mindful. -/
theorem mindful_merge (name : String) (h : ∀ r ∈ l, r.Mindful) :
    ∀ r ∈ (l.merge name).value.2, r.Mindful := by
  have hmerged := mindful_mergedDefinition name h
  rw [value_merge]
  rcases hm : (l.mergedDefinition name).value with ⟨e | d, l'⟩
  · rwa [hm] at hmerged
  · rw [hm] at hmerged
    refine forall_mem_modifyHead (fun r hr => ?_) hmerged
    obtain ⟨tracker, ht⟩ := r.exists_connectAll_eq name d.dependsOn
    rw [ht]
    exact hr

/-- Merging one name after the other keeps the registries mindful. -/
theorem mindful_mergeEach : ∀ (names : List String) {l : Lineage}, (∀ r ∈ l, r.Mindful) →
    ∀ r ∈ (l.mergeEach names).value, r.Mindful
  | [], _, h => h
  | name :: names, l, h => by
    rw [mergeEach, Traced.value_bind]
    exact mindful_mergeEach names (mindful_merge name h)

/-- Every request keeps the registries of a lineage mindful. -/
theorem mindful_request (q : Request) (h : ∀ r ∈ l, r.Mindful) : ∀ r ∈ q.run l, r.Mindful := by
  cases q with
  | change c =>
    refine forall_mem_modifyHead (fun r hr => ?_) h
    have hc := c.rewritten_run r
    rcases Nat.eq_zero_or_pos (c.mutations r) with h0 | hpos
    · rw [hc.same h0]
      exact hr
    · exact Registry.mindful_of_memory (hc.memory hpos)
  | upkeep u =>
    refine forall_mem_modifyHead (fun r hr => ?_) h
    obtain ⟨scopes, hu⟩ := u.exists_run_eq r
    obtain ⟨tracker, hu⟩ := hu r.memory r.tracker
    rw [show u.run r = _ from hu]
    exact hr
  | merge name => exact mindful_merge name h
  | teardown =>
    cases l with
    | nil => exact h
    | cons r ancestors =>
      rw [Request.run, value_teardown]
      exact mindful_mergeEach r.definedNames h

/-- The registries of every run are mindful. -/
theorem mindful_of_mem_run (policies : List Policy) (requests : List (Nat × Request))
    {r : Registry} (hr : r ∈ (founded policies).run requests) : r.Mindful :=
  forall_mem_run (fun q _ _ h => mindful_request q.2 h)
    (fun r hr => Registry.mindful_of_memory (fresh_of_mem_founded r hr).2.2) r hr

/-! ## Merging -/

/-- Two names that lead to the same entry are merged with the same result, or both are found
nowhere. -/
theorem mergedDefinition_of_origin?_eq : ∀ {l : Lineage}, (∀ r ∈ l, r.Mindful) →
    origin? l name = origin? l name' →
    (l.mergedDefinition name').value = (l.mergedDefinition name).value ∨
      (l.mergedDefinition name).value = (.error (.notFound name), l) ∧
        (l.mergedDefinition name').value = (.error (.notFound name'), l)
  | [], _, _ => .inr ⟨rfl, rfl⟩
  | r :: ancestors, hl, h => by
    rcases origin?_cons_eq_iff.mp h with ⟨hc, hsame⟩ | ⟨hc, hc', hrest⟩
    · have hknown : r.names.ancestry (r.names.denoted name) ≠ .unknown := fun hu => by
        simp [Names.ancestry_eq_unknown_iff.mp hu] at hc
      refine .inl ?_
      rw [value_mergedDefinition_cons, value_mergedDefinition_cons, hsame]
      split
      · rfl
      · split
        · exact absurd ‹_› hknown
        · rfl
        · rfl
        · rfl
    · have forgotten : ∀ {key}, r.names.definitions.contains key = false →
          remembered? r key (stamp (r :: ancestors)) = none := by
        intro key hkey
        have hm : r.memory.contains key = false := by
          rw [← Bool.not_eq_true]
          exact fun hm => by simp [hl r List.mem_cons_self key hm] at hkey
        rw [remembered?, Table.get?_eq_none_iff.mpr hm, Option.bind_none]
      rw [value_mergedDefinition_cons, value_mergedDefinition_cons, forgotten hc, forgotten hc',
        Names.ancestry_eq_unknown_iff.mpr hc, Names.ancestry_eq_unknown_iff.mpr hc']
      have hanc : ∀ s ∈ ancestors, s.Mindful := fun s hs => hl s (List.mem_cons_of_mem r hs)
      rcases mergedDefinition_of_origin?_eq hanc hrest with hm | ⟨hm, hm'⟩
      · exact .inl (by simp only [hm])
      · exact .inr (by simp only [hm, hm', and_self])

/-- Two names that lead to the same entry are merged with the same answer. -/
theorem merge_of_origin?_eq (hl : ∀ r ∈ l, r.Mindful) (h : origin? l name = origin? l name') :
    SameAnswer (l.merge name).value.1 (l.merge name').value.1 := by
  rw [value_merge, value_merge]
  rcases mergedDefinition_of_origin?_eq hl h with hm | ⟨hm, hm'⟩
  · rw [hm]
    rcases (l.mergedDefinition name).value with ⟨e | d, l'⟩
    · exact .refl _
    · simp only [inKnownScope]
      split
      · exact .refl _
      · rfl
  · rw [hm, hm']
    rfl

/-! ## Canonical names -/

/-- In every lineage of a run, a name and its canonical name in the nearest registry can be
exchanged in lookups and in merges if they lead to the same entry. A canonical name without marks
does so just if the nearest registry has its definition, or if the ancestors take the two names to
the same entry. A name that is no alias of the nearest registry always does. -/
theorem interchange_of_run (policies : List Policy) (requests : List (Nat × Request)) (level : Nat)
    {r : Registry} {ancestors : Lineage} (h : after policies requests level = r :: ancestors)
    (name : String) :
    (origin? (r :: ancestors) name = origin? (r :: ancestors) (r.names.denoted name) →
      SameLookup name (r.names.denoted name) (get (r :: ancestors) name).value
          (get (r :: ancestors) (r.names.denoted name)).value ∧
        SameAnswer (merge (r :: ancestors) name).value.1
          (merge (r :: ancestors) (r.names.denoted name)).value.1) ∧
      (productName (r.names.denoted name) = r.names.denoted name →
        (origin? (r :: ancestors) name = origin? (r :: ancestors) (r.names.denoted name) ↔
          r.names.definitions.contains (r.names.denoted name) = true ∨
            origin? ancestors name = origin? ancestors (r.names.denoted name))) ∧
      (r.names.denoted name = productName name →
        origin? (r :: ancestors) name = origin? (r :: ancestors) (r.names.denoted name)) := by
  have run : ∀ s ∈ r :: ancestors, s ∈ (founded policies).run requests := fun s hs =>
    List.mem_of_mem_drop (show s ∈ after policies requests level from h ▸ hs)
  refine ⟨fun ho => ⟨get_of_origin?_eq ho, merge_of_origin?_eq (fun s hs =>
    mindful_of_mem_run policies requests (run s hs)) ho⟩, fun hmark => ?_, fun hplain => ?_⟩
  · have hs := sound_of_mem_run policies requests (run r List.mem_cons_self)
    rw [origin?_cons_eq_iff, hs.denoted_denoted hmark]
    cases r.names.definitions.contains (r.names.denoted name) <;> simp
  · rw [hplain]
    exact origin?_congr fun s _ => s.names.denoted_productName name

/-- A child knows an alias whose target is defined in its parent, which has the same alias. -/
def sharedAlias : List (Nat × Request) := [
  (1, .change (.register "store" (.ofClass "Disk"))),
  (1, .change (.registerAlias "store" "cache")), (0, .change (.registerAlias "store" "cache"))]

theorem interchange_sharedAlias : ∃ r ancestors, after [{}, {}] sharedAlias 0 = r :: ancestors ∧
    r.names.denoted "cache" = "store" ∧
    SameLookup "cache" "store" (get (r :: ancestors) "cache").value
      (get (r :: ancestors) "store").value ∧
    SameAnswer (merge (r :: ancestors) "cache").value.1
      (merge (r :: ancestors) "store").value.1 := by
  have hcanonical : (after [{}, {}] sharedAlias 0).map (·.names.denoted "cache") =
      ["store", "store"] := by decide +kernel
  obtain ⟨r, ancestors, hrun, hr, -⟩ := List.map_eq_cons_iff.mp hcanonical
  have horigin : origin? (r :: ancestors) "cache" = origin? (r :: ancestors) "store" := by
    rw [← hrun]
    decide +kernel
  obtain ⟨hget, hmerge⟩ :=
    (interchange_of_run _ _ 0 hrun "cache").1 (by rw [hr]; exact horigin)
  rw [hr] at hget hmerge
  exact ⟨r, ancestors, hrun, hr, hget, hmerge⟩

/-- A child knows an alias whose target is defined in its parent, which does not know the alias. -/
def ancestorTarget : List (Nat × Request) := [
  (1, .change (.register "store" (.ofClass "Disk"))),
  (0, .change (.registerAlias "store" "cache"))]

/-- The target is found and merged through the parent, and the alias is not. -/
theorem not_interchange_ancestorTarget :
    ∃ r ancestors, after [{}, {}] ancestorTarget 0 = r :: ancestors ∧
      r.names.denoted "cache" = "store" ∧
      (get (r :: ancestors) "store").value = .ok (.ofClass "Disk") ∧
      (get (r :: ancestors) "cache").value = .error (.notFound "cache") ∧
      (merge (r :: ancestors) "store").value.1 = .ok (.ofClass "Disk") ∧
      (merge (r :: ancestors) "cache").value.1 = .error (.notFound "cache") :=
  ⟨_, _, rfl, rfl, rfl, rfl, rfl, rfl⟩

end Lineage

end Blueprint
