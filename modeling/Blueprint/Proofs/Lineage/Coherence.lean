import Blueprint.Proofs.Lineage.Mutations
import Mathlib.Algebra.GroupWithZero.Nat

/-!
# The memory of merged definitions

`recipe` computes a merged definition from the tables of a lineage alone. A registry remembers
merged definitions with the sum of the revisions of its lineage at that time. As long as the sum
does not come round (`age`), it never takes a value again once the names of one of the registries
were written. So a memory is either of an earlier sum, and not used, or holds what `recipe` says
now (`Recalled`), and every request keeps that for all memories of the lineage
(`Coherent.request`).

The answer of `merge` is then the one of the tables, and the one that it would be if nothing had
ever been merged before (`merge_eq_recipe_of_run`).
-/

namespace Blueprint.Lineage

/-- The recipe of a name with everything it inherits, from the tables alone. As with `get`, a name
without a definition is one for the next tables. -/
def recipe : List Names → (name : String) → Except Error Definition
  | [], name => .error (.notFound name)
  | n :: ancestors, name =>
    match n.ancestry (n.denoted name) with
    | .unknown => recipe ancestors name
    | .circular path => .error (.circularParent (n.denoted name) path)
    | .rooted links => .ok (foldRooted links)
    | .continues links parent => (recipe ancestors parent).map (fold links)

/-! ## The sum of the revisions -/

/-- The sum of the revisions, which is not bounded. -/
def age (l : Lineage) : Nat := (l.map fun r => r.revision.toNat).sum

@[simp] theorem age_nil : age [] = 0 := rfl

@[simp] theorem age_cons (r : Registry) (l : Lineage) :
    age (r :: l) = r.revision.toNat + age l := by
  simp [age]

theorem age_append (l l' : Lineage) : age (l ++ l') = age l + age l' := by
  simp [age]

/-- The ancestors of a registry are no older than the whole lineage. -/
theorem age_drop_le (l : Lineage) (level : Nat) : age (l.drop level) ≤ age l := by
  have h := age_append (l.take level) (l.drop level)
  rw [List.take_append_drop] at h
  omega

theorem age_of_map_standing {l l' : Lineage}
    (h : l'.map Registry.standing = l.map Registry.standing) : age l' = age l := by
  have through : ∀ l : Lineage, age l = ((l.map Registry.standing).map (·.2.2.toNat)).sum := by
    intro l
    rw [List.map_map]
    rfl
  rw [through, h, ← through]

theorem names_of_map_standing {l l' : Lineage}
    (h : l'.map Registry.standing = l.map Registry.standing) :
    l'.map (·.names) = l.map (·.names) := by
  have through : ∀ l : Lineage, l.map (·.names) = (l.map Registry.standing).map (·.1) := by
    intro l
    rw [List.map_map]
    rfl
  rw [through, h, ← through]

/-- The stamp of a lineage is its age, until that comes round. -/
theorem toNat_stamp : ∀ {l : Lineage}, age l < 2 ^ 64 → (stamp l).toNat = age l
  | [], _ => rfl
  | r :: l, h => by
    rw [age_cons] at h ⊢
    rw [stamp, UInt64.toNat_add, toNat_stamp (by omega), Nat.mod_eq_of_lt h]

/-- The names of a lineage are those of an earlier one unless the revisions say otherwise. -/
structure Later (l l' : Lineage) : Prop where
  age_le : age l ≤ age l'
  names : age l' = age l → l'.map (·.names) = l.map (·.names)

/-- A lineage of which the names and revisions stay is later. -/
theorem later_of_map_standing {l l' : Lineage}
    (h : l'.map Registry.standing = l.map Registry.standing) : Later l l' :=
  ⟨Nat.le_of_eq (age_of_map_standing h).symm, fun _ => names_of_map_standing h⟩

/-- Lineages are later if their ancestors are, and the registry in front is the same. -/
theorem Later.cons {l l' : Lineage} (h : Later l l') (r : Registry) : Later (r :: l) (r :: l') where
  age_le := by simpa using h.age_le
  names ha := by simpa using h.names (by simpa using ha)

/-! ## Coherent memories -/

variable {r r' : Registry} {ancestors ancestors' : Lineage} {key : String} {m : Memory}

/-- What is remembered is no newer than the lineage, and if it is of the same age it is what the
tables say for every name that stands for the key. -/
structure Recalled (r : Registry) (ancestors : Lineage) (key : String) (m : Memory) : Prop where
  stamp_le : m.stamp.toNat ≤ age (r :: ancestors)
  recipe_eq : m.stamp.toNat = age (r :: ancestors) → ∀ name, r.names.denoted name = key →
    recipe ((r :: ancestors).map (·.names)) name = .ok m.definition

/-- Everything that the registries of a lineage remember is recalled. -/
def Coherent : Lineage → Prop
  | [] => True
  | r :: ancestors =>
    (∀ key m, r.memory.get? key = some m → Recalled r ancestors key m) ∧ Coherent ancestors

/-- What was recalled stays so in a later lineage : it is older now, or the tables are the same. -/
theorem Recalled.later (h : Recalled r ancestors key m) (hl : Later ancestors ancestors') :
    Recalled r ancestors' key m where
  stamp_le := by
    have h' := h.stamp_le
    have hl' := hl.age_le
    simp only [age_cons] at h' ⊢
    omega
  recipe_eq hs name hname := by
    have h' := h.stamp_le
    have hl' := hl.age_le
    simp only [age_cons] at h' hs
    have same : age ancestors' = age ancestors := by omega
    have hnames := hl.names same
    rw [List.map_cons, hnames]
    exact h.recipe_eq (by rw [age_cons]; omega) name hname

/-- A registry stays coherent when its ancestors become later and are coherent themselves. -/
theorem Coherent.later (h : Coherent (r :: ancestors)) (hl : Later ancestors ancestors')
    (h' : Coherent ancestors') : Coherent (r :: ancestors') :=
  ⟨fun key m hm => (h.1 key m hm).later hl, h'⟩

theorem Coherent.drop : ∀ {l : Lineage} (level : Nat), Coherent l → Coherent (l.drop level)
  | _, 0, h => h
  | [], _ + 1, h => h
  | _ :: _, level + 1, h => Coherent.drop level h.2

/-- Without memories there is nothing to recall. -/
theorem coherent_of_memory : ∀ {l : Lineage}, (∀ r ∈ l, r.memory = {}) → Coherent l
  | [], _ => trivial
  | r :: ancestors, h => by
    refine ⟨fun key m hm => ?_, coherent_of_memory fun s hs => h s (List.mem_cons_of_mem r hs)⟩
    rw [h r List.mem_cons_self] at hm
    cases hm

/-- Writing something beside the names and the memory of the nearest registry. -/
theorem Coherent.aside (h : Coherent (r :: ancestors)) (hs : r'.standing = r.standing)
    (hm : r'.memory = r.memory) : Coherent (r' :: ancestors) := by
  have hn : r'.names = r.names := congrArg Prod.fst hs
  have hv : r'.revision = r.revision := congrArg (·.2.2) hs
  refine ⟨fun key m hk => ?_, h.2⟩
  obtain ⟨hle, heq⟩ := h.1 key m (hm ▸ hk)
  simp only [age_cons, List.map_cons] at hle heq
  exact ⟨by simpa [hv] using hle, by simpa [hv, hn] using heq⟩

/-- Remembering what the tables say now. -/
theorem Coherent.remember (h : Coherent (r :: ancestors)) {s : UInt64} {d : Definition}
    (hs : s.toNat = age (r :: ancestors)) (hd : ∀ name, r.names.denoted name = key →
      recipe ((r :: ancestors).map (·.names)) name = .ok d) :
    Coherent (Lineage.remember r key s d :: ancestors) := by
  refine ⟨fun k m hk => ?_, h.2⟩
  rw [Lineage.remember, Table.get?_insert] at hk
  split at hk
  · rename_i hkey
    obtain rfl := Option.some.inj hk
    exact ⟨Nat.le_of_eq hs, fun _ name hname => hd name (hname.trans hkey)⟩
  · obtain ⟨hle, heq⟩ := h.1 k m hk
    exact ⟨hle, heq⟩

/-! ## Merging -/

/-- To merge changes no names. -/
theorem later_mergedDefinition (l : Lineage) (name : String) :
    Later l (l.mergedDefinition name).value.2 :=
  later_of_map_standing (map_standing_of_map_bare (map_bare_mergedDefinition l name))

/-- The answer of a coherent lineage is the one of its tables, and the lineage stays coherent. -/
theorem mergedDefinition_of_coherent : ∀ {l : Lineage} (name : String), age l < 2 ^ 64 →
    Coherent l → (l.mergedDefinition name).value.1 = recipe (l.map (·.names)) name ∧
      Coherent (l.mergedDefinition name).value.2
  | [], _, _, h => ⟨rfl, h⟩
  | r :: ancestors, name, ha, h => by
    have hstamp := toNat_stamp ha
    have hanc : age ancestors < 2 ^ 64 := by
      rw [age_cons] at ha
      omega
    rw [value_mergedDefinition_cons]
    cases hr : remembered? r (r.names.denoted name) (stamp (r :: ancestors)) with
    | some d =>
      obtain ⟨m, hm, hd⟩ := Option.bind_eq_some_iff.mp hr
      split at hd
      · rename_i hs
        -- It was remembered at this age, so the tables have not changed since.
        have hrec := (h.1 _ m hm).recipe_eq (by rw [hs, hstamp]) name rfl
        exact ⟨by rw [hrec, Option.some.inj hd], h⟩
      · cases hd
    | none =>
      cases hc : r.names.ancestry (r.names.denoted name) with
      | unknown =>
        obtain ⟨hvalue, hco⟩ := mergedDefinition_of_coherent name hanc h.2
        refine ⟨?_, h.later (later_mergedDefinition ancestors name) hco⟩
        simp [recipe, hc, hvalue]
      | circular path => exact ⟨by simp [recipe, hc], h⟩
      | rooted links =>
        refine ⟨by simp [recipe, hc], h.remember hstamp fun x hx => ?_⟩
        simp [recipe, hx, hc]
      | continues links parent =>
        obtain ⟨hvalue, hco⟩ := mergedDefinition_of_coherent parent hanc h.2
        have hlater := later_mergedDefinition ancestors parent
        have hsame := map_standing_of_map_bare (map_bare_mergedDefinition ancestors parent)
        rcases hm : (mergedDefinition ancestors parent).value with ⟨e | inherited, ancestors'⟩
        · simp only [hm] at hvalue hco hlater ⊢
          exact ⟨by simp [recipe, hc, ← hvalue, Except.map], h.later hlater hco⟩
        · simp only [hm] at hvalue hco hlater hsame ⊢
          refine ⟨by simp [recipe, hc, ← hvalue, Except.map], ?_⟩
          -- The ancestors remember more than before, at the same age and with the same tables.
          refine (h.later hlater hco).remember ?_ fun x hx => ?_
          · rw [hstamp, age_cons, age_cons, age_of_map_standing hsame]
          · have hn := names_of_map_standing hsame
            simp [recipe, hx, hc, hn, ← hvalue, Except.map]

/-- A coherent lineage answers what its tables say, and stays coherent. -/
theorem merge_of_coherent {l : Lineage} (name : String) (ha : age l < 2 ^ 64) (h : Coherent l) :
    (l.merge name).value.1 =
        (recipe (l.map (·.names)) name).bind (inKnownScope l name) ∧
      Coherent (l.merge name).value.2 := by
  obtain ⟨hvalue, hco⟩ := mergedDefinition_of_coherent name ha h
  refine ⟨by rw [answer_merge, hvalue], ?_⟩
  rw [value_merge]
  rcases hm : (l.mergedDefinition name).value with ⟨e | d, l'⟩
  · rwa [hm] at hco
  · rw [hm] at hco
    cases l' with
    | nil => exact hco
    | cons r ancestors =>
      obtain ⟨tracker, ht⟩ := r.exists_connectAll_eq name d.dependsOn
      exact hco.aside (by simp only [ht]; rfl) (by simp only [ht])

/-- A coherent lineage stays so when names are merged one after the other. -/
theorem coherent_mergeEach : ∀ (names : List String) {l : Lineage}, age l < 2 ^ 64 →
    Coherent l → Coherent (l.mergeEach names).value
  | [], _, _, h => h
  | name :: names, l, ha, h => by
    rw [mergeEach, Traced.value_bind]
    refine coherent_mergeEach names ?_ (merge_of_coherent name ha h).2
    rwa [age_of_map_standing (map_standing_of_map_bare (map_bare_merge l name))]

/-! ## Requests -/

/-- The revisions count the mutations. -/
theorem age_request (q : Request) {l : Lineage} (h : age l + q.mutations l < 2 ^ 64) :
    age (q.run l) = age l + q.mutations l := by
  by_cases hq : ∃ c, q = .change c
  · obtain ⟨c, rfl⟩ := hq
    cases l with
    | nil => rfl
    | cons r ancestors =>
      have hrev := (c.rewritten_run r).revision
      simp only [Request.mutations, age_cons] at h
      simp only [Request.run, Request.mutations, List.modifyHead, age_cons, hrev,
        UInt64.toNat_add, UInt64.toNat_ofNat']
      omega
  · have h0 : q.mutations l = 0 := by
      cases q with
      | change c => exact absurd ⟨c, rfl⟩ hq
      | upkeep u => cases l <;> rfl
      | merge name => cases l <;> rfl
      | teardown => cases l <;> rfl
    rw [h0, age_of_map_standing (q.map_standing_run (fun c h => hq ⟨c, h⟩) l), Nat.add_zero]

/-- A lineage is later after every request, as its revisions count the mutations. -/
theorem later_request (q : Request) {l : Lineage} (h : age l + q.mutations l < 2 ^ 64) :
    Later l (q.run l) := by
  by_cases hq : ∃ c, q = .change c
  · have ha := age_request q h
    refine ⟨by omega, fun hage => ?_⟩
    have h0 : q.mutations l = 0 := by omega
    obtain ⟨c, rfl⟩ := hq
    cases l with
    | nil => rfl
    | cons r ancestors =>
      have hsame : c.run r = r := (c.rewritten_run r).same h0
      simp [Request.run, hsame]
  · exact later_of_map_standing (q.map_standing_run (fun c h => hq ⟨c, h⟩) l)

/-- Every request keeps a lineage coherent, as long as its revisions have not come round. -/
theorem Coherent.request (q : Request) {l : Lineage} (h : Coherent l) (ha : age l < 2 ^ 64) :
    Coherent (q.run l) := by
  cases q with
  | change c =>
    cases l with
    | nil => exact h
    | cons r ancestors =>
      have hc := c.rewritten_run r
      rcases Nat.eq_zero_or_pos (c.mutations r) with h0 | hpos
      · show Coherent (c.run r :: ancestors)
        rw [hc.same h0]
        exact h
      · refine ⟨fun key m hm => ?_, h.2⟩
        rw [hc.memory hpos] at hm
        cases hm
  | upkeep u =>
    cases l with
    | nil => exact h
    | cons r ancestors =>
      obtain ⟨scopes, hu⟩ := u.exists_run_eq r
      obtain ⟨tracker, hu⟩ := hu r.memory r.tracker
      exact h.aside (by rw [hu]; rfl) (by rw [hu])
  | merge name => exact (merge_of_coherent name ha h).2
  | teardown =>
    cases l with
    | nil => exact h
    | cons r ancestors =>
      rw [Request.run, value_teardown]
      exact coherent_mergeEach r.definedNames ha h

/-- An operation at a level adds its mutations to the age of the lineage. -/
theorem age_onLevel (l : Lineage) (level : Nat) (operation : Lineage → Lineage) :
    age (l.onLevel level operation) + age (l.drop level) =
      age l + age (operation (l.drop level)) := by
  have h := age_append (l.take level) (l.drop level)
  rw [List.take_append_drop] at h
  rw [onLevel, age_append]
  omega

/-- What is later at a level is later as a whole. -/
theorem Later.onLevel (operation : Lineage → Lineage) : ∀ (level : Nat) {l : Lineage},
    Later (l.drop level) (operation (l.drop level)) → Later l (l.onLevel level operation)
  | 0, _, h => h
  | _ + 1, [], h => h
  | level + 1, r :: _, h => (Later.onLevel operation level h).cons r

/-- What is coherent and later at a level keeps the whole lineage coherent. -/
theorem Coherent.onLevel (operation : Lineage → Lineage) : ∀ (level : Nat) {l : Lineage},
    Coherent l → Later (l.drop level) (operation (l.drop level)) →
      Coherent (operation (l.drop level)) → Coherent (l.onLevel level operation)
  | 0, _, _, _, h' => h'
  | _ + 1, [], _, _, h' => h'
  | level + 1, _ :: _, h, hl, h' =>
    h.later (Later.onLevel operation level hl) (Coherent.onLevel operation level h.2 hl h')

/-- A lineage stays coherent as long as its revisions do not come round. -/
theorem coherent_run : ∀ {requests : List (Nat × Request)} {l : Lineage},
    age l + l.mutations requests < 2 ^ 64 → Coherent l →
      age (l.run requests) = age l + l.mutations requests ∧ Coherent (l.run requests)
  | [], _, _, h => ⟨rfl, h⟩
  | q :: requests, l, ha, h => by
    rw [mutations] at ha ⊢
    have hdrop := age_drop_le l q.1
    have hq : age (l.drop q.1) + q.2.mutations (l.drop q.1) < 2 ^ 64 := by omega
    have hage : age (l.onLevel q.1 q.2.run) = age l + q.2.mutations (l.drop q.1) := by
      have := age_onLevel l q.1 q.2.run
      rw [age_request q.2 hq] at this
      omega
    have hco := Coherent.onLevel q.2.run q.1 h (later_request q.2 hq)
      ((h.drop q.1).request q.2 (by omega))
    have hrest : age (l.onLevel q.1 q.2.run) + mutations (l.onLevel q.1 q.2.run) requests <
        2 ^ 64 := by omega
    obtain ⟨hage', hco'⟩ := coherent_run hrest hco
    rw [run_cons]
    exact ⟨by omega, hco'⟩

/-! ## The answers of a run -/

/-- The registry at a level with its ancestors, after requests to a new lineage. -/
def after (policies : List Policy) (requests : List (Nat × Request)) (level : Nat) : Lineage :=
  ((founded policies).run requests).drop level

theorem age_founded (policies : List Policy) : age (founded policies) = 0 := by
  have zero : ∀ l : Lineage, (∀ r ∈ l, r.revision = 0) → age l = 0 := by
    intro l h
    induction l with
    | nil => rfl
    | cons r l ih =>
      simp [h r List.mem_cons_self, ih fun s hs => h s (List.mem_cons_of_mem r hs)]
  exact zero _ fun r hr => (fresh_of_mem_founded r hr).2.1

theorem coherent_founded (policies : List Policy) : Coherent (founded policies) :=
  coherent_of_memory fun r hr => (fresh_of_mem_founded r hr).2.2

/-- Who does not merge has nothing to remember. -/
theorem memory_request {q : Request} (hq : q.merges = false) (l : Lineage)
    (hl : ∀ r ∈ l, r.memory = {}) : ∀ r ∈ q.run l, r.memory = {} := by
  have head : ∀ {f : Registry → Registry}, (∀ r, r.memory = {} → (f r).memory = {}) →
      ∀ r ∈ l.modifyHead f, r.memory = {} := by
    intro f hf
    cases l with
    | nil => exact hl
    | cons r ancestors =>
      intro s hs
      rcases List.mem_cons.mp hs with rfl | hs
      · exact hf r (hl r List.mem_cons_self)
      · exact hl s (List.mem_cons_of_mem r hs)
  cases q with
  | change c =>
    refine head fun r hr => ?_
    have hc := c.rewritten_run r
    rcases Nat.eq_zero_or_pos (c.mutations r) with h0 | hpos
    · rw [hc.same h0, hr]
    · exact hc.memory hpos
  | upkeep u =>
    refine head fun r hr => ?_
    obtain ⟨scopes, hu⟩ := u.exists_run_eq r
    obtain ⟨tracker, hu⟩ := hu r.memory r.tracker
    rw [show u.run r = _ from hu, hr]
  | merge name => cases hq
  | teardown => cases hq

/-- After fewer mutations than the revisions can count, the answer of `merge` is the recipe that
the tables have now, in a scope that is known now. It is the answer that there would be if no
request had merged anything before. -/
theorem merge_eq_recipe_of_run (policies : List Policy) (requests : List (Nat × Request))
    (h : (founded policies).mutations requests < 2 ^ 64) (level : Nat) (name : String) :
    ((after policies requests level).merge name).value.1 =
        (recipe ((after policies requests level).map (·.names)) name).bind
          (inKnownScope (after policies requests level) name) ∧
      ((after policies requests level).merge name).value.1 =
        ((after policies (requests.filter fun q => !q.2.merges) level).merge name).value.1 := by
  have hrun := coherent_run (by rwa [age_founded, Nat.zero_add]) (coherent_founded policies)
  rw [age_founded, Nat.zero_add] at hrun
  obtain ⟨hage, hco⟩ := hrun
  have hle := age_drop_le ((founded policies).run requests) level
  have htables := (merge_of_coherent name (by omega) (hco.drop level)).1
  refine ⟨htables, htables.trans ?_⟩
  have hbare : (after policies (requests.filter fun q => !q.2.merges) level).map Registry.bare =
      (after policies requests level).map Registry.bare := by
    rw [after, after, List.map_drop, map_bare_run_filter requests rfl, List.map_drop]
  have hstanding := map_standing_of_map_bare hbare
  have hquiet : ∀ r ∈ after policies (requests.filter fun q => !q.2.merges) level,
      r.memory = {} := by
    intro r hr
    refine forall_mem_run (fun q hq => memory_request ?_)
      (fun r hr => (fresh_of_mem_founded r hr).2.2) r (List.mem_of_mem_drop hr)
    simpa using (List.mem_filter.mp hq).2
  have hage' := age_of_map_standing hstanding
  have hquiet' := (merge_of_coherent name (by rw [hage', after]; omega)
    (coherent_of_memory hquiet)).1
  rw [hquiet', names_of_map_standing hstanding, inKnownScope_congr hbare]
  rfl

/-- A child is merged, and its parent gets another definition. -/
def overriddenParent : List (Nat × Request) := [
  (1, .change (.register "base" (.ofClass "Disk"))),
  (0, .change (.register "store" (.childOf "base"))), (0, .merge "store"),
  (1, .change (.register "base" (.ofClass "Memory")))]

theorem merge_overriddenParent :
    (founded [{}, {}]).mutations overriddenParent = 3 ∧
      ((after [{}, {}] overriddenParent 0).merge "store").value.1.map (·.className) =
        .ok (some "Memory") ∧
      ((after [{}, {}] overriddenParent 0).merge "store").value.1 =
        ((after [{}, {}] (overriddenParent.filter fun q => !q.2.merges) 0).merge
          "store").value.1 := by
  have h : (founded [{}, {}]).mutations overriddenParent = 3 := by decide +kernel
  refine ⟨h, ?_, (merge_eq_recipe_of_run _ _ (by rw [h]; decide) 0 "store").2⟩
  rfl

end Blueprint.Lineage
