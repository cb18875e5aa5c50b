import Blueprint.Proofs.Lineage.Answers
import Blueprint.Proofs.Lineage.Recording

/-!
# What descendants leave alone

A request to a registry is a matter of that registry. Its ancestors are asked for definitions and
for scopes, and while they answer they only write to their memories. What they remember from then
on is what merging gives anyway (`Undisturbed`), so no question that can be put to an ancestor is
answered differently after any requests to its descendants (`replies_after_descendants`).

The memories have to be no better than they are for that : if an ancestor would give an answer that
its tables no longer bear out, it gives the same one afterwards. Only to leave the descendants out
of a longer run the memories have to be coherent (`Abreast`). Looking up a definition writes
nothing, so `get` is not among the requests.
-/

namespace Blueprint

/-- The answers to all questions about names. -/
structure Replies where
  definedNames : List String
  aliasesOf : String → List String
  denoted : String → String
  get : String → Except Error Definition
  merge : String → Except Error Definition
  scopes : List String
  dependentsOf : String → List String
  dependenciesOf : String → List String
  isCreating : String → Bool

namespace Lineage

variable {l l' l'' ancestors : Lineage} {r : Registry} {level : Nat}

/-- What the nearest registry answers. -/
def replies : Lineage → Option Replies
  | [] => none
  | r :: ancestors => some {
      definedNames := r.definedNames
      aliasesOf := r.names.aliasesOf
      denoted := r.names.denoted
      get := fun name => (get (r :: ancestors) name).value
      merge := fun name => (merge (r :: ancestors) name).value.1
      scopes := r.scopes.names
      dependentsOf := r.dependentsOf
      dependenciesOf := r.dependenciesOf
      isCreating := r.isCreating }

/-! ## Lineages that differ in what they remember -/

/-- The lineages differ in what they remember, and merge all the same. -/
structure Undisturbed (l' l : Lineage) : Prop where
  afresh : l'.map Registry.afresh = l.map Registry.afresh
  merges : SameMerges l' l

theorem Undisturbed.refl (l : Lineage) : Undisturbed l l := ⟨rfl, fun _ => rfl⟩

theorem Undisturbed.trans (h : Undisturbed l'' l') (h' : Undisturbed l' l) : Undisturbed l'' l :=
  ⟨h.afresh.trans h'.afresh, h.merges.trans h'.merges⟩

/-- Memories have no part in looking up a definition. -/
theorem value_get_of_map_afresh : ∀ {l l' : Lineage},
    l'.map Registry.afresh = l.map Registry.afresh →
      ∀ name, (l'.get name).value = (l.get name).value
  | [], [], _, _ => rfl
  | [], _ :: _, h, _ => by cases h
  | _ :: _, [], h, _ => by cases h
  | r :: l, r' :: l', h, name => by
    obtain ⟨hr, hl⟩ := List.cons.inj h
    have hnames : r'.names = r.names := (congrArg (fun r : Registry => r.names) hr :)
    rw [get, get, hnames]
    cases r.names.find? name with
    | some d => rfl
    | none => exact value_get_of_map_afresh hl name

theorem Undisturbed.answer_merge (h : Undisturbed l' l) (name : String) :
    (l'.merge name).value.1 = (l.merge name).value.1 := by
  rw [Lineage.answer_merge, Lineage.answer_merge, h.merges,
    inKnownScope_congr (map_bare_of_map_afresh h.afresh)]

/-- Undisturbed lineages give the same answers to all questions. -/
theorem Undisturbed.replies_eq (h : Undisturbed l' l) : l'.replies = l.replies := by
  have hget := funext (value_get_of_map_afresh h.afresh)
  have hmerge := funext h.answer_merge
  have hafresh := h.afresh
  cases l with
  | nil => rw [List.map_eq_nil_iff.mp hafresh]
  | cons r ancestors =>
    cases l' with
    | nil => cases hafresh
    | cons r' ancestors' =>
      have hr : r'.afresh = r.afresh := (List.cons.inj hafresh).1
      have hnames : r'.names = r.names := (congrArg (fun r : Registry => r.names) hr :)
      have hscopes : r'.scopes = r.scopes := (congrArg (fun r : Registry => r.scopes) hr :)
      have htracker : r'.tracker = r.tracker := (congrArg (fun r : Registry => r.tracker) hr :)
      have hdependents : r'.dependentsOf = r.dependentsOf := by
        funext name
        rw [Registry.dependentsOf, Registry.dependentsOf, hnames, htracker]
      have hdependencies : r'.dependenciesOf = r.dependenciesOf := by
        funext name
        rw [Registry.dependenciesOf, Registry.dependenciesOf, hnames, htracker]
      have hcreating : r'.isCreating = r.isCreating := by
        funext name
        rw [Registry.isCreating, Registry.isCreating, hnames, htracker]
      simp only [replies, Registry.definedNames, hget, hmerge, hnames, hscopes, hdependents,
        hdependencies, hcreating]

/-! ## Requests of a descendant -/

/-- The ancestors have merged something, or nothing. -/
theorem tail_mergedDefinition (r : Registry) (ancestors : Lineage) (name : String) :
    (mergedDefinition (r :: ancestors) name).value.2.tail = ancestors ∨
      ∃ other, (mergedDefinition (r :: ancestors) name).value.2.tail =
        (mergedDefinition ancestors other).value.2 := by
  rw [value_mergedDefinition_cons]
  split
  · exact .inl rfl
  · split
    · exact .inr ⟨name, rfl⟩
    · exact .inl rfl
    · exact .inl rfl
    · rename_i links parent _
      refine .inr ⟨parent, ?_⟩
      rcases (mergedDefinition ancestors parent).value with ⟨_ | _, _⟩ <;> rfl

/-- The ancestors are undisturbed by a merge of definitions, however far it goes up. -/
theorem undisturbed_drop_mergedDefinition : ∀ (level : Nat) (l : Lineage) (name : String),
    Undisturbed ((l.mergedDefinition name).value.2.drop level) (l.drop level)
  | 0, l, name => ⟨map_afresh_mergedDefinition l name, sameMerges_mergedDefinition l name⟩
  | _ + 1, [], _ => .refl _
  | level + 1, r :: ancestors, name => by
    rw [← List.drop_tail, List.drop_succ_cons]
    obtain h | ⟨other, h⟩ := tail_mergedDefinition r ancestors name
    · rw [h]
      exact .refl _
    · rw [h]
      exact undisturbed_drop_mergedDefinition level ancestors other

theorem drop_succ_modifyHead (f : Registry → Registry) (l : Lineage) (level : Nat) :
    (l.modifyHead f).drop (level + 1) = l.drop (level + 1) := by
  cases l <;> rfl

/-- The ancestors are undisturbed by a merge. -/
theorem undisturbed_drop_merge (level : Nat) (l : Lineage) (name : String) :
    Undisturbed ((l.merge name).value.2.drop (level + 1)) (l.drop (level + 1)) := by
  have h := undisturbed_drop_mergedDefinition (level + 1) l name
  rw [value_merge]
  rcases hm : (l.mergedDefinition name).value with ⟨e | d, later⟩
  · rwa [hm] at h
  · rw [hm] at h
    dsimp only
    rwa [drop_succ_modifyHead]

/-- The ancestors are undisturbed by any number of merges. -/
theorem undisturbed_drop_mergeEach (level : Nat) : ∀ (names : List String) (l : Lineage),
    Undisturbed ((l.mergeEach names).value.drop (level + 1)) (l.drop (level + 1))
  | [], _ => .refl _
  | name :: names, l => by
    rw [mergeEach, Traced.value_bind]
    exact (undisturbed_drop_mergeEach level names _).trans (undisturbed_drop_merge level l name)

/-- The ancestors of a registry are undisturbed by a request to it. -/
theorem undisturbed_drop_request (q : Request) (l : Lineage) (level : Nat) :
    Undisturbed ((q.run l).drop (level + 1)) (l.drop (level + 1)) := by
  cases q with
  | change c =>
    rw [Request.run, drop_succ_modifyHead]
    exact .refl _
  | upkeep u =>
    rw [Request.run, drop_succ_modifyHead]
    exact .refl _
  | merge name => exact undisturbed_drop_merge level l name
  | teardown =>
    rw [Request.run, value_teardown]
    cases l with
    | nil => exact .refl _
    | cons r ancestors => exact undisturbed_drop_mergeEach level r.definedNames (r :: ancestors)

/-- A request below a level leaves the registries from that level on undisturbed. -/
theorem undisturbed_drop_onLevel (q : Request) : ∀ (below : Nat) {level : Nat}, below < level →
    ∀ l : Lineage, Undisturbed ((l.onLevel below q.run).drop level) (l.drop level)
  | 0, level + 1, _, l => undisturbed_drop_request q l level
  | _ + 1, level + 1, _, [] => undisturbed_drop_request q [] level
  | below + 1, _ + 1, h, _ :: ancestors =>
    undisturbed_drop_onLevel q below (Nat.lt_of_succ_lt_succ h) ancestors

/-- A run of requests below a level leaves the registries from that level on undisturbed. -/
theorem undisturbed_drop_run : ∀ {requests : List (Nat × Request)} (l : Lineage),
    (∀ q ∈ requests, q.1 < level) → Undisturbed ((l.run requests).drop level) (l.drop level)
  | [], _, _ => .refl _
  | q :: requests, l, h => by
    rw [run_cons]
    exact (undisturbed_drop_run (l.onLevel q.1 q.2.run)
      fun q' hq' => h q' (List.mem_cons_of_mem q hq')).trans
      (undisturbed_drop_onLevel q.2 q.1 (h q List.mem_cons_self) l)

end Lineage

/-! ## The same requests to lineages that remember differently -/

namespace Registry

/-- Registries are the same afresh if they are the same bare and have the same tracker. -/
theorem afresh_of_bare {r r' : Registry} (hb : r'.bare = r.bare) (ht : r'.tracker = r.tracker) :
    r'.afresh = r.afresh := by
  show { r'.bare with tracker := r'.tracker } = { r.bare with tracker := r.tracker }
  rw [hb, ht]

theorem tracker_registerAliases (name : String) : ∀ (aliases : List String) (r : Registry),
    (r.registerAliases name aliases).value.2.tracker = r.tracker
  | [], _ => rfl
  | aliasName :: rest, r => by
    rw [value_registerAliases]
    cases (r.names.pointAlias r.policy name aliasName).value with
    | error e => rfl
    | ok names => cases names <;> exact tracker_registerAliases name rest _

/-- A declaration writes no edge and no mark. -/
theorem tracker_declare (r : Registry) (d : Declaration) :
    (r.declare d).value.2.tracker = r.tracker := by
  rw [value_declare]
  cases (r.names.define r.policy d.name d.definition).value with
  | error e => rfl
  | ok names =>
    have h := tracker_registerAliases d.name d.aliases (r.withNames names)
    dsimp only
    rcases hv : ((r.withNames names).registerAliases d.name d.aliases).value with ⟨_ | _, _⟩ <;>
      rwa [hv] at h

/-- Edges are recorded alike, whatever is remembered. -/
theorem afresh_connectAll {r r' : Registry} (h : r'.afresh = r.afresh) (dependent : String)
    (dependencies : List String) :
    (r'.connectAll dependent dependencies).value.afresh =
      (r.connectAll dependent dependencies).value.afresh := by
  have hnames : r'.names = r.names := (congrArg (fun r : Registry => r.names) h :)
  have htracker : r'.tracker = r.tracker := (congrArg (fun r : Registry => r.tracker) h :)
  refine afresh_of_bare ?_ ?_
  · rw [bare_connectAll, bare_connectAll]
    exact (congrArg bare h :)
  · rw [value_connectAll, value_connectAll, withGraph, withGraph, hnames, htracker]

end Registry

/-- What a change does to the tracker does not depend on what is remembered. -/
theorem Change.tracker_run (c : Change) (r : Registry) (memory : Table String Memory) :
    (c.run { r with memory }).tracker = (c.run r).tracker := by
  cases c with
  | register name d =>
    simp only [run, Registry.value_register]
    cases (r.names.define r.policy name d).value <;> rfl
  | declare d => rw [run, run, Registry.tracker_declare, Registry.tracker_declare]
  | remove name =>
    simp only [run, Registry.value_remove]
    cases r.names.definitions.get? name <;> rfl
  | registerAlias name aliasName =>
    simp only [run, Registry.registerAlias_eq_registerAliases, Registry.tracker_registerAliases]
  | removeAlias aliasName =>
    simp only [run, Registry.removeAlias]
    cases r.names.aliases.contains aliasName <;> rfl
  | clear => rfl

/-- A change is carried out alike, whatever is remembered. -/
theorem Change.afresh_run (c : Change) (r : Registry) :
    (c.run r).afresh = (c.run r.afresh).afresh :=
  (Registry.afresh_of_bare (c.bare_run r {} r.tracker) (c.tracker_run r {})).symm

/-- Upkeep is carried out alike, whatever is remembered. -/
theorem Upkeep.afresh_run (u : Upkeep) (r : Registry) :
    (u.run r).afresh = (u.run r.afresh).afresh := by
  cases u with
  | registerScope scope =>
    simp only [run, Registry.registerScope, Registry.afresh, Traced.value_bind]
    cases (r.scopes.register scope).value <;> rfl
  | mark name =>
    simp only [run, Registry.mark, Registry.afresh, Traced.value_bind]
    cases (r.tracker.mark (r.names.denoted name)).value <;> rfl
  | begin name =>
    simp only [run, Registry.begin, Registry.afresh, Traced.value_bind]
    cases (r.tracker.begin (r.names.denoted name)).value <;> rfl
  | connect dependent dependency => rfl
  | unmark name => rfl
  | release guard => rfl

namespace Lineage

variable {l l' : Lineage} {level : Nat}

/-- An operation on the nearest registry is carried out alike, whatever is remembered. -/
theorem map_afresh_modifyHead {f : Registry → Registry}
    (hf : ∀ r r', r'.afresh = r.afresh → (f r').afresh = (f r).afresh)
    (h : l'.map Registry.afresh = l.map Registry.afresh) :
    (l'.modifyHead f).map Registry.afresh = (l.modifyHead f).map Registry.afresh := by
  cases l with
  | nil => rw [List.map_eq_nil_iff.mp h]
  | cons r ancestors =>
    cases l' with
    | nil => cases h
    | cons r' ancestors' =>
      obtain ⟨hr, hancestors⟩ := List.cons.inj h
      simp only [List.modifyHead, List.map_cons, hancestors, hf r r' hr]

/-- Undisturbed lineages stay so when both merge a name. -/
theorem Undisturbed.merge (h : Undisturbed l' l) (name : String) :
    Undisturbed (l'.merge name).value.2 (l.merge name).value.2 := by
  have hsame : ∀ l : Lineage, SameMerges (l.merge name).value.2 l := by
    rintro (_ | ⟨r, ancestors⟩)
    · exact fun _ => rfl
    · obtain ⟨r', ancestors', hl, -, -, -, hsame⟩ := exists_merge_cons r ancestors name
      rwa [hl]
  refine ⟨?_, (hsame l').trans (h.merges.trans fun x => (hsame l x).symm)⟩
  have hanswer := h.merges name
  have hafresh : (l'.mergedDefinition name).value.2.map Registry.afresh =
      (l.mergedDefinition name).value.2.map Registry.afresh := by
    rw [map_afresh_mergedDefinition, map_afresh_mergedDefinition, h.afresh]
  rw [value_merge, value_merge]
  rcases hm' : (l'.mergedDefinition name).value with ⟨answer', later'⟩
  rcases hm : (l.mergedDefinition name).value with ⟨answer, later⟩
  rw [hm', hm] at hanswer hafresh
  obtain rfl : answer' = answer := hanswer
  cases answer' with
  | error e => exact hafresh
  | ok d => exact map_afresh_modifyHead (fun r r' hr => Registry.afresh_connectAll hr _ _) hafresh

/-- Undisturbed lineages stay so when both merge names one after the other. -/
theorem Undisturbed.mergeEach : ∀ (names : List String) {l l' : Lineage}, Undisturbed l' l →
    Undisturbed (l'.mergeEach names).value (l.mergeEach names).value
  | [], _, _, h => h
  | name :: names, _, _, h => by
    rw [Lineage.mergeEach, Lineage.mergeEach, Traced.value_bind, Traced.value_bind]
    exact Undisturbed.mergeEach names (h.merge name)

/-- A request changes undisturbed lineages alike, apart from what they remember. -/
theorem Undisturbed.map_afresh_request (h : Undisturbed l' l) (q : Request) :
    (q.run l').map Registry.afresh = (q.run l).map Registry.afresh := by
  cases q with
  | change c =>
    refine map_afresh_modifyHead (fun r r' hr => ?_) h.afresh
    rw [c.afresh_run, hr, ← c.afresh_run]
  | upkeep u =>
    refine map_afresh_modifyHead (fun r r' hr => ?_) h.afresh
    rw [u.afresh_run, hr, ← u.afresh_run]
  | merge name => exact (h.merge name).afresh
  | teardown =>
    rw [Request.run, Request.run, value_teardown, value_teardown]
    have hafresh := h.afresh
    cases l with
    | nil => rw [List.map_eq_nil_iff.mp hafresh]
    | cons r ancestors =>
      cases l' with
      | nil => cases hafresh
      | cons r' ancestors' =>
        have hr : r'.afresh = r.afresh := (List.cons.inj hafresh).1
        have hnames : r'.definedNames = r.definedNames := (congrArg Registry.definedNames hr :)
        dsimp only
        rw [hnames]
        exact (h.mergeEach r.definedNames).afresh

/-- A request to a level further up is one to the lineage from any lower level on. -/
theorem drop_onLevel (q : Request) : ∀ (level more : Nat) (l : Lineage),
    (l.onLevel (level + more) q.run).drop level = onLevel (l.drop level) more q.run
  | 0, more, l => by rw [Nat.zero_add, List.drop_zero, List.drop_zero]
  | level + 1, more, [] => by
    have hnil : q.run [] = [] := List.length_eq_zero_iff.mp (length_request q [])
    simp [onLevel, hnil]
  | level + 1, more, r :: ancestors => by
    rw [Nat.add_right_comm]
    exact drop_onLevel q level more ancestors

/-- Lineages that are truthful differ in nothing but what they remember, if their tables agree. -/
theorem undisturbed_of_truthful (h : l'.map Registry.afresh = l.map Registry.afresh)
    (ht' : Truthful l') (ht : Truthful l) : Undisturbed l' l := by
  have hnames := names_of_map_standing (map_standing_of_map_bare (map_bare_of_map_afresh h))
  refine ⟨h, fun name => ?_⟩
  rw [mergedDefinition_of_truthful name ht', mergedDefinition_of_truthful name ht, hnames]

/-- Two lineages of which the registries from a level on differ in what they remember, as long as
there are fewer mutations to come than the revisions can count. -/
structure Abreast (level : Nat) (later : List (Nat × Request)) (l' l : Lineage) : Prop where
  afresh : (l'.drop level).map Registry.afresh = (l.drop level).map Registry.afresh
  coherent : Coherent l' ∧ Coherent l
  counted : age l' + l'.mutations later < 2 ^ 64 ∧ age l + l.mutations later < 2 ^ 64

/-- Lineages that go abreast are undisturbed from their level on. -/
theorem Abreast.undisturbed {later : List (Nat × Request)} (h : Abreast level later l' l)
    (more : Nat) : Undisturbed (l'.drop (level + more)) (l.drop (level + more)) := by
  have truthful : ∀ {l : Lineage}, Coherent l → age l + l.mutations later < 2 ^ 64 →
      Truthful (l.drop (level + more)) := fun {l} hc hcount =>
    truthful_of_coherent (by have := age_drop_le l (level + more); omega) (hc.drop _)
  refine undisturbed_of_truthful ?_ (truthful h.coherent.1 h.counted.1)
    (truthful h.coherent.2 h.counted.2)
  rw [← List.drop_drop, ← List.drop_drop, List.map_drop, h.afresh, ← List.map_drop]

/-- A request to any level keeps two lineages abreast. -/
theorem Abreast.step {q : Nat × Request} {later : List (Nat × Request)}
    (h : Abreast level (q :: later) l' l) :
    Abreast level later (l'.onLevel q.1 q.2.run) (l.onLevel q.1 q.2.run) := by
  have counted : ∀ {l : Lineage}, Coherent l → age l + l.mutations (q :: later) < 2 ^ 64 →
      Coherent (l.onLevel q.1 q.2.run) ∧
        age (l.onLevel q.1 q.2.run) + mutations (l.onLevel q.1 q.2.run) later < 2 ^ 64 := by
    intro l hc hcount
    rw [mutations] at hcount
    have hq : l.mutations [q] = q.2.mutations (l.drop q.1) := rfl
    obtain ⟨hage, hco⟩ : age (l.run [q]) = age l + l.mutations [q] ∧ Coherent (l.run [q]) :=
      coherent_run (by omega) hc
    rw [run_cons, run_nil] at hage hco
    exact ⟨hco, by omega⟩
  obtain ⟨hco', hcount'⟩ := counted h.coherent.1 h.counted.1
  obtain ⟨hco, hcount⟩ := counted h.coherent.2 h.counted.2
  refine ⟨?_, ⟨hco', hco⟩, hcount', hcount⟩
  rcases Nat.lt_or_ge q.1 level with hbelow | habove
  · rw [(undisturbed_drop_onLevel q.2 q.1 hbelow l').afresh,
      (undisturbed_drop_onLevel q.2 q.1 hbelow l).afresh, h.afresh]
  · obtain ⟨more, hmore⟩ := Nat.exists_eq_add_of_le habove
    rw [hmore, drop_onLevel, drop_onLevel, onLevel, onLevel, List.map_append, List.map_append,
      List.map_take, List.map_take, h.afresh, List.drop_drop, List.drop_drop,
      (h.undisturbed more).map_afresh_request]

/-- Two lineages stay abreast along a whole run. -/
theorem Abreast.run : ∀ {later : List (Nat × Request)} {l l' : Lineage},
    Abreast level later l' l → Abreast level [] (l'.run later) (l.run later)
  | [], _, _, h => h
  | _ :: _, _, _, h => by
    rw [run_cons, run_cons]
    exact Abreast.run h.step

/-! ## Isolation -/

/-- Requests to descendants leave a lineage undisturbed. -/
theorem undisturbed_after_descendants (policies : List Policy)
    (earlier : List (Nat × Request)) {requests : List (Nat × Request)}
    (hbelow : ∀ q ∈ requests, q.1 < level) :
    Undisturbed (after policies (earlier ++ requests) level) (after policies earlier level) := by
  rw [after, after, run_append]
  exact undisturbed_drop_run _ hbelow

/-- A run with the requests to descendants goes abreast of the run without them. -/
theorem abreast_after_descendants (policies : List Policy) (earlier later : List (Nat × Request))
    {requests : List (Nat × Request)} (hbelow : ∀ q ∈ requests, q.1 < level)
    (hwith : (founded policies).mutations (earlier ++ requests ++ later) < 2 ^ 64)
    (hwithout : (founded policies).mutations (earlier ++ later) < 2 ^ 64) :
    Abreast level later ((founded policies).run (earlier ++ requests))
      ((founded policies).run earlier) := by
  rw [mutations_append] at hwith hwithout
  have hzero := age_founded policies
  have counted : ∀ requests, (founded policies).mutations requests < 2 ^ 64 →
      age ((founded policies).run requests) = (founded policies).mutations requests ∧
        Coherent ((founded policies).run requests) := fun requests h => by
    have hrun := coherent_run (by rwa [hzero, Nat.zero_add]) (coherent_founded policies)
    rwa [hzero, Nat.zero_add] at hrun
  obtain ⟨hage', hco'⟩ := counted (earlier ++ requests) (by omega)
  obtain ⟨hage, hco⟩ := counted earlier (by omega)
  exact ⟨(undisturbed_after_descendants policies earlier hbelow).afresh, ⟨hco', hco⟩,
    by omega, by omega⟩

/-- Whatever was asked before, the registry at a level gives the same answers after any requests to
its descendants as before them. It does so later on as well, after any requests to whichever
registries, as if its descendants had never been asked, as long as there are fewer mutations than
the revisions can count. -/
theorem replies_after_descendants (policies : List Policy) (earlier requests : List (Nat × Request))
    (level : Nat) (hbelow : ∀ q ∈ requests, q.1 < level) :
    (after policies (earlier ++ requests) level).replies = (after policies earlier level).replies ∧
    ∀ later, (founded policies).mutations (earlier ++ requests ++ later) < 2 ^ 64 →
      (founded policies).mutations (earlier ++ later) < 2 ^ 64 →
      (after policies (earlier ++ requests ++ later) level).replies =
        (after policies (earlier ++ later) level).replies := by
  refine ⟨(undisturbed_after_descendants policies earlier hbelow).replies_eq,
    fun later hwith hwithout => ?_⟩
  have h := (abreast_after_descendants policies earlier later hbelow hwith hwithout).run
  rw [← run_append, ← run_append] at h
  exact (h.undisturbed 0).replies_eq

/-- A child refines what its parent and its grandparent define, and merging it leaves merged
definitions in the memories of both. -/
def refinedByChild : List (Nat × Request) := [
  (0, .change (.register "store" (.childOf "store"))), (0, .merge "store"),
  (0, .upkeep (.connect "store" "base")), (0, .upkeep (.mark "store")), (0, .teardown),
  (0, .change .clear)]

theorem replies_after_refinedByChild :
    let policies : List Policy := [{}, {}, {}]
    let earlier : List (Nat × Request) := [(2, .change (.register "base" (.ofClass "Disk"))),
      (1, .change (.register "store" (.childOf "base")))]
    let later : List (Nat × Request) := [(2, .change (.register "base" (.ofClass "Memory")))]
    (after policies earlier 1).map (·.memory.keys) = [[], []] ∧
    (after policies (earlier ++ refinedByChild) 1).map (·.memory.keys) = [["store"], ["base"]] ∧
    (after policies (earlier ++ refinedByChild) 1).replies = (after policies earlier 1).replies ∧
    (after policies (earlier ++ refinedByChild ++ later) 1).replies =
      (after policies (earlier ++ later) 1).replies := by
  intro policies earlier later
  obtain ⟨now, afterwards⟩ :=
    replies_after_descendants policies earlier refinedByChild 1 (by decide)
  exact ⟨by decide +kernel, by decide +kernel, now,
    afterwards later (by decide +kernel) (by decide +kernel)⟩

end Lineage

end Blueprint
