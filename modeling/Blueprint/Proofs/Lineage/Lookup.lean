import Blueprint.Proofs.Lineage.Origin

/-!
# What was registered is found

`Lineage.latest?` reads off a run which definition was accepted last for a name at a level. A
definition that is still in the tables is always that one : a change leaves under a name what it
registers there itself, or what was there before it (`Change.or_of_get?_run`).

Lookups take the marks off a name before anything else, and registrations keep them. So a name
without marks is looked up as it was registered, and so is an alias without marks that leads to a
definition, while a name with marks is looked up as the one without (`get_eq_latest`). A component
that was registered under a name with a mark is not found again (`get_markedComponent`).
-/

namespace Blueprint

/-! ## The latest definition -/

/-- The definition that a change gives to a name, if it is accepted. -/
def Change.registered? : Change → Registry → (name : String) → Option Definition
  | .register key d, r, name =>
    if key = name ∧ (r.register key d).value.1.isOk then some d else none
  | .declare d, r, name =>
    if d.name = name ∧ (r.declare d).value.1.isOk then some d.definition else none
  | .remove _, _, _ | .registerAlias _ _, _, _ | .removeAlias _, _, _ | .clear, _, _ => none

/-- The definition that a request gives to a name in the nearest registry, if it is accepted. -/
def Request.registered? : Request → Lineage → (name : String) → Option Definition
  | .change c, r :: _, name => c.registered? r name
  | _, _, _ => none

/-- The definition that requests gave last to a name in the registry at a level, whether or not it
is there in the end. -/
def Lineage.latest? (level : Nat) (name : String) : Lineage → (requests : List (Nat × Request)) →
    Option Definition
  | _, [] => none
  | l, q :: requests =>
    (latest? level name (l.onLevel q.1 q.2.run) requests).or
      (if q.1 = level then q.2.registered? (l.drop level) name else none)

variable {r r' : Registry} {l : Lineage} {level : Nat} {name : String} {d : Definition}

/-- What a name has after a change was registered by it, or was there before. -/
theorem Change.or_of_get?_run (c : Change) (hr : r.names.Sound)
    (h : (c.run r).names.definitions.get? name = some d) :
    (c.registered? r name).or (r.names.definitions.get? name) = some d := by
  cases c with
  | register key e =>
    rw [run, Registry.value_register] at h
    rw [registered?, Registry.value_register]
    cases hdef : (r.names.define r.policy key e).value with
    | error cause => simpa [hdef, Except.isOk, Except.toBool] using h
    | ok names =>
      simp only [hdef, Registry.withNames, (Names.define_eq_ok hdef).2.1, Table.get?_insert] at h
      by_cases hname : name = key
      · simpa [hname, Except.isOk, Except.toBool] using h
      · have hkey : key ≠ name := fun e => hname e.symm
        simpa [hname, hkey] using h
  | declare e =>
    rw [run] at h
    rw [registered?]
    rcases hdeclare : (r.declare e).value with ⟨cause | ⟨⟩, after⟩
    · have hsame := (Registry.get?_names_declare_of_error hr hdeclare).1
      simpa [hdeclare, hsame, Except.isOk, Except.toBool] using h
    · rw [hdeclare, Registry.definitions_declare_of_ok hdeclare, Table.get?_insert] at h
      by_cases hname : name = e.name
      · simpa [hname, Except.isOk, Except.toBool] using h
      · have hkey : e.name ≠ name := fun e => hname e.symm
        simpa [hname, hkey] using h
  | remove key =>
    rw [run, Registry.value_remove] at h
    rw [registered?, Option.none_or]
    cases hkey : r.names.definitions.get? key with
    | none => simpa only [hkey] using h
    | some e =>
      simp only [hkey, Registry.withNames, Table.get?_erase] at h
      split at h
      · cases h
      · exact h
  | registerAlias key aliasName =>
    rw [run, Registry.definitions_registerAlias] at h
    exact h
  | removeAlias aliasName =>
    rw [run, Registry.removeAlias] at h
    split at h <;> exact h
  | clear => cases h

namespace Lineage

/-- A change is made to the registry at its level, and to no other. -/
theorem onLevel_change (l : Lineage) (level : Nat) (c : Change) :
    l.onLevel level (Request.change c).run = l.modify level c.run := by
  rw [List.modify_eq_take_drop]
  rfl

theorem getElem?_onLevel_change (l : Lineage) (level : Nat) (c : Change) :
    (l.onLevel level (Request.change c).run)[level]? = l[level]?.map c.run := by
  rw [onLevel_change, List.getElem?_modify_eq]
  rfl

/-- Nothing but a change of a registry changes what it stands for. -/
theorem standing_getElem?_onLevel {q : Nat × Request} (hq : ∀ c, q ≠ (level, .change c))
    (l : Lineage) :
    (l.onLevel q.1 q.2.run)[level]?.map Registry.standing = l[level]?.map Registry.standing := by
  obtain ⟨at', q⟩ := q
  by_cases hc : ∃ c, q = .change c
  · obtain ⟨c, rfl⟩ := hc
    have hne : at' ≠ level := fun e => hq c (by rw [e])
    rw [onLevel_change, List.getElem?_modify_ne _ _ hne]
  · have hstanding : (l.onLevel at' q.run).map Registry.standing = l.map Registry.standing := by
      rw [onLevel, List.map_append, q.map_standing_run fun c h => hc ⟨c, h⟩, ← List.map_append,
        List.take_append_drop]
    rw [← List.getElem?_map, hstanding, List.getElem?_map]

theorem sound_onLevel (q : Nat × Request) (hl : ∀ r ∈ l, r.names.Sound) :
    ∀ r ∈ l.onLevel q.1 q.2.run, r.names.Sound :=
  have single : ∀ r ∈ l.run [q], r.names.Sound := forall_mem_run (fun q _ => sound_request q.2) hl
  single

/-- What a name has at a level after a request was registered by it, or was there before. -/
theorem or_of_get?_onLevel (q : Nat × Request) (hl : ∀ r ∈ l, r.names.Sound)
    (hr : (l.onLevel q.1 q.2.run)[level]? = some r') :
    ∃ r, l[level]? = some r ∧ ∀ d, r'.names.definitions.get? name = some d →
      (if q.1 = level then q.2.registered? (l.drop level) name else none).or
        (r.names.definitions.get? name) = some d := by
  by_cases hq : ∃ c, q = (level, .change c)
  · obtain ⟨c, rfl⟩ := hq
    rw [getElem?_onLevel_change] at hr
    obtain ⟨r, hlevel, rfl⟩ := Option.map_eq_some_iff.mp hr
    obtain ⟨hlt, hget⟩ := List.getElem?_eq_some_iff.mp hlevel
    have hdrop : l.drop level = r :: l.drop (level + 1) := by
      rw [List.drop_eq_getElem_cons hlt, hget]
    refine ⟨r, hlevel, fun d h => ?_⟩
    rw [if_pos rfl, hdrop]
    exact c.or_of_get?_run (hl r (hget ▸ List.getElem_mem hlt)) h
  · have hstanding := standing_getElem?_onLevel (fun c hc => hq ⟨c, hc⟩) l
    rw [hr] at hstanding
    obtain ⟨r, hlevel, hsame⟩ := Option.map_eq_some_iff.mp hstanding.symm
    have hnames : r.names = r'.names := congrArg Prod.fst hsame
    have hnone : (if q.1 = level then q.2.registered? (l.drop level) name else none) = none := by
      obtain ⟨at', q⟩ := q
      split
      · cases q with
        | change c => exact absurd ⟨c, by rw [‹at' = level›]⟩ hq
        | upkeep u => rfl
        | merge name => rfl
        | teardown => rfl
      · rfl
    exact ⟨r, hlevel, fun d h => by rw [hnone, Option.none_or, hnames, h]⟩

/-- What a name has after requests is the latest definition that they gave to it, or was there
before all of them. -/
theorem latest?_or_of_get?_run : ∀ {requests : List (Nat × Request)} {l : Lineage},
    (∀ r ∈ l, r.names.Sound) → (l.run requests)[level]? = some r' →
      r'.names.definitions.get? name = some d →
      ∃ r, l[level]? = some r ∧
        (latest? level name l requests).or (r.names.definitions.get? name) = some d
  | [], l, _, hr, h => ⟨r', hr, h⟩
  | q :: requests, l, hl, hr, h => by
    obtain ⟨s, hs, hlatest⟩ := latest?_or_of_get?_run (sound_onLevel q hl) hr h
    obtain ⟨r, hlevel, hstep⟩ := or_of_get?_onLevel q hl hs
    refine ⟨r, hlevel, ?_⟩
    rw [latest?, Option.or_assoc]
    cases hnew : latest? level name (l.onLevel q.1 q.2.run) requests with
    | some e => simpa [hnew] using hlatest
    | none =>
      rw [hnew, Option.none_or] at hlatest
      rw [Option.none_or]
      exact hstep d hlatest

/-! ## Lookups -/

/-- A name of which the canonical name is defined is found in the nearest registry. -/
theorem get_of_find? {ancestors : Lineage} (h : r.names.find? name = some d) :
    (get (r :: ancestors) name).value = .ok d := by
  rw [get, h]
  rfl

/-- A name without marks is looked up as it is. -/
theorem get_of_reflTransGen {ancestors : Lineage} {target : String} (hr : r.names.Sound)
    (hname : productName name = name)
    (hlead : Relation.ReflTransGen (Names.PointsAt r.names.aliases) name target)
    (htarget : r.names.definitions.get? target = some d) :
    (get (r :: ancestors) name).value = .ok d := by
  have hend := hr.disjoint target (Table.contains_of_get? htarget)
  refine get_of_find? ?_
  rw [Names.find?, Names.denoted, hname, hr.canonical_of_reflTransGen hlead hend, htarget]

/-- In every lineage of a run, a name that the nearest registry has a definition for has the one
that was accepted last. It is found under the name if that has no marks, and so it is under every
alias without marks that leads to it, and right after it was registered. A name with marks is
looked up as the one without. -/
theorem get_eq_latest (policies : List Policy) (requests : List (Nat × Request)) (level : Nat)
    {ancestors : Lineage} (h : after policies requests level = r :: ancestors) :
    (∀ name ∈ r.definedNames, ∃ d, latest? level name (founded policies) requests = some d ∧
      r.names.definitions.get? name = some d ∧
      (productName name = name → (get (r :: ancestors) name).value = .ok d)) ∧
    (∀ aliasName target d, Relation.ReflTransGen (Names.PointsAt r.names.aliases) aliasName target →
      r.names.definitions.get? target = some d → productName aliasName = aliasName →
        (get (r :: ancestors) aliasName).value = .ok d) ∧
    (∀ name d r', (r.register name d).value = (.ok (), r') → productName name = name →
      (get (r' :: ancestors) name).value = .ok d) ∧
    ∀ name, SameLookup name (productName name) (get (r :: ancestors) name).value
      (get (r :: ancestors) (productName name)).value := by
  have hrun : r ∈ (founded policies).run requests :=
    List.mem_of_mem_drop (show r ∈ after policies requests level from h ▸ List.mem_cons_self)
  have hs := sound_of_mem_run policies requests hrun
  refine ⟨fun name hname => ?_, fun a target d hlead htarget ha =>
    get_of_reflTransGen hs ha hlead htarget, fun name d r' hregister hname => ?_, fun name =>
    get_of_origin?_eq (origin?_congr fun s _ => s.names.denoted_productName name)⟩
  · have hdefined : (r.names.definitions.get? name).isSome := by
      rw [Table.isSome_get?]
      exact Table.mem_keys.mp hname
    obtain ⟨d, hd⟩ := Option.isSome_iff_exists.mp hdefined
    have hlevel : ((founded policies).run requests)[level]? = some r := by
      rw [← List.head?_drop, ← after, h]
      rfl
    obtain ⟨s, hfirst, hlatest⟩ := latest?_or_of_get?_run
      (fun r hr => (fresh_of_mem_founded r hr).1 ▸ Names.sound_empty) hlevel hd
    have hempty : s.names = {} := (fresh_of_mem_founded s (List.mem_of_getElem? hfirst)).1
    refine ⟨d, ?_, hd, fun hplain => get_of_reflTransGen hs hplain .refl hd⟩
    rw [hempty] at hlatest
    exact (Option.or_none ▸ hlatest :)
  · rw [Registry.value_register] at hregister
    cases hdef : (r.names.define r.policy name d).value with
    | error e => simp [hdef] at hregister
    | ok names =>
      simp only [hdef, Prod.mk.injEq, true_and] at hregister
      have hget : r'.names.definitions.get? name = some d := by
        rw [← hregister, Registry.withNames, (Names.define_eq_ok hdef).2.1, Table.get?_insert_self]
      exact get_of_reflTransGen (hregister ▸ hs.define hdef) hname .refl hget

/-- A component with an alias of an alias is registered again, and then a declaration of it is
refused. -/
def registeredAgain : List (Nat × Request) := [
  (0, .change (.register "store" (.ofClass "Disk"))),
  (0, .change (.registerAlias "store" "cache")), (0, .change (.registerAlias "cache" "fast")),
  (0, .change (.register "store" (.ofClass "Memory"))),
  (0, .change (.declare ⟨"store", [" "], .ofClass "Tape"⟩))]

theorem get_registeredAgain : ∃ r, after [{}] registeredAgain 0 = [r] ∧
    r.definedNames = ["store"] ∧
    latest? 0 "store" (founded [{}]) registeredAgain = some (.ofClass "Memory") ∧
    (get [r] "store").value = .ok (.ofClass "Memory") ∧
    (get [r] "fast").value = .ok (.ofClass "Memory") := by
  have htables : (after [{}] registeredAgain 0).map (fun r => (r.definedNames,
      r.names.definitions.get? "store", r.names.aliases.get? "fast",
      r.names.aliases.get? "cache")) =
    [(["store"], some (.ofClass "Memory"), some "cache", some "store")] := by rfl
  obtain ⟨r, hrun, hr⟩ := List.map_eq_singleton_iff.mp htables
  simp only [Prod.mk.injEq] at hr
  obtain ⟨hnames, hstore, hfast, hcache⟩ := hr
  obtain ⟨hdefined, halias, -, -⟩ := get_eq_latest [{}] registeredAgain 0 hrun
  obtain ⟨d, hlatest, hd, hget⟩ := hdefined "store" (by simp [hnames])
  obtain rfl : d = .ofClass "Memory" := Option.some.inj (hd.symm.trans hstore)
  exact ⟨r, hrun, hnames, hlatest, hget (by decide),
    halias "fast" "store" _ (.head hfast (.single hcache)) hstore (by decide)⟩

/-- A component is registered under a name with a mark. -/
def markedComponent : List (Nat × Request) := [
  (0, .change (.register "&store" (.ofClass "Disk")))]

theorem get_markedComponent : ∃ r, after [{}] markedComponent 0 = [r] ∧
    r.definedNames = ["&store"] ∧
    latest? 0 "&store" (founded [{}]) markedComponent = some (.ofClass "Disk") ∧
    (get [r] "&store").value = .error (.notFound "&store") :=
  ⟨_, rfl, rfl, rfl, rfl⟩

end Lineage

end Blueprint
