import Blueprint.Proofs.Lineage.Answers
import Blueprint.Proofs.Lineage.AppendOnly

/-!
# The scopes that a lineage knows

A scope is kept without the blanks around it when it is registered, and no request takes it away
again. So along a run a registry has just the scopes of the registrations that it has accepted
(`Lineage.mem_custom_iff_granted`), and a lineage knows those of all its registries besides the
built-in ones.

Who asks for a scope has to leave the blanks out : a merge passes the check with a scope that was
registered if that has no blanks around it, and fails with the same text otherwise
(`Lineage.knownScopes_of_run`).
-/

namespace Blueprint

variable {r r' : Registry} {l : Lineage} {level : Nat} {scope text : String}

/-! ## One registration -/

/-- What is accepted is there afterwards, without the blanks around it. -/
theorem Scopes.mem_custom_of_register {s s' : Scopes} (h : (s.register text).value = .ok s') :
    scope ∈ s'.custom ↔ scope ∈ s.custom ∨ Text.trim text = scope := by
  rw [register] at h
  split at h
  · cases h
  · split at h
    · cases h
    · split at h
      · rename_i hthere
        cases h
        refine ⟨.inl, fun hscope => hscope.elim id ?_⟩
        rintro rfl
        simpa using hthere
      · cases h
        simp [eq_comm]

theorem Scopes.trim_of_mem_builtIn (h : scope ∈ builtIn) : Text.trim scope = scope := by
  simp only [builtIn, List.mem_cons, List.not_mem_nil, or_false] at h
  rcases h with rfl | rfl <;> decide

/-- A text registers its scope, or is refused and leaves the registry as it was. -/
theorem Registry.value_registerScope (r : Registry) (text : String) :
    (r.registerScope text).value = match (r.scopes.register text).value with
      | .ok scopes => (.ok (), { r with scopes })
      | .error e => (.error e, r) := by
  rw [registerScope, Traced.value_bind]
  cases (r.scopes.register text).value <;> rfl

/-- An accepted registration adds the scope without the blanks around it. -/
theorem Registry.mem_custom_registerScope :
    scope ∈ (r.registerScope text).value.2.scopes.custom ↔ scope ∈ r.scopes.custom ∨
      (r.registerScope text).value.1 = .ok () ∧ Text.trim text = scope := by
  rw [value_registerScope]
  cases hregister : (r.scopes.register text).value with
  | error e => simp
  | ok scopes => simp [Scopes.mem_custom_of_register hregister]

/-! ## One request -/

/-- Upkeep that registers no scope leaves the scopes. -/
theorem Upkeep.scopes_run {u : Upkeep} (hu : ∀ text, u ≠ .registerScope text) (r : Registry) :
    (u.run r).scopes = r.scopes := by
  cases u with
  | registerScope text => exact absurd rfl (hu text)
  | connect dependent dependency => rfl
  | mark name =>
    simp only [run, Registry.mark, Traced.value_bind]
    cases (r.tracker.mark (r.names.denoted name)).value <;> rfl
  | unmark name => rfl
  | begin name =>
    simp only [run, Registry.begin, Traced.value_bind]
    cases (r.tracker.begin (r.names.denoted name)).value <;> rfl
  | release guard => rfl

namespace Lineage

theorem onLevel_upkeep (l : Lineage) (level : Nat) (u : Upkeep) :
    l.onLevel level (Request.upkeep u).run = l.modify level u.run := by
  rw [List.modify_eq_take_drop]
  rfl

/-- What changes one registry leaves the scopes of all others. -/
theorem scopes_getElem?_modify {f : Registry → Registry} {position : Nat}
    (hf : position = level → ∀ r, (f r).scopes = r.scopes) (l : Lineage) :
    (l.modify position f)[level]?.map (·.scopes) = l[level]?.map (·.scopes) := by
  rw [List.getElem?_modify]
  cases l[level]? with
  | none => rfl
  | some r =>
    by_cases h : position = level
    · simp [h, hf h]
    · simp [h]

/-- Nothing but a registration of a scope changes what scopes a registry has. -/
theorem scopes_getElem?_onLevel {q : Nat × Request}
    (hq : ∀ text, q ≠ (level, .upkeep (.registerScope text))) (l : Lineage) :
    (l.onLevel q.1 q.2.run)[level]?.map (·.scopes) = l[level]?.map (·.scopes) := by
  obtain ⟨position, q⟩ := q
  -- Merges and teardowns may change ancestors, too, but only what `bare` leaves out.
  have of_bare (h : (q.run (l.drop position)).map Registry.bare =
      (l.drop position).map Registry.bare) :
      (l.onLevel position q.run)[level]?.map (·.scopes) = l[level]?.map (·.scopes) := by
    have hbare : (l.onLevel position q.run).map Registry.bare = l.map Registry.bare := by
      rw [onLevel, List.map_append, h, ← List.map_append, List.take_append_drop]
    have hlevel := congrArg (fun bares => bares[level]?.map fun r : Registry => r.scopes) hbare
    simpa [Function.comp_def, Registry.bare] using hlevel
  cases q with
  | change c =>
    rw [onLevel_change]
    exact scopes_getElem?_modify (fun _ r => congrArg (·.2.1) (c.setup_run r)) l
  | upkeep u =>
    rw [onLevel_upkeep]
    refine scopes_getElem?_modify (fun hposition => Upkeep.scopes_run fun text hu => ?_) l
    exact hq text (Prod.ext hposition (congrArg Request.upkeep hu))
  | merge name => exact of_bare (map_bare_merge _ name)
  | teardown => exact of_bare (map_bare_teardown _)

/-- A request leaves the scopes of a registry, and adds one if it is a registration that is
accepted. -/
theorem mem_custom_onLevel (q : Nat × Request) (hr : (l.onLevel q.1 q.2.run)[level]? = some r') :
    ∃ r, l[level]? = some r ∧ ∀ scope, scope ∈ r'.scopes.custom ↔ scope ∈ r.scopes.custom ∨
      ∃ text, q = (level, .upkeep (.registerScope text)) ∧
        (r.registerScope text).value.1 = .ok () ∧ Text.trim text = scope := by
  by_cases hq : ∃ text, q = (level, .upkeep (.registerScope text))
  · obtain ⟨text, rfl⟩ := hq
    rw [onLevel_upkeep, List.getElem?_modify_eq] at hr
    obtain ⟨r, hlevel, rfl⟩ := Option.map_eq_some_iff.mp hr
    refine ⟨r, hlevel, fun scope => ?_⟩
    rw [Upkeep.run, Registry.mem_custom_registerScope]
    refine or_congr_right ⟨fun h => ⟨text, rfl, h⟩, ?_⟩
    rintro ⟨text', heq, h⟩
    cases heq
    exact h
  · have hscopes := scopes_getElem?_onLevel (fun text h => hq ⟨text, h⟩) l
    rw [hr] at hscopes
    obtain ⟨r, hlevel, hsame⟩ := Option.map_eq_some_iff.mp hscopes.symm
    have hsame : r.scopes = r'.scopes := hsame
    refine ⟨r, hlevel, fun scope => ?_⟩
    rw [hsame]
    refine ⟨.inl, fun h => h.resolve_right ?_⟩
    rintro ⟨text, heq, -⟩
    exact hq ⟨text, heq⟩

/-! ## Runs -/

/-- At some point of a run, the registry at a level accepts a scope. -/
def Granted (policies : List Policy) (requests : List (Nat × Request)) (level : Nat)
    (text : String) : Prop :=
  ∃ earlier later r, requests = earlier ++ (level, .upkeep (.registerScope text)) :: later ∧
    ((founded policies).run earlier)[level]? = some r ∧ (r.registerScope text).value.1 = .ok ()

variable {policies : List Policy} {requests : List (Nat × Request)} {q : Nat × Request}

theorem not_granted_nil : ¬Granted policies [] level text := by
  rintro ⟨earlier, later, r, heq, -⟩
  simp at heq

/-- What was accepted after one more request was before, or is what the request asks for. -/
theorem granted_concat_iff : Granted policies (requests ++ [q]) level text ↔
    Granted policies requests level text ∨ q = (level, .upkeep (.registerScope text)) ∧
      ∃ r, ((founded policies).run requests)[level]? = some r ∧
        (r.registerScope text).value.1 = .ok () := by
  constructor
  · rintro ⟨earlier, later, r, heq, hr, haccepted⟩
    rcases List.eq_nil_or_concat later with rfl | ⟨later, last, rfl⟩
    · obtain ⟨rfl, hq⟩ := List.append_inj' heq rfl
      exact .inr ⟨List.singleton_inj.mp hq, r, hr, haccepted⟩
    · have hlast : requests ++ [q] =
          (earlier ++ (level, .upkeep (.registerScope text)) :: later) ++ [last] := by
        simpa using heq
      obtain ⟨rfl, -⟩ := List.append_inj' hlast rfl
      exact .inl ⟨earlier, later, r, rfl, hr, haccepted⟩
  · rintro (⟨earlier, later, r, rfl, hr, haccepted⟩ | ⟨rfl, r, hr, haccepted⟩)
    · exact ⟨earlier, later ++ [q], r, by simp, hr, haccepted⟩
    · exact ⟨requests, [], r, rfl, hr, haccepted⟩

/-- The scopes that a registry has are those of the registrations that it has accepted. -/
theorem mem_custom_iff_granted (hr : ((founded policies).run requests)[level]? = some r) :
    scope ∈ r.scopes.custom ↔ ∃ text, Granted policies requests level text ∧
      Text.trim text = scope := by
  -- The last request is the one whose effect on the registry is known, so it is split off.
  induction requests using List.reverseRecOn generalizing r with
  | nil =>
    obtain ⟨policy, depth, rfl⟩ := exists_eq_of_mem_founded r (List.mem_of_getElem? hr)
    refine ⟨fun h => absurd h List.not_mem_nil, ?_⟩
    rintro ⟨text, hgranted, -⟩
    exact absurd hgranted not_granted_nil
  | append_singleton requests q ih =>
    rw [run_append, run_cons, run_nil] at hr
    obtain ⟨before, hbefore, hcustom⟩ := mem_custom_onLevel q hr
    simp only [hcustom, ih hbefore, granted_concat_iff, hbefore, Option.some.injEq,
      exists_eq_left', or_and_right, exists_or, and_assoc]

theorem Granted.exists_registry (h : Granted policies requests level text) :
    ∃ r, ((founded policies).run requests)[level]? = some r := by
  obtain ⟨earlier, later, r, rfl, hr, -⟩ := h
  have hlt := (List.getElem?_eq_some_iff.mp hr).1
  rw [length_run] at hlt
  exact ⟨_, List.getElem?_eq_getElem (by rwa [length_run])⟩

variable {ancestors : Lineage}

/-- A lineage knows the built-in scopes, and those that its registries have accepted. -/
theorem knowsScope_iff_granted (h : after policies requests level = r :: ancestors) :
    knowsScope (r :: ancestors) scope = true ↔ scope ∈ Scopes.builtIn ∨
      ∃ above text, level ≤ above ∧ Granted policies requests above text ∧
        Text.trim text = scope := by
  have hcontains (s : Registry) : s.scopes.contains scope = true ↔
      scope ∈ Scopes.builtIn ∨ scope ∈ s.scopes.custom := by
    simp [Scopes.contains, Scopes.names]
  have hlevel (distance : Nat) :
      (r :: ancestors)[distance]? = ((founded policies).run requests)[level + distance]? := by
    rw [← h, after, List.getElem?_drop]
  rw [knowsScope, List.any_eq_true]
  constructor
  · rintro ⟨s, hs, hknown⟩
    refine ((hcontains s).mp hknown).imp_right fun hcustom => ?_
    obtain ⟨distance, hs⟩ := List.mem_iff_getElem?.mp hs
    rw [hlevel] at hs
    obtain ⟨text, hgranted, htext⟩ := (mem_custom_iff_granted hs).mp hcustom
    exact ⟨level + distance, text, Nat.le_add_right level distance, hgranted, htext⟩
  · rintro (hbuiltIn | ⟨above, text, hle, hgranted, htext⟩)
    · exact ⟨r, List.mem_cons_self, (hcontains r).mpr (.inl hbuiltIn)⟩
    · obtain ⟨s, hs⟩ := hgranted.exists_registry
      have hmem : (r :: ancestors)[above - level]? = some s := by
        rw [hlevel, Nat.add_sub_cancel' hle, hs]
      exact ⟨s, List.mem_of_getElem? hmem,
        (hcontains s).mpr (.inr ((mem_custom_iff_granted hs).mpr ⟨text, hgranted, htext⟩))⟩

/-- The text of a registration that a lineage accepted is known to it if no blanks stand around
it. -/
theorem knowsScope_text_iff {above : Nat} (h : after policies requests level = r :: ancestors)
    (hle : level ≤ above) (hgranted : Granted policies requests above text) :
    knowsScope (r :: ancestors) text = true ↔ Text.trim text = text := by
  rw [knowsScope_iff_granted h]
  constructor
  · rintro (hbuiltIn | ⟨_, given, -, -, rfl⟩)
    · exact Scopes.trim_of_mem_builtIn hbuiltIn
    · exact Text.trim_trim given
  · exact fun htrim => .inr ⟨above, text, hle, hgranted, htrim⟩

/-- A scope that a registry has accepted, at whatever point of a run, is known to it and to all its
descendants from then on, and lets merges pass, without the blanks around it. With these blanks it
is unknown to them. A merge passes only with a scope that is built in, or that was accepted by the
registry or an ancestor. -/
theorem knownScopes_of_run (policies : List Policy) (requests : List (Nat × Request)) (level : Nat)
    (h : after policies requests level = r :: ancestors) :
    (∀ above text, level ≤ above → Granted policies requests above text →
      knowsScope (r :: ancestors) (Text.trim text) = true ∧
      (knowsScope (r :: ancestors) text = true ↔ Text.trim text = text) ∧
      ∀ name d, (mergedDefinition (r :: ancestors) name).value.1 = .ok d →
        (d.effectiveScope = Text.trim text → (merge (r :: ancestors) name).value.1 = .ok d) ∧
        (d.effectiveScope = text → (merge (r :: ancestors) name).value.1 =
          if Text.trim text = text then .ok d else .error (.unknownScope name text))) ∧
    ∀ name d, (merge (r :: ancestors) name).value.1 = .ok d →
      d.effectiveScope ∈ Scopes.builtIn ∨ ∃ above text, level ≤ above ∧
        Granted policies requests above text ∧ Text.trim text = d.effectiveScope := by
  have merged {name : String} {d : Definition}
      (hd : (mergedDefinition (r :: ancestors) name).value.1 = .ok d) :
      (merge (r :: ancestors) name).value.1 = inKnownScope (r :: ancestors) name d := by
    rw [answer_merge, hd]
    rfl
  refine ⟨fun above text hle hgranted => ?_, fun name d hmerge => ?_⟩
  · have hknown := (knowsScope_iff_granted h).mpr (.inr ⟨above, text, hle, hgranted, rfl⟩)
    have htext := knowsScope_text_iff h hle hgranted
    refine ⟨hknown, htext, fun name d hd => ⟨fun hscope => ?_, fun hscope => ?_⟩⟩
    · rw [merged hd, inKnownScope, hscope, if_pos hknown]
    · simp only [merged hd, inKnownScope, hscope, htext]
  · have hd := mergedDefinition_of_merge_eq_ok hmerge
    rw [merged hd, inKnownScope] at hmerge
    split at hmerge
    · exact (knowsScope_iff_granted h).mp ‹_›
    · cases hmerge

/-- A scope that is registered above with a blank behind it, and a component in that scope. -/
def requestScope : List (Nat × Request) := [
  (1, .upkeep (.registerScope "request ")),
  (0, .change (.register "svc" { Definition.ofClass "Service" with scope := some "request" })),
  (0, .change (.register "job" { Definition.ofClass "Job" with scope := some "request " }))]

theorem granted_requestScope : Granted [{}, {}] requestScope 1 "request " :=
  ⟨[], _, _, rfl, rfl, rfl⟩

/-- The registry below knows the scope without the blank, and merges the component. -/
theorem merge_requestScope : ∃ r ancestors, after [{}, {}] requestScope 0 = r :: ancestors ∧
    knowsScope (r :: ancestors) "request" = true ∧
    (merge (r :: ancestors) "svc").value.1 =
      .ok { Definition.ofClass "Service" with scope := some "request" } := by
  obtain ⟨r, ancestors, hrun, hd⟩ : ∃ r ancestors, after [{}, {}] requestScope 0 = r :: ancestors ∧
      (mergedDefinition (r :: ancestors) "svc").value.1 =
        .ok { Definition.ofClass "Service" with scope := some "request" } := ⟨_, _, rfl, rfl⟩
  have htrim : Text.trim "request " = "request" := by decide
  obtain ⟨hknown, -, hmerge⟩ := (knownScopes_of_run _ _ _ hrun).1 1 "request " (Nat.zero_le 1)
    granted_requestScope
  exact ⟨r, ancestors, hrun, htrim ▸ hknown, (hmerge "svc" _ hd).1 (by decide)⟩

/-- The text that was registered is unknown, also where it was registered. -/
theorem unknownScope_of_requestScope :
    Granted [{}, {}] requestScope 1 "request " ∧
      knowsScope (after [{}, {}] requestScope 1) "request " = false ∧
      (mergedDefinition (after [{}, {}] requestScope 0) "job").value.1.map (·.effectiveScope) =
        .ok "request " ∧
      ((after [{}, {}] requestScope 0).merge "job").value.1 =
        .error (.unknownScope "job" "request ") :=
  ⟨granted_requestScope, by decide +kernel, rfl, rfl⟩

end Lineage

end Blueprint
