import Blueprint.Proofs.Compile.Itinerary
import Blueprint.Proofs.Registry.Introduction

/-!
# Verdicts on visits

What is visited asks for something of the registry (`Visit.demand`), unless it is refused before :
invalid defaults, a component that cannot be read, an alias that misses a name. `judge` carries out
the demands of a list of visits, each in the registry that the earlier ones left, and gives a
verdict on every visit.

What is rejected leaves what is in the tables under every name, and what is accepted introduces its
names. So a name has the last definition that was accepted for it, and points where the last
accepted introduction of it says (`registered_judge`).
-/

namespace Blueprint

/-! ## Demands -/

/-- What is asked of a registry. -/
inductive Demand where
  | nothing
  | declare (d : Declaration)
  | point (name aliasName : String)

namespace Demand

/-- Carries out a demand. -/
def run : Demand → Registry → Except Error Unit × Registry
  | .nothing, r => (.ok (), r)
  | .declare d, r => (r.declare d).value
  | .point name aliasName, r => (r.registerAlias name aliasName).value

/-- What it introduces where it is granted. -/
def introductions : Demand → List Introduction
  | .nothing => []
  | .declare d => d.introductions
  | .point name aliasName => [.aliasing aliasName name]

variable {q : Demand} {r r' : Registry} {cause : Error}

/-- A demand is granted just if what it stands for can be introduced. -/
theorem run_eq_ok_iff : q.run r = (.ok (), r') ↔ Introduced r q.introductions r' := by
  cases q with
  | nothing => simp [run, introductions]
  | declare d => exact declare_eq_ok_iff
  | point name aliasName =>
    simp only [run, introductions, introduced_cons_iff, introduced_nil_iff, Introduction.run,
      exists_eq_right]

/-- A demand that is refused leaves what is in the tables under every name. -/
theorem get?_names_run_of_error (hr : r.names.Sound) (h : q.run r = (.error cause, r')) :
    r'.names.definitions = r.names.definitions ∧
      ∀ x, r'.names.aliases.get? x = r.names.aliases.get? x := by
  cases q with
  | nothing => cases h
  | declare d => exact Registry.get?_names_declare_of_error hr h
  | point name aliasName =>
    rw [run, Registry.value_registerAlias] at h
    cases hpoint : (r.names.pointAlias r.policy name aliasName).value with
    | error cause' =>
      simp only [hpoint, Prod.mk.injEq] at h
      exact h.2 ▸ ⟨rfl, fun _ => rfl⟩
    | ok after => cases after <;> simp [hpoint] at h

end Demand

/-! ## Verdicts -/

namespace Visit

/-- What is asked for by what is visited, beside the names of a registry. -/
def demand (v : Visit) (registered : Names) : Except Error Demand :=
  match v.entry with
  | .invalidDefaults cause => .error cause
  | .component e defaults =>
    (v.declared.readComponent registered v.location defaults e).value.1.map .declare
  | .aliasing e =>
    match e.given "name", e.given "alias" with
    | some name, some aliasName => .ok (.point name aliasName)
    | none, aliasName => .error (.invalidAlias "" (aliasName.getD "") .blankName)
    | some name, none => .error (.invalidAlias name "" .blankAlias)
  | _ => .ok .nothing

/-- The name that a rejection is reported with. -/
def name? (v : Visit) : Option String :=
  match v.entry with
  | .component e _ => e.given "id"
  | .aliasing e => e.given "name"
  | _ => none

/-- What is introduced by a visit, or why it is rejected, and the registry after it. -/
def attempt (v : Visit) (r : Registry) : Except Error (List Introduction) × Registry :=
  match v.demand r.names with
  | .error cause => (.error cause, r)
  | .ok q => ((q.run r).1.map fun _ => q.introductions, (q.run r).2)

variable {v : Visit} {r r' : Registry} {q : Demand} {cause : Error} {answer : Except Error Unit}

theorem attempt_of_refused (h : v.demand r.names = .error cause) :
    v.attempt r = (.error cause, r) := by
  rw [attempt, h]

theorem attempt_of_run (h : v.demand r.names = .ok q) (hrun : q.run r = (answer, r')) :
    v.attempt r = (answer.map fun _ => q.introductions, r') := by
  simp only [attempt, h, hrun]

end Visit

/-- What came of a visit. -/
structure Verdict where
  visit : Visit
  outcome : Except Error (List Introduction)

namespace Verdict

/-- The visit was rejected. -/
def Rejected (v : Verdict) : Prop := ∃ cause, v.outcome = .error cause

/-- The rejection, where there is one. -/
def rejection? (v : Verdict) : Option (Rejection Error) :=
  match v.outcome with
  | .ok _ => none
  | .error cause => some ⟨v.visit.location, v.visit.index, v.visit.name?, cause⟩

/-- What was introduced, which is nothing after a rejection. -/
def introductions (v : Verdict) : List Introduction := v.outcome.toOption.getD []

theorem rejection?_eq_none_iff {v : Verdict} : v.rejection? = none ↔ ¬v.Rejected := by
  rw [Rejected, rejection?]
  cases v.outcome <;> simp

end Verdict

/-- The verdicts on visits, each in the registry that the earlier ones left, and the registry after
them. -/
def judge (r : Registry) : List Visit → List Verdict × Registry
  | [] => ([], r)
  | v :: visits =>
    let (outcome, after) := v.attempt r
    let (verdicts, last) := judge after visits
    (⟨v, outcome⟩ :: verdicts, last)

variable {r r' : Registry} {v : Visit} {visits visits' : List Visit} {is : List Introduction}
  {cause : Error}

/-- Later visits are judged in the registry that the earlier ones left. -/
theorem judge_append (r : Registry) (visits visits' : List Visit) :
    judge r (visits ++ visits') = ((judge r visits).1 ++ (judge (judge r visits).2 visits').1,
      (judge (judge r visits).2 visits').2) := by
  induction visits generalizing r with
  | nil => rfl
  | cons v visits ih => simp only [List.cons_append, judge, ih]

theorem map_visit_judge (r : Registry) (visits : List Visit) :
    (judge r visits).1.map (·.visit) = visits := by
  induction visits generalizing r with
  | nil => rfl
  | cons v visits ih => simp only [judge, List.map_cons, ih]

/-! ## What is in the registry -/

/-- What is accepted introduces what it stands for. -/
theorem introduced_of_attempt (h : v.attempt r = (.ok is, r')) : Introduced r is r' := by
  cases hdemand : v.demand r.names with
  | error cause => simp [Visit.attempt_of_refused hdemand] at h
  | ok q =>
    rcases hrun : q.run r with ⟨cause | ⟨⟩, after⟩
    · simp [Visit.attempt_of_run hdemand hrun, Except.map] at h
    · simp only [Visit.attempt_of_run hdemand hrun, Except.map, Prod.mk.injEq,
        Except.ok.injEq] at h
      obtain ⟨rfl, rfl⟩ := h
      exact Demand.run_eq_ok_iff.mp hrun

/-- A rejection leaves what is in the tables, under every name. -/
theorem get?_names_attempt_of_error (hr : r.names.Sound) (h : v.attempt r = (.error cause, r')) :
    r'.names.definitions = r.names.definitions ∧
      ∀ x, r'.names.aliases.get? x = r.names.aliases.get? x := by
  cases hdemand : v.demand r.names with
  | error cause' =>
    simp only [Visit.attempt_of_refused hdemand, Prod.mk.injEq] at h
    exact h.2 ▸ ⟨rfl, fun _ => rfl⟩
  | ok q =>
    rcases hrun : q.run r with ⟨cause' | ⟨⟩, after⟩
    · simp only [Visit.attempt_of_run hdemand hrun, Prod.mk.injEq] at h
      exact h.2 ▸ Demand.get?_names_run_of_error hr hrun
    · simp [Visit.attempt_of_run hdemand hrun, Except.map] at h

theorem sound_attempt (hr : r.names.Sound) (v : Visit) : (v.attempt r).2.names.Sound := by
  rcases h : v.attempt r with ⟨cause | is, r'⟩
  · obtain ⟨hd, ha⟩ := get?_names_attempt_of_error hr h
    exact hr.of_get? (fun x => by rw [hd]) ha
  · exact (introduced_of_attempt h).sound hr

/-- After some verdicts a name has the last definition that was accepted for it. -/
theorem definition_judge (hr : r.names.Sound) (visits : List Visit) (x : String) :
    (judge r visits).2.names.definitions.get? x =
      (((judge r visits).1.flatMap (·.introductions)).filterMap
        (·.definitionOf? x)).getLast?.or (r.names.definitions.get? x) := by
  induction visits generalizing r with
  | nil => rfl
  | cons v visits ih =>
    have first : (v.attempt r).2.names.definitions.get? x =
        ((Verdict.introductions ⟨v, (v.attempt r).1⟩).filterMap
          (·.definitionOf? x)).getLast?.or (r.names.definitions.get? x) := by
      rcases h : v.attempt r with ⟨cause | is, r'⟩
      · rw [(get?_names_attempt_of_error hr h).1]
        rfl
      · exact (introduced_of_attempt h).definition_eq hr x
    simp only [judge, ih (sound_attempt hr v), first, List.flatMap_cons, List.filterMap_append,
      List.getLast?_append, Option.or_assoc]

/-- After some verdicts a name points where the last introduction of it that was accepted says. -/
theorem target_judge (hr : r.names.Sound) (visits : List Visit) (x : String) :
    (judge r visits).2.names.aliases.get? x =
      (((judge r visits).1.flatMap (·.introductions)).filterMap
        (·.targetOf? x)).getLast?.getD (r.names.aliases.get? x) := by
  induction visits generalizing r with
  | nil => rfl
  | cons v visits ih =>
    have first : (v.attempt r).2.names.aliases.get? x =
        ((Verdict.introductions ⟨v, (v.attempt r).1⟩).filterMap
          (·.targetOf? x)).getLast?.getD (r.names.aliases.get? x) := by
      rcases h : v.attempt r with ⟨cause | is, r'⟩
      · rw [(get?_names_attempt_of_error hr h).2]
        rfl
      · exact (introduced_of_attempt h).target_eq hr x
    simp only [judge, ih (sound_attempt hr v), first, List.flatMap_cons, List.filterMap_append,
      List.getLast?_append, Option.getD_or]

/-- What was accepted is registered : every component that was has a definition, and of all that was
accepted for a name the last definition holds, and the last that was said about its target. -/
structure Registered (verdicts : List Verdict) (before after : Names) : Prop where
  defined : ∀ verdict ∈ verdicts, ∀ name d, .definition name d ∈ verdict.introductions →
    after.definitions.contains name = true
  definition_eq : ∀ x, after.definitions.get? x =
    ((verdicts.flatMap (·.introductions)).filterMap (·.definitionOf? x)).getLast?.or
      (before.definitions.get? x)
  target_eq : ∀ x, after.aliases.get? x =
    ((verdicts.flatMap (·.introductions)).filterMap (·.targetOf? x)).getLast?.getD
      (before.aliases.get? x)

/-- All that was accepted is registered, and nothing else changes what a name stands for. -/
theorem registered_judge (hr : r.names.Sound) (visits : List Visit) :
    Registered (judge r visits).1 r.names (judge r visits).2.names where
  defined verdict hverdict name d hd := by
    have hmem : d ∈ ((judge r visits).1.flatMap (·.introductions)).filterMap
        (·.definitionOf? name) :=
      List.mem_filterMap.mpr ⟨_, List.mem_flatMap.mpr ⟨verdict, hverdict, hd⟩, if_pos rfl⟩
    have hlast := List.getLast?_eq_some_getLast (List.ne_nil_of_mem hmem)
    exact Table.contains_of_get? ((definition_judge hr visits name).trans (by rw [hlast]; rfl))
  definition_eq := definition_judge hr visits
  target_eq := target_judge hr visits

end Blueprint
