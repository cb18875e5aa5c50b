import Blueprint.Proofs.Compile.Replay
import Blueprint.Proofs.Compile.Verdicts

/-!
# Collected rejections

Compiling a document without hooks makes the visits of its itinerary, and no rejection ends it
early : the session afterwards has the registry that the verdicts on the visits leave, and their
rejections (`Itinerary.run`). Every import finds a document just if compiling comes to the end of
all documents (`importsFound_iff`).

`reported_of_importsFound` : then the compilation fails just if a visit is rejected, with all
rejections in the order of the visits, and what was accepted is in the registry.
-/

namespace Blueprint

open Walk

variable {r : Registry} {v : Visit} {visits visits' : List Visit} {cause : Error}

/-! ## Running -/

/-- The session after some visits, with the registry that they leave and their rejections noted. -/
structure Session.Collects (s : Session) (visits : List Visit) (t : Session) : Prop where
  opened : t.opened = s.opened
  registry : t.registry = (judge s.registry visits).2
  rejections : t.rejections =
    s.rejections ++ (judge s.registry visits).1.filterMap (·.rejection?)

namespace Session.Collects

variable {s t u : Session}

theorem nil (opened : t.opened = s.opened) (registry : t.registry = s.registry)
    (rejections : t.rejections = s.rejections) : s.Collects [] t :=
  ⟨opened, registry, by simp [rejections, judge]⟩

/-- Visits are collected one after the other, each in the registry that the earlier ones left. -/
theorem append (h : s.Collects visits t) (h' : t.Collects visits' u) :
    s.Collects (visits ++ visits') u where
  opened := h'.opened.trans h.opened
  registry := by rw [h'.registry, h.registry, judge_append]
  rejections := by
    rw [h'.rejections, h.rejections, h.registry, judge_append, List.filterMap_append,
      List.append_assoc]

/-- One visit was tried, and its rejection noted. -/
theorem single {outcome : Except Error (List Introduction)}
    (h : v.attempt s.registry = (outcome, r)) (opened : t.opened = s.opened)
    (registry : t.registry = r)
    (rejections : t.rejections = s.rejections ++ (Verdict.rejection? ⟨v, outcome⟩).toList) :
    s.Collects [v] t where
  opened := opened
  registry := by simp only [judge, h, registry]
  rejections := by
    simp only [judge, h, rejections, List.filterMap_cons, List.filterMap_nil]
    cases Verdict.rejection? ⟨v, outcome⟩ <;> rfl

/-- The demand of a visit was refused before the registry saw it. -/
theorem refused (h : v.demand s.registry.names = .error cause) (opened : t.opened = s.opened)
    (registry : t.registry = s.registry)
    (rejections : t.rejections = s.rejections ++ [⟨v.location, v.index, v.name?, cause⟩]) :
    s.Collects [v] t :=
  single (Visit.attempt_of_refused h) opened registry rejections

variable {q : Demand}

/-- A visit whose demand the registry refuses is noted as rejected. -/
theorem rejected (h : v.demand s.registry.names = .ok q)
    (hrun : q.run s.registry = (.error cause, r)) (opened : t.opened = s.opened)
    (registry : t.registry = r)
    (rejections : t.rejections = s.rejections ++ [⟨v.location, v.index, v.name?, cause⟩]) :
    s.Collects [v] t :=
  single (Visit.attempt_of_run h hrun) opened registry rejections

/-- A visit whose demand the registry grants leaves no rejection. -/
theorem accepted (h : v.demand s.registry.names = .ok q) (hrun : q.run s.registry = (.ok (), r))
    (opened : t.opened = s.opened) (registry : t.registry = r)
    (rejections : t.rejections = s.rejections) : s.Collects [v] t :=
  single (Visit.attempt_of_run h hrun) opened registry (rejections.trans (List.append_nil _).symm)

end Session.Collects

namespace Compiler

variable {c : Compiler} {l : Library} {base location : String}
  {root : Element} {opened : List String} {trail : List Nat} {index : Nat} {declared : Declared}
  {entry : OutlineEntry} {entries : List OutlineEntry} {s t : Session}

/-- What a document has declared after a component does not depend on the registry. -/
theorem value_readComponent_snd (declared : Declared) (registered : Names) (location : String)
    (defaults : Defaults) (e : Element) :
    (declared.readComponent registered location defaults e).value.2 =
      declared.after (.component e defaults) := by
  rcases hstated : Declared.statedNames e with ⟨_ | name, aliases⟩
  · simp only [Declared.after, hstated, Declared.readComponent, Traced.value_pure]
  · simp only [Declared.after, hstated, Declared.value_readComponent_of_stated hstated]

/-- A component is visited, and compiling goes on. -/
theorem collects_compileComponent (hhooks : c.hooks = {}) (trail : List Nat) (location : String)
    (index : Nat) (declared : Declared) (e : Element) (defaults : Defaults) (s : Session) :
    ∃ t, c.compileComponent declared location index e defaults s =
        .ok (declared.after (.component e defaults)) t ∧
      s.Collects [⟨trail, location, index, declared, .component e defaults⟩] t := by
  rw [compileComponent_eq, value_readComponent_snd]
  cases hread : (declared.readComponent s.registry.names location defaults e).value.1 with
  | error cause => exact ⟨_, rfl, .refused (by simp [Visit.demand, hread, Except.map]) rfl rfl rfl⟩
  | ok d =>
    have hdemand : Visit.demand ⟨trail, location, index, declared, .component e defaults⟩
        s.registry.names = .ok (.declare d) := by simp [Visit.demand, hread, Except.map]
    rw [bind_of_ok (registerDeclaration_of_ok hhooks e d _)]
    rcases hdeclare : (s.registry.declare d).value with ⟨cause | ⟨⟩, r⟩
    · exact ⟨_, rfl, .rejected hdemand hdeclare rfl rfl rfl⟩
    · exact ⟨_, rfl, .accepted hdemand hdeclare rfl rfl rfl⟩

/-- An alias is visited, and compiling goes on. -/
theorem collects_compileAlias (trail : List Nat) (location : String) (index : Nat)
    (declared : Declared) (e : Element) (s : Session) :
    ∃ t, compileAlias location index e s = .ok () t ∧
      s.Collects [⟨trail, location, index, declared, .aliasing e⟩] t := by
  have hreported : Visit.name? ⟨trail, location, index, declared, .aliasing e⟩ =
      e.given "name" := rfl
  cases hname : e.given "name" with
  | none =>
    have hdemand : Visit.demand ⟨trail, location, index, declared, .aliasing e⟩
        s.registry.names = .error (.invalidAlias "" ((e.given "alias").getD "") .blankName) := by
      simp [Visit.demand, hname]
    rw [compileAlias, hname]
    exact ⟨_, rfl, .refused hdemand rfl rfl (by rw [hreported, hname])⟩
  | some name =>
    cases halias : e.given "alias" with
    | none =>
      have hdemand : Visit.demand ⟨trail, location, index, declared, .aliasing e⟩
          s.registry.names = .error (.invalidAlias name "" .blankAlias) := by
        simp [Visit.demand, hname, halias]
      rw [compileAlias, hname, halias]
      exact ⟨_, rfl, .refused hdemand rfl rfl (by rw [hreported, hname])⟩
    | some aliasName =>
      have hdemand : Visit.demand ⟨trail, location, index, declared, .aliasing e⟩
          s.registry.names = .ok (.point name aliasName) := by
        simp [Visit.demand, hname, halias]
      rw [compileAlias_of_given location index hname halias, bind_of_ok (onRegistry_eq _ s)]
      rcases hregister : (s.registry.registerAlias name aliasName).value with ⟨cause | ⟨⟩, r⟩
      · exact ⟨_, rfl, .rejected hdemand hregister rfl rfl (by rw [hreported, hname])⟩
      · exact ⟨_, rfl, .accepted hdemand hregister rfl rfl rfl⟩

/-- What is visited is tried, and its rejection noted. -/
theorem collects_compileEntry (hhooks : c.hooks = {}) (numbered : entry.takesNumber = true)
    (here : ∀ e, entry ≠ .importing e) (walk : DocumentWalk) (base : String) (trail : List Nat)
    (location : String) (index : Nat) (declared : Declared) (s : Session) :
    ∃ t, c.compileEntry walk base location index declared entry s = .ok (declared.after entry) t ∧
      s.Collects [⟨trail, location, index, declared, entry⟩] t := by
  cases entry with
  | invalidDefaults cause => exact ⟨_, rfl, .refused rfl rfl rfl rfl⟩
  | component e defaults =>
    exact collects_compileComponent hhooks trail location index declared e defaults s
  | aliasing e =>
    obtain ⟨t, hrun, hcollects⟩ := collects_compileAlias trail location index declared e s
    exact ⟨t, bind_of_ok hrun, hcollects⟩
  | custom e =>
    show ∃ t, (c.compileCustom location index e >>= fun _ => pure declared) s = .ok declared t ∧ _
    rw [compileCustom, hhooks]
    exact ⟨_, rfl, .accepted rfl rfl rfl rfl rfl⟩
  | importing e => exact absurd rfl (here e)
  | _ => cases numbered

/-- Where a group is skipped, entered or left, nothing is tried. -/
theorem collects_mark (numbered : entry.takesNumber = false) (walk : DocumentWalk)
    (base location : String) (index : Nat) (declared : Declared) (s : Session) :
    ∃ t, c.compileEntry walk base location index declared entry s = .ok declared t ∧
      s.Collects [] t := by
  cases entry with
  | skipped profiles => exact ⟨_, rfl, .nil rfl rfl rfl⟩
  | enter group => exact ⟨_, rfl, .nil rfl rfl rfl⟩
  | leave group => exact ⟨_, rfl, .nil rfl rfl rfl⟩
  | _ => cases numbered

/-! ## Documents -/

/-- A document is compiled just if its entries are, with as much depth as there is. -/
theorem compileFrom_eq_ok_iff (hc : c.source = l.source) (hs : Nested l base s.opened) :
    c.compileFrom base location root s = .ok () t ↔
      ∃ result, c.compileEntries (c.compileFrom base) base location 0 {}
        (root.outline c.environment {}) s = .ok result t := by
  rw [compileFrom_eq hc hs]
  show (c.compileEntries _ base location 0 {} _ >>= fun _ => pure ()) s = .ok () t ↔ _
  refine bind_eq_ok_iff.trans ⟨?_, fun ⟨result, h⟩ => ⟨result, t, h, rfl⟩⟩
  rintro ⟨result, u, h, hpure⟩
  cases hpure
  exact ⟨result, h⟩

/-- The visits on the way through some entries are made, whatever comes of them. -/
theorem Itinerary.run (hc : c.source = l.source) (hhooks : c.hooks = {})
    (h : c.Itinerary l base opened trail location index declared entries visits) :
    ∀ {s : Session}, s.opened = opened → Nested l base s.opened →
      ∃ result t, c.compileEntries (c.compileFrom base) base location index declared entries s =
        .ok result t ∧ s.Collects visits t := by
  induction h with
  | nil => exact fun {s} _ _ => ⟨_, s, rfl, .nil rfl rfl rfl⟩
  | @mark _ _ location index declared entry _ _ unnumbered later ih =>
    intro s hs hnested
    obtain ⟨u, hentry, hmark⟩ := collects_mark unnumbered (c.compileFrom base) base location index
      declared s
    obtain ⟨result, t, hrest, hlater⟩ := ih (hmark.opened.trans hs) (hmark.opened ▸ hnested)
    refine ⟨result, t, ?_, hmark.append hlater⟩
    rw [compileEntries, bind_of_ok hentry, unnumbered]
    exact hrest
  | @visit _ trail location index declared entry _ _ numbered here later ih =>
    intro s hs hnested
    obtain ⟨u, hentry, hvisit⟩ := collects_compileEntry hhooks numbered here (c.compileFrom base)
      base trail location index declared s
    obtain ⟨result, t, hrest, hlater⟩ := ih (hvisit.opened.trans hs) (hvisit.opened ▸ hnested)
    refine ⟨result, t, ?_, hvisit.append hlater⟩
    rw [compileEntries, bind_of_ok hentry, numbered]
    exact hrest
  | @importing opened _ location index declared e _ i inner _ found inside later ihi ihl =>
    intro s hs hnested
    subst hs
    obtain ⟨result', t', hinside, hinner⟩ := ihi (s := s.entering i) rfl (hnested.entering found)
    have himport : c.compileImport (c.compileFrom base) base location e s =
        .ok () (t'.imported i) := by
      rw [compileImport_eq hc, found, carryOut,
        (compileFrom_eq_ok_iff hc (hnested.entering found)).mpr ⟨result', hinside⟩]
    have hcollects : s.Collects inner (t'.imported i) := by
      refine ⟨?_, hinner.registry, hinner.rejections⟩
      show t'.opened.dropLast = s.opened
      rw [hinner.opened]
      exact List.dropLast_concat
    obtain ⟨result, t, hrest, hlater⟩ := ihl hcollects.opened (hcollects.opened ▸ hnested)
    refine ⟨result, t, ?_, hcollects.append hlater⟩
    have hentry : c.compileEntry (c.compileFrom base) base location index declared (.importing e)
        s = .ok declared (t'.imported i) := bind_of_ok himport
    rw [compileEntries, bind_of_ok hentry]
    exact hrest

/-- Compiling a document makes the visits of its itinerary. -/
theorem ItineraryOf.run (hc : c.source = l.source) (hhooks : c.hooks = {})
    (h : c.ItineraryOf l base root visits) (registry : Registry) :
    ∃ t, c.compileFrom base base root (.start base registry) = .ok () t ∧
      (Session.start base registry).Collects visits t := by
  obtain ⟨result, t, hrun, hcollects⟩ := Itinerary.run hc hhooks h
    (s := .start base registry) rfl (.singleton l base)
  exact ⟨t, (compileFrom_eq_ok_iff hc (.singleton l base)).mpr ⟨result, hrun⟩, hcollects⟩

/-- Entries that are carried out without a failure have a way through them. -/
theorem exists_itinerary_of_run (hc : c.source = l.source) (hhooks : c.hooks = {})
    (hnested : Nested l base opened) (hs : s.opened = opened) {result : Nat × Declared}
    (h : c.compileEntries (c.compileFrom base) base location index declared entries s =
      .ok result t) (trail : List Nat) :
    ∃ visits, c.Itinerary l base opened trail location index declared entries visits := by
  -- First by the documents that can still be opened, and for each of them along its entries.
  induction hnested using Nested.deepening generalizing
    s t trail location index declared entries result with
  | step opened hnested deeper =>
  induction entries generalizing s index declared with
  | nil => exact ⟨[], .nil⟩
  | cons entry entries later =>
    obtain ⟨declared', u, hentry, hrest⟩ := bind_eq_ok_iff.mp h
    have honward := steady_compileEntry hc (steady_compileFrom hc base) base location index
      declared entry s
    rw [final_of_ok hentry] at honward
    obtain ⟨visits, hvisits⟩ := later (honward.opened.trans hs) hrest
    by_cases himport : ∃ e, entry = .importing e
    · obtain ⟨e, rfl⟩ := himport
      obtain ⟨_, u', hrun, hpure⟩ := bind_eq_ok_iff.mp hentry
      cases hpure
      obtain ⟨i, t', found, hwalk, rfl⟩ := (compileImport_eq_ok_iff hc).mp hrun
      subst hs
      have hinner := hnested.entering found
      obtain ⟨_, hinside⟩ := (compileFrom_eq_ok_iff hc hinner).mp hwalk
      obtain ⟨inner, inside⟩ := deeper i.target hinner rfl hinside (trail ++ [index])
      exact ⟨inner ++ visits, .importing found inside hvisits⟩
    · have here : ∀ e, entry ≠ .importing e := fun e he => himport ⟨e, he⟩
      cases hnumbered : entry.takesNumber with
      | false =>
        obtain ⟨_, hmark, -⟩ := collects_mark hnumbered (c.compileFrom base) base location index
          declared s
        obtain ⟨rfl, -⟩ := EStateM.Result.ok.inj (hmark.symm.trans hentry)
        rw [hnumbered] at hvisits
        exact ⟨visits, .mark hnumbered hvisits⟩
      | true =>
        obtain ⟨_, hvisit, -⟩ := collects_compileEntry hhooks hnumbered here (c.compileFrom base)
          base trail location index declared s
        obtain ⟨rfl, -⟩ := EStateM.Result.ok.inj (hvisit.symm.trans hentry)
        rw [hnumbered] at hvisits
        exact ⟨_, .visit hnumbered here hvisits⟩

/-- Every import finds a document just if compiling comes to the end of all documents. -/
theorem importsFound_iff (hc : c.source = l.source) (hhooks : c.hooks = {}) (registry : Registry) :
    c.ImportsFound l base root ↔
      ∃ t, c.compileFrom base base root (.start base registry) = .ok () t := by
  constructor
  · intro hfound
    obtain ⟨visits, hvisits⟩ := exists_itineraryOf hfound
    obtain ⟨t, hrun, -⟩ := hvisits.run hc hhooks registry
    exact ⟨t, hrun⟩
  · rintro ⟨t, hrun⟩
    obtain ⟨_, hentries⟩ := (compileFrom_eq_ok_iff hc (.singleton l base)).mp hrun
    obtain ⟨visits, hvisits⟩ :=
      exists_itinerary_of_run hc hhooks (.singleton l base) rfl hentries []
    exact ItineraryOf.importsFound hvisits

/-- What a compilation reports on the visits that it makes. -/
structure Reported (c : Compiler) (l : Library) (base : String) (root : Element)
    (registry : Registry) (visits : List Visit) (verdicts : List Verdict) : Prop where
  /-- The visits are those on the way through all documents. -/
  itinerary : c.ItineraryOf l base root visits
  only : ∀ visits', c.ItineraryOf l base root visits' → visits' = visits
  /-- What an entered scope says is visited, and nothing else. -/
  visited : ∀ location entry, (∀ e, entry ≠ .importing e) →
    ((∃ v ∈ visits, v.location = location ∧ v.entry = entry) ↔
      ∃ opened enclosing scope, c.Entered l base root opened location enclosing scope ∧
        scope.Says enclosing entry)
  /-- The visits are made in the order of their positions, and in one reading of a document in the
  order of their numbers. -/
  ordered : visits.Pairwise fun v w => v.position < w.position ∧
    (v.trail = w.trail → v.location = w.location ∧ v.index < w.index)
  /-- Each visit has its verdict. -/
  judged : judge registry visits = (verdicts, (c.compile root base registry).value.registry)
  visit_eq : verdicts.map (·.visit) = visits
  /-- The compilation fails with the rejections just if there are any. -/
  rejected_iff : ∀ location rejections,
    (c.compile root base registry).value.outcome = .error (.rejected location rejections) ↔
      location = base ∧ rejections = verdicts.filterMap (·.rejection?) ∧
        ∃ verdict ∈ verdicts, verdict.Rejected
  /-- It succeeds otherwise. -/
  succeeds : (∀ verdict ∈ verdicts, ¬verdict.Rejected) →
    (c.compile root base registry).value.outcome =
      .ok ((c.compile root base registry).value.registry.count - registry.count)
  /-- What was accepted is registered. -/
  registered : registry.names.Sound →
    Registered verdicts registry.names (c.compile root base registry).value.registry.names

/-- Without hooks and with imports that all find a document, everything that the entered scopes say
is visited and tried. The compilation fails just if a visit is rejected, with all rejections in the
order of the visits, and all that was accepted is registered, before a rejection and behind it. -/
theorem reported_of_importsFound (hc : c.source = l.source) (hhooks : c.hooks = {})
    (hfound : c.ImportsFound l base root) (registry : Registry) :
    ∃ visits verdicts, c.Reported l base root registry visits verdicts := by
  obtain ⟨visits, hvisits⟩ := exists_itineraryOf hfound
  obtain ⟨t, hrun, hcollects⟩ := hvisits.run hc hhooks registry
  have hrejections : t.rejections = (judge registry visits).1.filterMap (·.rejection?) :=
    hcollects.rejections.trans (List.nil_append _)
  have hregistry : (c.compile root base registry).value.registry = (judge registry visits).2 := by
    rw [value_compile, hrun]
    exact hcollects.registry
  have hnone : t.rejections = [] ↔ ∀ verdict ∈ (judge registry visits).1, ¬verdict.Rejected := by
    rw [hrejections, List.filterMap_eq_nil_iff]
    exact forall₂_congr fun verdict _ => Verdict.rejection?_eq_none_iff
  refine ⟨visits, (judge registry visits).1, {
    itinerary := hvisits
    only := fun _ h => Itinerary.unique hvisits h
    visited := fun _ _ here => hvisits.visits_iff here
    ordered := Itinerary.pairwise hvisits
    judged := by rw [hregistry]
    visit_eq := map_visit_judge registry visits
    rejected_iff := fun location rejections => ?_
    succeeds := fun h => ?_
    registered := fun hsound => hregistry ▸ registered_judge hsound visits }⟩
  · rw [value_compile, hrun, ← hrejections]
    by_cases hclean : t.rejections = []
    · have hno := hnone.mp hclean
      simp only [hclean, List.isEmpty_nil, if_true, reduceCtorEq, false_iff]
      rintro ⟨-, -, verdict, hverdict, hrejected⟩
      exact hno verdict hverdict hrejected
    · have hsome : ∃ verdict ∈ (judge registry visits).1, verdict.Rejected := by
        by_contra hno
        exact hclean (hnone.mpr fun verdict hverdict h => hno ⟨verdict, hverdict, h⟩)
      simp only [List.isEmpty_iff, hclean, if_false, hsome, and_true, Except.error.injEq,
        Error.rejected.injEq]
      exact and_congr eq_comm eq_comm
  · simp only [value_compile, hrun, hnone.mpr h, List.isEmpty_nil, if_true]

end Compiler

/-- A component whose autowire mode is unknown. -/
def Element.misspelled : Element :=
  { name := "component", attributes := .ofList [("id", "broken"), ("autowire", "sideways")] }

/-- A document with an invalid component, and with a name that is given no alias. -/
def Element.faulty : Element :=
  .components [.component "store" "Memory", .misspelled, .importing "part",
    { name := "alias", attributes := .ofList [("name", "store")] }, .component "last" "Disk"]

/-- A group whose defaults are invalid. -/
def Element.misled : Element :=
  { name := "components", attributes := .ofList [("default-autowire", "sideways")],
    children := [.component "inner" "Disk"] }

/-- The document that is imported. -/
def Library.faulty : Library where
  documents := .ofList [("part", .components [.misled, { name := "alias" }])]

/-- What is visited on the way through both. -/
def Visit.throughFaulty : List Visit :=
  [⟨[], "main", 0, {}, .component (.component "store" "Memory") {}⟩,
    ⟨[], "main", 1, ⟨["store"]⟩, .component .misspelled {}⟩,
    ⟨[2], "part", 0, {}, .invalidDefaults (.invalidDeclaration (.unknownAutowire "sideways"))⟩,
    ⟨[2], "part", 1, {}, .component (.component "inner" "Disk") {}⟩,
    ⟨[2], "part", 2, ⟨["inner"]⟩, .aliasing { name := "alias" }⟩,
    ⟨[], "main", 3, ⟨["store", "broken"]⟩,
      .aliasing { name := "alias", attributes := .ofList [("name", "store")] }⟩,
    ⟨[], "main", 4, ⟨["store", "broken"]⟩, .component (.component "last" "Disk") {}⟩]

namespace Compiler

theorem findImport_faulty :
    findImport { source := Library.faulty.source } Library.faulty "main" "main" ["main"]
      (.importing "part") = .ok ⟨"part", "part", .components [.misled, { name := "alias" }]⟩ :=
  findImport_eq_ok_iff.mpr ⟨importLocation_importing _ "main" (by decide), rfl, by decide, rfl⟩

/-- Both documents are gone through, the second one at the place of its import. -/
theorem itineraryOf_faulty : ItineraryOf { source := Library.faulty.source } Library.faulty "main"
    .faulty Visit.throughFaulty := by
  refine .mark rfl (.visit rfl nofun (.visit rfl nofun ?_))
  show Itinerary _ _ _ _ _ _ _ _ _ ([_, _, _] ++ [_, _])
  refine .importing findImport_faulty ?_ ?_
  · exact .mark rfl (.visit rfl nofun (.mark rfl (.visit rfl nofun (.mark rfl (.visit rfl nofun
      (.mark rfl .nil))))))
  · exact .visit rfl nofun (.visit rfl nofun (.mark rfl .nil))

theorem reported_faulty :
    (∃ visits verdicts, Reported { source := Library.faulty.source } Library.faulty "main" .faulty
      {} visits verdicts ∧ visits.length = 7 ∧ Registered verdicts {}
        (({ source := Library.faulty.source } : Compiler).compile .faulty "main"
          {}).value.registry.names ∧
        (∃ verdict ∈ verdicts, verdict.Rejected) ∧ ∃ verdict ∈ verdicts, ¬verdict.Rejected) ∧
      (({ source := Library.faulty.source } : Compiler).compile .faulty "main" {}).value.outcome =
        .error (.rejected "main"
          [⟨"main", 1, some "broken", .invalidDeclaration (.unknownAutowire "sideways")⟩,
            ⟨"part", 0, none, .invalidDeclaration (.unknownAutowire "sideways")⟩,
            ⟨"part", 2, none, .invalidAlias "" "" .blankName⟩,
            ⟨"main", 3, some "store", .invalidAlias "store" "" .blankAlias⟩]) ∧
      (({ source := Library.faulty.source } : Compiler).compile .faulty "main"
        {}).value.registry.definedNames = ["store", "inner", "last"] := by
  obtain ⟨visits, verdicts, h⟩ := reported_of_importsFound
    (c := { source := Library.faulty.source }) rfl rfl itineraryOf_faulty.importsFound {}
  obtain rfl := h.only _ itineraryOf_faulty
  have hregistry : _ = Compilation.registry _ := congrArg Prod.snd h.judged
  obtain rfl : _ = verdicts := congrArg Prod.fst h.judged
  have hrejected : ∃ verdict ∈ (judge {} Visit.throughFaulty).1, verdict.Rejected :=
    ⟨_, List.mem_cons_of_mem _ List.mem_cons_self, _, rfl⟩
  have haccepted : ∃ verdict ∈ (judge {} Visit.throughFaulty).1, ¬verdict.Rejected :=
    ⟨_, List.mem_cons_self, fun ⟨_, hno⟩ => nomatch hno⟩
  refine ⟨⟨_, _, h, rfl, h.registered Names.sound_empty, hrejected, haccepted⟩,
    (h.rejected_iff _ _).mpr ⟨rfl, rfl, hrejected⟩, ?_⟩
  rw [← hregistry]
  rfl

end Compiler

end Blueprint
