import Blueprint.Proofs.Compile.Depth
import Blueprint.Proofs.Compile.Scopes

/-!
# The way through all documents

`Itinerary` lists what is met on the way through the entries of a document and of the documents that
it imports, each of them at the place of its import. Every `Visit` has a number in its document, and
the numbers of the imports that lead there. There is at most one itinerary, and there is one if all
imports find a document (`Itinerary.unique`, `exists_itineraryOf`).

The itinerary visits what the entered scopes say and nothing else (`ItineraryOf.visits_iff`). The
positions of the visits ascend, and those in one reading of a document are in the order of their
numbers (`Itinerary.pairwise`).
-/

namespace Blueprint

/-- A declaration, or a scope with invalid defaults, where it is met. -/
structure Visit where
  /-- The numbers of the imports that lead to the document, the outermost first. -/
  trail : List Nat
  location : String
  /-- The number in the document. -/
  index : Nat
  /-- What the document has declared before. -/
  declared : Declared
  entry : OutlineEntry

/-- The place on the way through all documents. -/
def Visit.position (v : Visit) : List Nat := v.trail ++ [v.index]

/-- What a document has declared after an entry. A component without a name of its own adds
nothing. -/
def Declared.after (declared : Declared) : OutlineEntry → Declared
  | .component e _ =>
    match statedNames e with
    | (some name, aliases) => ⟨declared.names ++ name :: aliases⟩
    | (none, _) => declared
  | _ => declared

/-- An import opens one document more, and there are only so many. -/
@[elab_as_elim]
theorem Nested.deepening {l : Library} {base : String}
    {motive : (opened : List String) → Nested l base opened → Prop}
    (step : ∀ opened (h : Nested l base opened),
      (∀ target (h' : Nested l base (opened ++ [target])), motive _ h') → motive opened h)
    {opened : List String} (h : Nested l base opened) : motive opened h := by
  induction hn : l.size + 1 - opened.length using Nat.strong_induction_on generalizing opened with
  | _ n ih =>
    refine step opened h fun target h' => ih _ ?_ h' rfl
    have hle := h'.length_le
    rw [List.length_append, List.length_singleton] at hle ⊢
    omega

namespace Compiler

/-- What is met on the way through entries of a document, if every import finds a document. -/
inductive Itinerary (c : Compiler) (l : Library) (base : String) :
    (opened : List String) → (trail : List Nat) → (location : String) → (index : Nat) →
      Declared → List OutlineEntry → List Visit → Prop
  | nil {opened : List String} {trail : List Nat} {location : String} {index : Nat}
      {declared : Declared} : Itinerary c l base opened trail location index declared [] []
  /-- Where a group is skipped, entered or left. -/
  | mark {opened : List String} {trail : List Nat} {location : String} {index : Nat}
      {declared : Declared} {entry : OutlineEntry} {entries : List OutlineEntry}
      {visits : List Visit} (unnumbered : entry.takesNumber = false)
      (later : Itinerary c l base opened trail location index declared entries visits) :
      Itinerary c l base opened trail location index declared (entry :: entries) visits
  | visit {opened : List String} {trail : List Nat} {location : String} {index : Nat}
      {declared : Declared} {entry : OutlineEntry} {entries : List OutlineEntry}
      {visits : List Visit} (numbered : entry.takesNumber = true)
      (here : ∀ e, entry ≠ .importing e)
      (later : Itinerary c l base opened trail location (index + 1) (declared.after entry) entries
        visits) :
      Itinerary c l base opened trail location index declared (entry :: entries)
        (⟨trail, location, index, declared, entry⟩ :: visits)
  /-- The document that is imported stands for the import. -/
  | importing {opened : List String} {trail : List Nat} {location : String} {index : Nat}
      {declared : Declared} {e : Element} {entries : List OutlineEntry} {i : Import}
      {inner visits : List Visit} (found : c.findImport l base location opened e = .ok i)
      (inside : Itinerary c l base (opened ++ [i.target]) (trail ++ [index]) i.target 0 {}
        (i.root.outline c.environment {}) inner)
      (later : Itinerary c l base opened trail location (index + 1) declared entries visits) :
      Itinerary c l base opened trail location index declared (.importing e :: entries)
        (inner ++ visits)

/-- What is met on the way through a document with nothing open before. -/
def ItineraryOf (c : Compiler) (l : Library) (base : String) (root : Element)
    (visits : List Visit) : Prop :=
  c.Itinerary l base [base] [] base 0 {} (root.outline c.environment {}) visits

variable {c : Compiler} {l : Library} {base location : String} {root : Element}
  {opened : List String} {trail : List Nat} {index : Nat} {declared : Declared}
  {entry : OutlineEntry} {entries : List OutlineEntry} {visits : List Visit} {v : Visit}

/-- There is one way through the entries at most. -/
theorem Itinerary.unique {visits' : List Visit}
    (h : c.Itinerary l base opened trail location index declared entries visits)
    (h' : c.Itinerary l base opened trail location index declared entries visits') :
    visits' = visits := by
  induction h generalizing visits' with
  | nil => cases h'; rfl
  | mark unnumbered later ih =>
    cases h' with
    | mark _ later' => exact ih later'
    | visit numbered _ _ => cases unnumbered.symm.trans numbered
    | importing _ _ _ => cases unnumbered
  | visit numbered here later ih =>
    cases h' with
    | mark unnumbered _ => cases unnumbered.symm.trans numbered
    | visit _ _ later' => rw [ih later']
    | importing _ _ _ => exact absurd rfl (here _)
  | importing found inside later ihi ihl =>
    cases h' with
    | mark unnumbered _ => cases unnumbered
    | visit _ here _ => exact absurd rfl (here _)
    | importing found' inside' later' =>
      obtain rfl := Except.ok.inj (found.symm.trans found')
      rw [ihi inside', ihl later']

/-! ## The order of the visits -/

/-- The visit is made in a reading of a document from a number on, or in one that an import from
this number on leads to. -/
inductive Ahead (trail : List Nat) (location : String) (index : Nat) (v : Visit) : Prop
  | here (trail_eq : v.trail = trail) (location_eq : v.location = location)
      (index_le : index ≤ v.index)
  | deeper {k : Nat} {rest : List Nat} (index_le : index ≤ k)
      (trail_eq : v.trail = trail ++ k :: rest)

/-- The position of a visit goes on where the reading is, or further on in it. -/
theorem Ahead.exists_position (h : Ahead trail location index v) :
    ∃ k rest, index ≤ k ∧ v.position = trail ++ k :: rest := by
  cases h with
  | here trail_eq location_eq index_le =>
    exact ⟨v.index, [], index_le, by rw [Visit.position, trail_eq]⟩
  | @deeper k rest index_le trail_eq =>
    exact ⟨k, rest ++ [v.index], index_le, by simp [Visit.position, trail_eq]⟩

theorem Ahead.mono {index' : Nat} (h : Ahead trail location index' v) (hle : index ≤ index') :
    Ahead trail location index v := by
  cases h with
  | here trail_eq location_eq index_le => exact .here trail_eq location_eq (hle.trans index_le)
  | deeper index_le trail_eq => exact .deeper (hle.trans index_le) trail_eq

/-- What is ahead in a document that an import opened is behind the number of the import. -/
theorem Ahead.of_imported {target : String} (h : Ahead (trail ++ [index]) target 0 v) :
    ∃ rest, v.trail = trail ++ index :: rest := by
  cases h with
  | here trail_eq _ _ => exact ⟨[], trail_eq⟩
  | @deeper k rest _ trail_eq => exact ⟨k :: rest, by simp [trail_eq]⟩

/-- An itinerary visits nothing that is behind it. -/
theorem Itinerary.ahead
    (h : c.Itinerary l base opened trail location index declared entries visits) :
    ∀ v ∈ visits, Ahead trail location index v := by
  induction h with
  | nil => simp
  | mark unnumbered later ih => exact ih
  | visit numbered here later ih =>
    intro v hv
    rcases List.mem_cons.mp hv with rfl | hv
    · exact .here rfl rfl (Nat.le_refl _)
    · exact (ih v hv).mono (Nat.le_succ _)
  | importing found inside later ihi ihl =>
    intro v hv
    rcases List.mem_append.mp hv with hv | hv
    · obtain ⟨rest, hrest⟩ := (ihi v hv).of_imported
      exact .deeper (Nat.le_refl _) hrest
    · exact (ihl v hv).mono (Nat.le_succ _)

/-- A visit comes before everything that is ahead of the next number. -/
theorem position_lt {w : Visit} {rest : List Nat} (hv : v.position = trail ++ index :: rest)
    (hw : Ahead trail location (index + 1) w) : v.position < w.position := by
  obtain ⟨k, rest', hk, hposition⟩ := hw.exists_position
  rw [hv, hposition]
  exact List.append_left_lt (List.cons_lt_cons_iff.mpr (.inl hk))

/-- The visits are made in the order of their positions. Two visits in one reading of a document are
in the same document, in the order of their numbers. -/
theorem Itinerary.pairwise
    (h : c.Itinerary l base opened trail location index declared entries visits) :
    visits.Pairwise fun v w => v.position < w.position ∧
      (v.trail = w.trail → v.location = w.location ∧ v.index < w.index) := by
  induction h with
  | nil => exact .nil
  | mark unnumbered later ih => exact ih
  | @visit _ trail location index declared entry _ _ numbered here later ih =>
    refine List.pairwise_cons.mpr ⟨fun w hw => ?_, ih⟩
    have hahead := later.ahead w hw
    refine ⟨position_lt rfl hahead, fun htrail => ?_⟩
    cases hahead with
    | here _ location_eq index_le => exact ⟨location_eq.symm, index_le⟩
    | deeper _ trail_eq => simp [trail_eq] at htrail
  | @importing _ trail _ index _ _ _ _ _ _ found inside later ihi ihl =>
    refine List.pairwise_append.mpr ⟨ihi, ihl, fun v hv w hw => ?_⟩
    obtain ⟨rest, hrest⟩ := (inside.ahead v hv).of_imported
    have hahead := later.ahead w hw
    have hposition : v.position = trail ++ index :: (rest ++ [v.index]) := by
      simp [Visit.position, hrest]
    refine ⟨position_lt hposition hahead, fun htrail => ?_⟩
    cases hahead with
    | here trail_eq _ _ => simp [hrest, trail_eq] at htrail
    | deeper index_le trail_eq =>
      simp only [hrest, trail_eq, List.append_cancel_left_eq, List.cons.injEq] at htrail
      omega

/-! ## What is visited -/

/-- All that is numbered in some entries is said by scopes of one document. -/
def Listed (c : Compiler) (l : Library) (base : String) (root : Element) (opened : List String)
    (location : String) (entries : List OutlineEntry) : Prop :=
  ∀ entry ∈ entries, entry.takesNumber = true → ∃ enclosing scope,
    c.Entered l base root opened location enclosing scope ∧ scope.Says enclosing entry

theorem Listed.of_cons (h : c.Listed l base root opened location (entry :: entries)) :
    c.Listed l base root opened location entries :=
  fun other hother => h other (List.mem_cons_of_mem entry hother)

theorem listed_root (c : Compiler) (l : Library) (base : String) (root : Element) :
    c.Listed l base root [base] base (root.outline c.environment {}) :=
  fun _ hentry numbered => exists_says_of_mem_outline .root hentry numbered

/-- The outline of a document that is imported is said by its scopes. -/
theorem Listed.imported {e : Element} {i : Import}
    (h : c.Listed l base root opened location (.importing e :: entries))
    (found : c.findImport l base location opened e = .ok i) :
    c.Listed l base root (opened ++ [i.target]) i.target (i.root.outline c.environment {}) := by
  obtain ⟨enclosing, scope, hscope, child, kind⟩ := h _ List.mem_cons_self rfl
  exact fun _ hentry numbered =>
    exists_says_of_mem_outline (.imported hscope child kind found) hentry numbered

/-- There is a way through the entries if all imports find a document. -/
theorem exists_itinerary (hfound : c.ImportsFound l base root) (hnested : Nested l base opened)
    (hlisted : c.Listed l base root opened location entries) (trail : List Nat) (index : Nat)
    (declared : Declared) :
    ∃ visits, c.Itinerary l base opened trail location index declared entries visits := by
  -- An import leaves fewer documents that can be opened, and every other entry leaves fewer
  -- entries.
  induction hnested using Nested.deepening generalizing location entries trail index declared with
  | step opened hnested deeper =>
  induction entries generalizing index declared with
  | nil => exact ⟨[], .nil⟩
  | cons entry entries later =>
    have later := later hlisted.of_cons
    by_cases himport : ∃ e, entry = .importing e
    · obtain ⟨e, rfl⟩ := himport
      obtain ⟨enclosing, scope, hscope, child, kind⟩ := hlisted _ List.mem_cons_self rfl
      obtain ⟨i, found⟩ := hfound hscope child kind
      obtain ⟨-, -, hnot, hroot⟩ := findImport_eq_ok_iff.mp found
      obtain ⟨inner, inside⟩ := deeper i.target
        (hnested.concat hnot (Table.contains_of_get? hroot)) (hlisted.imported found)
        (trail ++ [index]) 0 {}
      obtain ⟨visits, hvisits⟩ := later (index + 1) declared
      exact ⟨inner ++ visits, .importing found inside hvisits⟩
    · cases hnumbered : entry.takesNumber with
      | false =>
        obtain ⟨visits, hvisits⟩ := later index declared
        exact ⟨visits, .mark hnumbered hvisits⟩
      | true =>
        obtain ⟨visits, hvisits⟩ := later (index + 1) (declared.after entry)
        exact ⟨_, .visit hnumbered (fun e he => himport ⟨e, he⟩) hvisits⟩

theorem exists_itineraryOf (hfound : c.ImportsFound l base root) :
    ∃ visits, c.ItineraryOf l base root visits :=
  exists_itinerary hfound (.singleton l base) (listed_root c l base root) [] 0 {}

/-- What is visited is no import and is said by a scope that was entered. -/
theorem Itinerary.said
    (h : c.Itinerary l base opened trail location index declared entries visits)
    (hlisted : c.Listed l base root opened location entries) :
    ∀ v ∈ visits, (∀ e, v.entry ≠ .importing e) ∧ ∃ opened enclosing scope,
      c.Entered l base root opened v.location enclosing scope ∧ scope.Says enclosing v.entry := by
  induction h with
  | nil => simp
  | mark unnumbered later ih => exact ih hlisted.of_cons
  | visit numbered here later ih =>
    intro v hv
    rcases List.mem_cons.mp hv with rfl | hv
    · exact ⟨here, _, hlisted _ List.mem_cons_self numbered⟩
    · exact ih hlisted.of_cons v hv
  | importing found inside later ihi ihl =>
    intro v hv
    rcases List.mem_append.mp hv with hv | hv
    · exact ihi (hlisted.imported found) v hv
    · exact ihl hlisted.of_cons v hv

/-- Every entry of a document that has a number is visited in it, imports apart. -/
theorem Itinerary.exists_visit
    (h : c.Itinerary l base opened trail location index declared entries visits)
    (hentry : entry ∈ entries) (numbered : entry.takesNumber = true)
    (here : ∀ e, entry ≠ .importing e) : ∃ v ∈ visits, v.location = location ∧ v.entry = entry := by
  induction h with
  | nil => cases hentry
  | mark unnumbered later ih =>
    rcases List.mem_cons.mp hentry with rfl | hentry
    · cases unnumbered.symm.trans numbered
    · exact ih hentry
  | visit numbered' here' later ih =>
    rcases List.mem_cons.mp hentry with rfl | hentry
    · exact ⟨_, List.mem_cons_self, rfl, rfl⟩
    · obtain ⟨v, hv, hlocation, hentry⟩ := ih hentry
      exact ⟨v, List.mem_cons_of_mem _ hv, hlocation, hentry⟩
  | importing found inside later ihi ihl =>
    rcases List.mem_cons.mp hentry with rfl | hentry
    · exact absurd rfl (here _)
    · obtain ⟨v, hv, hlocation, hentry⟩ := ihl hentry
      exact ⟨v, List.mem_append_right _ hv, hlocation, hentry⟩

/-- An import finds a document, and the way through this document is part of the way. -/
theorem Itinerary.exists_inner {e : Element}
    (h : c.Itinerary l base opened trail location index declared entries visits)
    (hentry : .importing e ∈ entries) :
    ∃ i trail inner, c.findImport l base location opened e = .ok i ∧
      c.Itinerary l base (opened ++ [i.target]) trail i.target 0 {}
        (i.root.outline c.environment {}) inner ∧ inner ⊆ visits := by
  induction h with
  | nil => cases hentry
  | mark unnumbered later ih =>
    rcases List.mem_cons.mp hentry with rfl | hentry
    · cases unnumbered
    · exact ih hentry
  | visit numbered here later ih =>
    rcases List.mem_cons.mp hentry with rfl | hentry
    · exact absurd rfl (here _)
    · obtain ⟨i, trail, inner, found, inside, hsub⟩ := ih hentry
      exact ⟨i, trail, inner, found, inside, List.subset_cons_of_subset _ hsub⟩
  | importing found inside later ihi ihl =>
    rcases List.mem_cons.mp hentry with hentry | hentry
    · obtain rfl := OutlineEntry.importing.inj hentry
      exact ⟨_, _, _, found, inside, List.subset_append_left _ _⟩
    · obtain ⟨i, trail, inner, found, inside, hsub⟩ := ihl hentry
      exact ⟨i, trail, inner, found, inside, List.subset_append_of_subset_right _ hsub⟩

/-- What is listed for an entered scope is listed for its document, and the way through its document
is part of the way through all. -/
theorem Entered.exists_itinerary {enclosing : Defaults} {scope : Element}
    (h : c.Entered l base root opened location enclosing scope)
    (hall : c.ItineraryOf l base root visits) :
    ∃ (document : Element) (trail : List Nat) (inner : List Visit),
      c.Itinerary l base opened trail location 0 {} (document.outline c.environment {}) inner ∧
      inner ⊆ visits ∧
      scope.outline c.environment enclosing ⊆ document.outline c.environment {} := by
  induction h with
  | root accepted => exact ⟨root, [], visits, hall, List.Subset.refl _, List.Subset.refl _⟩
  | group outer child kind accepted ih =>
    obtain ⟨document, trail, inner, inside, hsub, hscope⟩ := ih
    exact ⟨document, trail, inner, inside, hsub, fun entry hentry =>
      hscope (Element.mem_outline_of_group outer.accepted child kind hentry)⟩
  | @imported _ _ enclosing scope e i outer child kind found accepted ih =>
    obtain ⟨document, trail, inner, inside, hsub, hscope⟩ := ih
    have hsaid : scope.Says enclosing (.importing e) := ⟨child, kind⟩
    obtain ⟨i', trail', inner', found', inside', hsub'⟩ :=
      inside.exists_inner (hscope (Element.mem_outline_of_said outer.accepted hsaid))
    obtain rfl := Except.ok.inj (found'.symm.trans found)
    exact ⟨i'.root, trail', inner', inside', List.Subset.trans hsub' hsub, List.Subset.refl _⟩

/-- Where there is a way through all documents, every import finds one. -/
theorem ItineraryOf.importsFound (h : c.ItineraryOf l base root visits) :
    c.ImportsFound l base root := by
  intro opened location enclosing scope e hscope child kind
  obtain ⟨document, trail, inner, inside, -, hlisted⟩ := hscope.exists_itinerary h
  have hsaid : scope.Says enclosing (.importing e) := ⟨child, kind⟩
  obtain ⟨i, -, -, found, -, -⟩ :=
    inside.exists_inner (hlisted (Element.mem_outline_of_said hscope.accepted hsaid))
  exact ⟨i, found⟩

theorem takesNumber_of_said {enclosing : Defaults} {scope : Element}
    (h : scope.Says enclosing entry) : entry.takesNumber = true := by
  cases entry with
  | skipped profiles => exact h.elim
  | enter group => exact h.elim
  | leave group => exact h.elim
  | _ => rfl

/-- Just that is visited which an entered scope says, imports apart. -/
theorem ItineraryOf.visits_iff (h : c.ItineraryOf l base root visits)
    (here : ∀ e, entry ≠ .importing e) :
    (∃ v ∈ visits, v.location = location ∧ v.entry = entry) ↔
      ∃ opened enclosing scope, c.Entered l base root opened location enclosing scope ∧
        scope.Says enclosing entry := by
  constructor
  · rintro ⟨v, hv, rfl, rfl⟩
    exact (Itinerary.said h (listed_root c l base root) v hv).2
  · rintro ⟨opened, enclosing, scope, hscope, hsaid⟩
    obtain ⟨document, trail, inner, inside, hsub, hlisted⟩ := hscope.exists_itinerary h
    obtain ⟨v, hv, hlocation, hentry⟩ := inside.exists_visit
      (hlisted (Element.mem_outline_of_said hscope.accepted hsaid))
      (takesNumber_of_said hsaid) here
    exact ⟨v, hsub hv, hlocation, hentry⟩

end Compiler

end Blueprint
