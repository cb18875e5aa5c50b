import Blueprint.Proofs.Compile.Effects
import Blueprint.Proofs.Compile.Places
import Blueprint.Proofs.Compile.Rejections

/-!
# The numbers of rejected declarations

Whatever the hooks, the source and the outcome are, a rejection that is noted while documents are
compiled comes from an entry that was refused when compiling its document came to it
(`Compiler.RefusedAt`). Its number is how many declarations stand before the place of the entry, and
how many scopes with invalid defaults do (`index_of_collected`). A scope is no declaration, so the
number is the position among the declarations of the document only where no such scope stands before
it. What was refused can be told from its document and number (`RefusedAt.unique`).
-/

namespace Blueprint

namespace Compiler

open Walk

variable {c : Compiler} {base location : String} {root document : Element} {registry : Registry}
  {place : List Nat} {entry : OutlineEntry} {rejection : Rejection Error}

/-! ## Rejections that were noted -/

/-- The rejections that are noted while a document is compiled, also if an import ends that. -/
def collected (c : Compiler) (root : Element) (base : String) (registry : Registry) :
    List (Rejection Error) :=
  (final (c.compileFrom base base root) (.start base registry)).rejections

/-- If no import fails the answer is what was collected, or how many definitions were gained. -/
theorem outcome_compile_eq (c : Compiler) (root : Element) (base : String) (registry : Registry) :
    (c.compile root base registry).value.outcome =
      match failure? (c.compileFrom base base root) (.start base registry) with
      | some cause => .error cause
      | none =>
        if (c.collected root base registry).isEmpty then
          .ok ((c.compile root base registry).value.registry.count - registry.count)
        else .error (.rejected base (c.collected root base registry)) := by
  rw [value_compile, collected]
  cases hrun : c.compileFrom base base root (.start base registry) with
  | error cause s => rw [failure?_of_error hrun]
  | ok u s => rw [failure?_of_ok hrun, final_of_ok hrun]

/-- The document is the one that is compiled, or one that can be read at its location. -/
def ReadAt (c : Compiler) (base : String) (root : Element) (location : String)
    (document : Element) : Prop :=
  (location = base ∧ document = root) ∨ c.readDocument location = .ok document

/-- When compiling a document comes to the entry at a place, the entry is refused with a
rejection. -/
def RefusedAt (c : Compiler) (base : String) (document : Element) (place : List Nat)
    (entry : OutlineEntry) (rejection : Rejection Error) : Prop :=
  ∃ depth before after declared s t,
    document.tour c.environment {} = before ++ (place, entry) :: after ∧
    c.compileEntries (c.compileWithin base depth) base rejection.location 0 {}
      (before.map Prod.snd) s = .ok (rejection.index, declared) t ∧
    c.Refuses rejection.location declared t.registry entry rejection.name rejection.cause

/-- Only an entry that takes a number can be refused. -/
theorem Refuses.takesNumber {declared : Declared} {r : Registry} {name : Option String}
    {cause : Error} (h : c.Refuses location declared r entry name cause) :
    entry.takesNumber = true := by
  cases h <;> rfl

/-- Every rejection that is noted on the way from one session to another comes from a document. -/
def Explains (c : Compiler) (base : String) (root : Element) (s t : Session) : Prop :=
  ∀ rejection ∈ t.rejections, rejection ∈ s.rejections ∨ ∃ document place entry,
    c.ReadAt base root rejection.location document ∧ c.RefusedAt base document place entry rejection

/-- Every rejection that compiling a document adds belongs to an entry that was refused, in this
document or in one that was read. -/
theorem explains_compileWithin (c : Compiler) (base : String) (root : Element) (depth : Nat)
    (doc : c.ReadAt base root location document) (s : Session) :
    c.Explains base root s (final (c.compileWithin base depth location document) s) := by
  refine compileWithin_induction (D := c.ReadAt base root) ?_ ?_ .inr ?_ depth doc s
  · intro s t hlevel rejection hmem
    exact .inl (hlevel.rejections ▸ hmem)
  · intro s t u hst htu rejection hmem
    exact (htu rejection hmem).elim (hst rejection) .inr
  · intro depth location document before after entry declared _ start s t hdocument houtline _
      hrun _ heffect rejection hmem
    rcases heffect.rejections with hsame | ⟨name, cause, hrefuses, hadded⟩
    · exact .inl (hsame ▸ hmem)
    · rw [hadded] at hmem
      refine (List.mem_append.mp hmem).imp_right fun hlast => ?_
      rw [List.mem_singleton.mp hlast]
      -- The place of the entry is where the tour of the document is at that entry.
      rw [← Element.map_snd_tour] at houtline
      obtain ⟨before', rest, htour, hbefore, hrest⟩ := List.map_eq_append_iff.mp houtline
      obtain ⟨⟨place, _⟩, after', rfl, rfl, -⟩ := List.map_eq_cons_iff.mp hrest
      exact ⟨document, place, _, hdocument, depth, before', after', declared, start, s, htour,
        hbefore ▸ hrun, hrefuses⟩

/-- A rejection that was collected tells of an entry that was refused. -/
theorem exists_refused_of_collected (h : rejection ∈ c.collected root base registry) :
    ∃ document place entry, c.ReadAt base root rejection.location document ∧
      c.RefusedAt base document place entry rejection :=
  (explains_compileWithin c base root (c.source.depthLimit + 1) (.inl ⟨rfl, rfl⟩)
    (.start base registry) rejection h).resolve_left (by simp [Session.start])

/-! ## Numbers -/

/-- Compiling entries gives out as many numbers as there are entries that take one. -/
theorem index_compileEntries {walk : DocumentWalk} {entries : List OutlineEntry}
    {index index' : Nat} {declared declared' : Declared} {s t : Session}
    (h : c.compileEntries walk base location index declared entries s = .ok (index', declared') t) :
    index' = index + entries.countP (·.takesNumber) := by
  induction entries generalizing index declared s with
  | nil =>
    cases h
    rfl
  | cons entry entries ih =>
    obtain ⟨declared₁, u, -, hrest⟩ := bind_eq_ok_iff.mp h
    rw [ih hrest, List.countP_cons]
    split <;> omega

/-- What was refused is said at its place, and the place has the number of the rejection. -/
theorem RefusedAt.numbered (h : c.RefusedAt base document place entry rejection) :
    document.SaysAt c.environment {} place entry ∧
      (document.numbering c.environment)[rejection.index]? = some (place, entry.isComplaint) := by
  obtain ⟨depth, before, after, declared, s, t, htour, hrun, hrefuses⟩ := h
  have hindex := index_compileEntries hrun
  rw [Nat.zero_add] at hindex
  rw [hindex]
  exact ⟨Element.mem_tour_iff.mp ⟨by simp [htour], hrefuses.takesNumber⟩,
    Element.getElem?_numbering htour hrefuses.takesNumber⟩

/-- What was refused in a document can be told from the number. -/
theorem RefusedAt.unique {place' : List Nat} {entry' : OutlineEntry} {rejection' : Rejection Error}
    (h : c.RefusedAt base document place entry rejection)
    (h' : c.RefusedAt base document place' entry' rejection')
    (same : rejection'.index = rejection.index) : place' = place ∧ entry' = entry := by
  have hplace := h'.numbered.2
  rw [same, h.numbered.2] at hplace
  obtain ⟨rfl, -⟩ := Prod.mk.inj (Option.some.inj hplace)
  exact ⟨rfl, h.numbered.1.unique h'.numbered.1⟩

/-- A rejection that is collected comes from an entry of a document, and its number is how many
declarations and how many scopes with invalid defaults stand before the place of that entry. It is
the number of the declarations just if no such scope stands before it. -/
theorem index_of_collected (c : Compiler) (root : Element) (base : String) (registry : Registry)
    (h : rejection ∈ c.collected root base registry) :
    ∃ document place entry, c.ReadAt base root rejection.location document ∧
      document.SaysAt c.environment {} place entry ∧
      c.RefusedAt base document place entry rejection ∧
      rejection.index = {q | document.DeclaresAt c.environment q ∧ q < place}.ncard +
        {q | document.ComplainsAt c.environment q ∧ q < place}.ncard ∧
      (rejection.index = {q | document.DeclaresAt c.environment q ∧ q < place}.ncard ↔
        ∀ q, document.ComplainsAt c.environment q → ¬q < place) := by
  obtain ⟨document, place, entry, hdocument, hrefused⟩ := exists_refused_of_collected h
  obtain ⟨hsaid, hplace⟩ := hrefused.numbered
  obtain ⟨hfinite, hcomplained⟩ := Element.ncard_complained_before hplace
  have htotal : rejection.index = {q | document.DeclaresAt c.environment q ∧ q < place}.ncard +
      {q | document.ComplainsAt c.environment q ∧ q < place}.ncard := by
    rw [Element.ncard_declared_before hplace, hcomplained,
      Element.countP_add_countP_numbering hplace]
  refine ⟨document, place, entry, hdocument, hsaid, hrefused, htotal, ?_⟩
  have hempty : {q | document.ComplainsAt c.environment q ∧ q < place}.ncard = 0 ↔
      ∀ q, document.ComplainsAt c.environment q → ¬q < place := by
    rw [Set.ncard_eq_zero hfinite, Set.eq_empty_iff_forall_notMem]
    exact forall_congr' fun q => not_and
  rw [htotal, Nat.add_eq_left, hempty]

end Compiler

/-- A document with an invalid component in a group behind one that is skipped, and with a name that
is given no alias behind a group whose defaults are invalid. -/
def Element.scattered : Element :=
  .components [.component "store" "Memory",
    { name := "components", attributes := .ofList [("profile", "test")],
      children := [.misspelled, .component "double" "Memory"] },
    .components [.component "log" "Disk", .components [{ name := "x:note" }, .misspelled]],
    .misled, { name := "alias", attributes := .ofList [("name", "store")] }]

/-- The places that take a number, of which one is a scope with invalid defaults. -/
theorem Element.numbering_scattered : Element.scattered.numbering {} =
    [([0], false), ([2, 0], false), ([2, 1, 0], false), ([2, 1, 1], false), ([3], true),
      ([3, 0], false), ([4], false)] := by
  decide +kernel

namespace Compiler

theorem collected_scattered :
    (collected { source := ({} : Library).source } .scattered "main" {}).map
        (fun rejection => (rejection.location, rejection.index, rejection.name)) =
      [("main", 3, some "broken"), ("main", 4, none), ("main", 6, some "store")] := by
  decide +kernel

theorem document_of_readAt_scattered {document : Element}
    (h : ReadAt { source := ({} : Library).source } "main" .scattered "main" document) :
    document = .scattered := by
  rcases h with ⟨-, hdocument⟩ | hread
  · exact hdocument
  · cases hread

theorem exists_collected_scattered {index : Nat} {name : Option String}
    (h : ("main", index, name) ∈
      [("main", 3, some "broken"), ("main", 4, none), ("main", 6, some "store")]) :
    ∃ rejection ∈ collected { source := ({} : Library).source } .scattered "main" {},
      rejection.location = "main" ∧ rejection.index = index := by
  rw [← collected_scattered] at h
  obtain ⟨rejection, hmem, heq⟩ := List.mem_map.mp h
  simp only [Prod.mk.injEq] at heq
  exact ⟨rejection, hmem, heq.1, heq.2.1⟩

/-- The invalid component is the fourth declaration. -/
theorem index_of_scattered :
    ∃ rejection ∈ collected { source := ({} : Library).source } .scattered "main" {},
      ∃ entry, RefusedAt { source := ({} : Library).source } "main" .scattered [2, 1, 1] entry
          rejection ∧
        rejection.index = {q | Element.scattered.DeclaresAt {} q ∧ q < [2, 1, 1]}.ncard ∧
        rejection.index = 3 ∧ ∀ q, Element.scattered.ComplainsAt {} q → ¬q < [2, 1, 1] := by
  obtain ⟨rejection, hmem, hlocation, hindex⟩ := exists_collected_scattered List.mem_cons_self
  obtain ⟨document, place, entry, hdocument, -, hrefused, -, hiff⟩ := index_of_collected
    { source := ({} : Library).source } .scattered "main" {} hmem
  obtain rfl := document_of_readAt_scattered (hlocation ▸ hdocument)
  obtain ⟨-, hplace⟩ := hrefused.numbered
  have hbefore := Element.ncard_declared_before hplace
  rw [hindex, Element.numbering_scattered] at hplace hbefore
  obtain ⟨rfl, -⟩ := Prod.mk.inj (Option.some.inj hplace)
  have hnumber : rejection.index =
      {q | Element.scattered.DeclaresAt {} q ∧ q < [2, 1, 1]}.ncard := by
    rw [hindex]
    exact hbefore.symm
  exact ⟨rejection, hmem, entry, hrefused, hnumber, hindex, hiff.mp hnumber⟩

/-- The alias is the sixth declaration, but it is given the number of the seventh. -/
theorem index_behind_misled :
    (∃ rejection ∈ collected { source := ({} : Library).source } .scattered "main" {},
      RefusedAt { source := ({} : Library).source } "main" .scattered [4]
        (.aliasing { name := "alias", attributes := .ofList [("name", "store")] }) rejection ∧
      {q | Element.scattered.DeclaresAt {} q ∧ q < [4]}.ncard = 5 ∧ rejection.index = 6) ∧
    (compile { source := ({} : Library).source } .scattered "main" {}).value.outcome =
      .error (.rejected "main"
        (collected { source := ({} : Library).source } .scattered "main" {})) := by
  refine ⟨?_, ?_⟩
  · obtain ⟨rejection, hmem, hlocation, hindex⟩ := exists_collected_scattered
      (List.mem_cons_of_mem _ (List.mem_cons_of_mem _ List.mem_cons_self))
    obtain ⟨document, place, entry, hdocument, hrefused⟩ := exists_refused_of_collected hmem
    obtain rfl := document_of_readAt_scattered (hlocation ▸ hdocument)
    obtain ⟨hsaid, hplace⟩ := hrefused.numbered
    have hbefore := Element.ncard_declared_before hplace
    rw [hindex, Element.numbering_scattered] at hplace hbefore
    obtain ⟨rfl, -⟩ := Prod.mk.inj (Option.some.inj hplace)
    have halias : Element.scattered.SaysAt {} {} [4]
        (.aliasing { name := "alias", attributes := .ofList [("name", "store")] }) :=
      .child rfl rfl rfl
    obtain rfl := halias.unique hsaid
    exact ⟨rejection, hmem, hrefused, hbefore, hindex⟩
  · have hruns : (Walk.failure? (compileFrom { source := ({} : Library).source } "main" "main"
        .scattered) (.start "main" {})).isNone = true := by decide +kernel
    have hsome : (collected { source := ({} : Library).source } .scattered "main" {}).isEmpty =
        false := by decide +kernel
    rw [outcome_compile_eq, Option.isNone_iff_eq_none.mp hruns, hsome]
    rfl

end Compiler

end Blueprint
