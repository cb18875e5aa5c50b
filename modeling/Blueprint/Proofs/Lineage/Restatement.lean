import Blueprint.Proofs.Lineage.Answers
import Blueprint.Proofs.Lineage.Lookup
import Blueprint.Proofs.Names.Restatement

/-!
# Registering what is there already

Two lineages whose tables restate each other, registry for registry, answer alike : lookups find
restated definitions or nothing (`get_of_restated`), and so do recipes, because overlays do not tell
restated definitions apart (`recipe_of_restated`). A definition that is registered again with the
same content restates the tables of its registry and leaves the others alone, so neither the
registry nor any of its children answers differently (`answers_of_register_sameContent`). The
memories do not show it either, as long as they can be trusted (`Trusted`).
-/

namespace Blueprint.Lineage

variable {r r' : Registry} {l l' ancestors : Lineage} {links links' : List Link}
  {inherited inherited' d d' : Definition} {answer answer' : Except Error Definition}
  {name : String}

/-- Two answers are definitions of the same content, or the same error. -/
inductive SameContent : (answer answer' : Except Error Definition) → Prop
  | ok {d d' : Definition} (h : d.sameContent d' = true) : SameContent (.ok d) (.ok d')
  | error (e : Error) : SameContent (.error e) (.error e)

theorem SameContent.of_restated (h : d.Restated d') : SameContent (.ok d) (.ok d') :=
  .ok (Definition.sameContent_iff.mpr h)

/-! ## Merged definitions -/

/-- Overlays along a chain do not tell restated definitions apart. -/
theorem fold_of_restated (h : List.Forall₂ LinkRestated links links')
    (hinherited : inherited.Restated inherited') :
    (fold links inherited).Restated (fold links' inherited') := by
  induction h with
  | nil => exact hinherited
  | cons hlink _ ih =>
    cases hlink with
    | intro name hd => exact hd.overlay ih

/-- A chain that ends without a parent is folded to restated definitions as well. -/
theorem foldRooted_of_restated (h : List.Forall₂ LinkRestated links links') :
    (foldRooted links).Restated (foldRooted links') := by
  induction h with
  | nil => exact .refl {}
  | cons hlink hlinks ih =>
    cases hlink with
    | intro name hd =>
      cases hlinks with
      | nil => exact hd.rooted
      | cons => exact hd.overlay ih

/-- Answers of the same content stay so when a chain is folded onto them. -/
theorem SameContent.map_fold (h : SameContent answer answer')
    (hlinks : List.Forall₂ LinkRestated links links') :
    SameContent (answer.map (fold links)) (answer'.map (fold links')) := by
  cases h with
  | ok h => exact .of_restated (fold_of_restated hlinks (Definition.sameContent_iff.mp h))
  | error e => exact .error e

/-- The check of the scope does not tell answers of the same content apart. -/
theorem SameContent.bind_inKnownScope (h : SameContent answer answer')
    (hscopes : l'.map (·.scopes) = l.map (·.scopes)) (name : String) :
    SameContent (answer.bind (inKnownScope l name)) (answer'.bind (inKnownScope l' name)) := by
  rw [inKnownScope_of_map_scopes hscopes]
  cases h with
  | error e => exact .error e
  | ok h =>
    simp only [Except.bind, inKnownScope, (Definition.sameContent_iff.mp h).effectiveScope]
    split
    · exact .ok h
    · exact .error _

/-- Tables that restate each other, registry for registry, have recipes of the same content. -/
theorem recipe_of_restated {tables tables' : List Names}
    (h : List.Forall₂ Names.Restated tables tables') :
    ∀ name, SameContent (recipe tables name) (recipe tables' name) := by
  induction h with
  | nil => exact fun name => .error _
  | @cons n n' _ _ hn _ ih =>
    intro name
    have hreach := hn.ancestry (n.denoted name)
    rw [recipe, recipe, hn.denoted]
    generalize n.ancestry (n.denoted name) = reach,
      n'.ancestry (n.denoted name) = reach' at hreach ⊢
    cases hreach with
    | unknown => exact ih name
    | rooted hlinks => exact .of_restated (foldRooted_of_restated hlinks)
    | continues hlinks parent => exact (ih parent).map_fold hlinks
    | circular path => exact .error _

/-! ## Lineages that restate others -/

/-- The registry has the same scopes, and names that restate those of the other. -/
structure RegistryRestated (r r' : Registry) : Prop where
  names : r.names.Restated r'.names
  scopes : r'.scopes = r.scopes

theorem RegistryRestated.refl (r : Registry) : RegistryRestated r r := ⟨.refl r.names, rfl⟩

theorem map_scopes_of_restated (h : List.Forall₂ RegistryRestated l l') :
    l'.map (·.scopes) = l.map (·.scopes) := by
  induction h with
  | nil => rfl
  | cons hr _ ih => rw [List.map_cons, List.map_cons, hr.scopes, ih]

/-- Lineages that restate each other are looked up with the same content. -/
theorem get_of_restated (h : List.Forall₂ RegistryRestated l l') (name : String) :
    SameContent (l.get name).value (l'.get name).value := by
  induction h with
  | nil => exact .error _
  | @cons r r' _ _ hr _ ih =>
    have hfound := hr.names.find? name
    rw [get, get]
    generalize r.names.find? name = found, r'.names.find? name = found' at hfound ⊢
    cases hfound with
    | none => exact ih
    | some hd => exact .of_restated hd

/-- Lineages that restate each other merge to the same content, if what they remember is true. -/
theorem merge_of_restated (h : List.Forall₂ RegistryRestated l l') (hl : Truthful l)
    (hl' : Truthful l') (name : String) :
    SameContent (l.merge name).value.1 (l'.merge name).value.1 := by
  have hnames : List.Forall₂ Names.Restated (l.map (·.names)) (l'.map (·.names)) := by
    rw [List.forall₂_map_left_iff, List.forall₂_map_right_iff]
    exact h.imp fun _ _ hr => hr.names
  rw [merge_of_truthful name hl, merge_of_truthful name hl']
  exact (recipe_of_restated hnames name).bind_inKnownScope (map_scopes_of_restated h) name

/-! ## Registering once more -/

/-- A definition of the content that is there already is accepted, and restates the registry. -/
theorem exists_register_of_sameContent (hr : r.names.Sound)
    (hd : r.names.definitions.get? name = some d) (hsame : d.sameContent d' = true) :
    ∃ r', (r.register name d').value = (.ok (), r') ∧ RegistryRestated r r' := by
  obtain ⟨names, hdefine, hnames⟩ :=
    Names.exists_define_of_sameContent r.policy hr hd hsame
  refine ⟨r.withNames names, ?_, hnames, rfl⟩
  rw [Registry.value_register, hdefine]

/-- A change of one registry that restates its names restates the whole lineage. -/
theorem restated_modify {level : Nat} {f : Registry → Registry}
    (h : l.drop level = r :: ancestors) (hr : RegistryRestated r (f r)) :
    List.Forall₂ RegistryRestated l (l.modify level f) ∧
      (l.modify level f).drop level = f r :: ancestors := by
  have same : ∀ l : Lineage, List.Forall₂ RegistryRestated l l :=
    fun l => List.forall₂_same.mpr fun r _ => .refl r
  have hlength : (l.take level).length = level := by
    have hlt : 0 < (l.drop level).length := by rw [h]; exact Nat.succ_pos _
    rw [List.length_drop] at hlt
    rw [List.length_take]
    omega
  rw [List.modify_eq_take_drop, h]
  refine ⟨?_, List.drop_left' hlength⟩
  nth_rewrite 1 [← List.take_append_drop level l]
  rw [h]
  exact List.rel_append (same _) (.cons hr (same ancestors))

/-- In every lineage of a run, a definition can be registered again under its name with the same
content : from any document, with properties and lookup methods in any order. Nothing that is asked
of the registry, of its children or of its ancestors is answered otherwise after it, except that
definitions of the same content may take the place of others. For merged definitions that is so as
long as the memories can be trusted after it. -/
theorem answers_of_register_sameContent (policies : List Policy) (requests : List (Nat × Request))
    (level : Nat) (h : after policies requests level = r :: ancestors)
    (hd : r.names.definitions.get? name = some d) (hsame : d.sameContent d' = true) :
    ∃ r', (r.register name d').value = (.ok (), r') ∧
      after policies (requests ++ [(level, .change (.register name d'))]) level = r' :: ancestors ∧
      r'.definedNames = r.definedNames ∧
      (∀ other, r'.names.aliasesOf other = r.names.aliasesOf other) ∧
      ∀ asked other,
        SameContent (get (after policies requests asked) other).value
          (get (after policies (requests ++ [(level, .change (.register name d'))]) asked)
            other).value ∧
        (Trusted policies (requests ++ [(level, .change (.register name d'))]) asked →
          SameContent (merge (after policies requests asked) other).value.1
            (merge (after policies (requests ++ [(level, .change (.register name d'))]) asked)
              other).value.1) := by
  have hsound : r.names.Sound := sound_of_mem_run policies requests
    (List.mem_of_mem_drop (show r ∈ after policies requests level from h ▸ List.mem_cons_self))
  obtain ⟨r', hregister, hr⟩ := exists_register_of_sameContent hsound hd hsame
  have hchange : (Change.register name d').run r = r' := by rw [Change.run, hregister]
  obtain ⟨hrestated, hlevel⟩ := restated_modify h (hchange ▸ hr)
  have hrun : (founded policies).run (requests ++ [(level, .change (.register name d'))]) =
      ((founded policies).run requests).modify level (Change.register name d').run := by
    rw [run_append, run_cons, run_nil, onLevel_change]
  rw [← hrun] at hrestated hlevel
  refine ⟨r', hregister, hchange ▸ hlevel, hr.names.definedNames, hr.names.aliasesOf,
    fun asked other => ?_⟩
  have hasked : List.Forall₂ RegistryRestated (after policies requests asked)
      (after policies (requests ++ [(level, .change (.register name d'))]) asked) :=
    List.forall₂_drop asked hrestated
  exact ⟨get_of_restated hasked other, fun htrusted =>
    merge_of_restated hasked htrusted.of_append.truthful htrusted.truthful other⟩

/-- A disk with two properties. -/
def sizedDisk : Definition :=
  { Definition.ofClass "Disk" with
    properties := .ofList [("path", .literal "/"), ("size", .literal "1")], resource := "a.xml" }

/-- The same disk as another document has it. -/
def sizedDiskAgain : Definition :=
  { Definition.ofClass "Disk" with
    properties := .ofList [("size", .literal "1"), ("path", .literal "/")], resource := "b.xml" }

/-- A component of a child is merged with what it inherits from a strict registry. -/
def inheritedDisk : List (Nat × Request) := [
  (1, .change (.register "disk" sizedDisk)), (1, .change (.registerAlias "disk" "base")),
  (0, .change (.register "store" (.childOf "base"))), (0, .merge "store")]

/-- The properties of the component change places with those that it inherits, and it comes from
the other document. It is still the same component. -/
theorem answers_inheritedDisk : ∃ r' d',
    after [{}, .strict] (inheritedDisk ++ [(1, .change (.register "disk" sizedDiskAgain))]) 1 =
        [r'] ∧
      r'.definedNames = ["disk"] ∧ r'.names.aliasesOf "disk" = ["base"] ∧
      SameContent ((after [{}, .strict] inheritedDisk 0).merge "store").value.1 (.ok d') ∧
      d'.properties.keys = ["size", "path"] ∧ d'.resource = some "b.xml" := by
  have htables : (after [{}, .strict] inheritedDisk 1).map (fun r => (r.definedNames,
      r.names.aliasesOf "disk", r.names.definitions.get? "disk")) =
    [(["disk"], ["base"], some sizedDisk)] := by rfl
  obtain ⟨r, hrun, hr⟩ := List.map_eq_singleton_iff.mp htables
  simp only [Prod.mk.injEq] at hr
  obtain ⟨hnames, haliases, hdisk⟩ := hr
  have hsame : sizedDisk.sameContent sizedDiskAgain = true := by decide +kernel
  obtain ⟨r', -, hafter, hdefined, hpointing, hanswers⟩ :=
    answers_of_register_sameContent [{}, .strict] inheritedDisk 1 hrun hdisk hsame
  have hcount : (founded [{}, .strict]).mutations
      (inheritedDisk ++ [(1, .change (.register "disk" sizedDiskAgain))]) = 4 := by decide +kernel
  obtain ⟨d', hmerge, hkeys, hresource⟩ : ∃ d', ((after [{}, .strict]
        (inheritedDisk ++ [(1, .change (.register "disk" sizedDiskAgain))]) 0).merge
          "store").value.1 = .ok d' ∧
      d'.properties.keys = ["size", "path"] ∧ d'.resource = some "b.xml" := ⟨_, rfl, rfl, rfl⟩
  refine ⟨r', d', hafter, hdefined.trans hnames, (hpointing "disk").trans haliases, ?_, hkeys,
    hresource⟩
  rw [← hmerge]
  exact (hanswers 0 "store").2 (.counted (by rw [hcount]; decide))

end Blueprint.Lineage
