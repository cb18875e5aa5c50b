import Blueprint.Proofs.Compile.Import

/-!
# Going through documents depth first

`Course` lists the elements that one meets who reads a document from its beginning to its end, reads
a document that is imported at the place of the import, and passes over the groups whose profiles
are not accepted. It says nothing about registries, and it is not about outlines but about the
elements of the documents themselves. There is at most one such list (`Course.unique`).

A compilation that rejects nothing goes along the course of its document. What is told of its parts
and of the elements that they meet is told of all of it, if it can be put together
(`Compiler.Compositional`, `recounts_compileWithin`).
-/

namespace Blueprint

/-- An element where it is met : in which document, and with which defaults. -/
structure Occurrence where
  location : String
  defaults : Defaults
  element : Element

/-- The elements in a group and the defaults that hold for them; nothing is in a group whose
profiles are not accepted, and invalid defaults do not count. -/
def Element.contents (env : Environment) (enclosing : Defaults) (group : Element) :
    Defaults × List Element :=
  match group.unmetProfiles? env with
  | some _ => (enclosing, [])
  | none => ((Defaults.derive group enclosing).toOption.getD enclosing, group.children)

/-- The elements that are met in elements of a document, in order, if every import finds a
document. Groups and imports stand for what is in them. -/
inductive Course (c : Compiler) (l : Library) (base : String) :
    (location : String) → Defaults → List Element → List Occurrence → Prop
  | nil {location : String} {defaults : Defaults} : Course c l base location defaults [] []
  | single {location : String} {defaults : Defaults} {e : Element} {es : List Element}
      {os : List Occurrence} (kind : e.kind ≠ .group ∧ e.kind ≠ .importing)
      (later : Course c l base location defaults es os) :
      Course c l base location defaults (e :: es) (⟨location, defaults, e⟩ :: os)
  | group {location : String} {defaults : Defaults} {e : Element} {es : List Element}
      {inner os : List Occurrence} (kind : e.kind = .group)
      (inside : Course c l base location (e.contents c.environment defaults).1
        (e.contents c.environment defaults).2 inner)
      (later : Course c l base location defaults es os) :
      Course c l base location defaults (e :: es) (inner ++ os)
  /-- The document that is imported stands for the import. -/
  | importing {location asked : String} {defaults : Defaults} {e root : Element}
      {es : List Element} {inner os : List Occurrence} (kind : e.kind = .importing)
      (asks : c.importLocation location e = .ok asked)
      (found : l.find? (c.importTarget base location asked) = some root)
      (inside : Course c l base (c.importTarget base location asked)
        (root.contents c.environment {}).1 (root.contents c.environment {}).2 inner)
      (later : Course c l base location defaults es os) :
      Course c l base location defaults (e :: es) (inner ++ os)

/-- The elements that are met in a whole document. -/
def CourseOf (c : Compiler) (l : Library) (base location : String) (root : Element)
    (os : List Occurrence) : Prop :=
  Course c l base location (root.contents c.environment {}).1 (root.contents c.environment {}).2 os

/-- The course of elements is determined by the elements. -/
theorem Course.unique {c : Compiler} {l : Library} {base location : String}
    {defaults : Defaults} {es : List Element} {os os' : List Occurrence}
    (h : Course c l base location defaults es os)
    (h' : Course c l base location defaults es os') : os = os' := by
  induction h generalizing os' with
  | nil => cases h'; rfl
  | single kind later ih =>
    cases h' with
    | single _ later' => rw [ih later']
    | group kind' _ _ => exact absurd kind' kind.1
    | importing kind' _ _ _ _ => exact absurd kind' kind.2
  | group kind inside later ihi ihl =>
    cases h' with
    | single kind' _ => exact absurd kind kind'.1
    | group _ inside' later' => rw [ihi inside', ihl later']
    | importing kind' _ _ _ _ => simp [kind] at kind'
  | importing kind asks found inside later ihi ihl =>
    cases h' with
    | single kind' _ => exact absurd kind kind'.2
    | group kind' _ _ => simp [kind] at kind'
    | importing _ asks' found' inside' later' =>
      obtain rfl := Except.ok.inj (asks.symm.trans asks')
      obtain rfl := Option.some.inj (found.symm.trans found')
      rw [ihi inside', ihl later']

namespace Compiler

open Walk

variable {c : Compiler} {l : Library} {walk : DocumentWalk} {base location : String} {index : Nat}
  {defaults : Defaults} {declared declared' : Declared} {e : Element} {s t : Session}
  {entry : OutlineEntry} {result : Nat × Declared}

/-! ## Runs over entries -/

/-- Entries are carried out one part after the other. -/
theorem compileEntries_append (c : Compiler) (walk : DocumentWalk) (base location : String)
    (index : Nat) (declared : Declared) (xs ys : List OutlineEntry) :
    c.compileEntries walk base location index declared (xs ++ ys) =
      (c.compileEntries walk base location index declared xs >>= fun r =>
        c.compileEntries walk base location r.1 r.2 ys) := by
  induction xs generalizing index declared with
  | nil => rfl
  | cons x xs ih =>
    rw [List.cons_append, compileEntries, compileEntries, bind_assoc]
    simp only [ih]

/-- A run over entries is a run over the first of them, followed by a run over the others. -/
theorem exists_of_compileEntries_append {xs ys : List OutlineEntry}
    (h : c.compileEntries walk base location index declared (xs ++ ys) s = .ok result t) :
    ∃ index' declared' u,
      c.compileEntries walk base location index declared xs s = .ok (index', declared') u ∧
        c.compileEntries walk base location index' declared' ys u = .ok result t := by
  rw [compileEntries_append] at h
  obtain ⟨⟨index', declared'⟩, u, hxs, hys⟩ := bind_eq_ok_iff.mp h
  exact ⟨index', declared', u, hxs, hys⟩

/-- If nothing is rejected in the end, nothing was rejected in the beginning. -/
theorem clean_of_compileEntries (hc : c.source = l.source)
    (hsteady : ∀ target root, Steady (walk target root)) {entries : List OutlineEntry}
    (h : c.compileEntries walk base location index declared entries s = .ok result t)
    (hclean : t.rejections = []) : s.rejections = [] := by
  have honward := steady_compileEntries hc hsteady base location index declared entries s
  rw [final_of_ok h] at honward
  exact List.prefix_nil.mp (hclean ▸ honward.rejections)

/-! ## What is told of runs -/

/-- The entry that an element is in an outline, if it is neither a group nor an import. -/
inductive Single (e : Element) (defaults : Defaults) : OutlineEntry → Prop
  | component (kind : e.kind = .component) : Single e defaults (.component e defaults)
  | aliasing (kind : e.kind = .aliasing) : Single e defaults (.aliasing e)
  | custom (kind : e.kind = .custom) : Single e defaults (.custom e)

/-- What is told of runs that reject nothing, and of the elements that they meet, is told of a run
if it is told of its parts. -/
structure Compositional (c : Compiler) (l : Library)
    (P : ∀ {α : Type}, Walk α → Session → α → Session → List Occurrence → Prop) : Prop where
  pure : ∀ {α : Type} (a : α) (s : Session), P (Pure.pure a) s a s []
  bind : ∀ {α β : Type} {x : Walk α} {f : α → Walk β} {s u t : Session} {a : α} {b : β}
    {os os' : List Occurrence}, P x s a u os → P (f a) u b t os' → P (x >>= f) s b t (os ++ os')
  /-- Where a group is skipped, entered or left no element is met. -/
  mark : ∀ {walk base location index declared declared' s t} {entry : OutlineEntry},
    entry.takesNumber = false →
    c.compileEntry walk base location index declared entry s = .ok declared' t →
    P (c.compileEntry walk base location index declared entry) s declared' t []
  single : ∀ {walk base location index declared declared' defaults e s t} {entry : OutlineEntry},
    Single e defaults entry →
    c.compileEntry walk base location index declared entry s = .ok declared' t →
    t.rejections = [] →
    P (c.compileEntry walk base location index declared entry) s declared' t
      [⟨location, defaults, e⟩]
  /-- An import meets what the document meets that it finds. -/
  importing : ∀ {walk base location e i s t os},
    c.findImport l base location s.opened e = .ok i →
    P (walk i.target i.root) (s.entering i) () t os →
    P (c.compileImport walk base location e) s () (t.imported i) os

/-- A steady way to compile documents of which something is told along their courses. -/
structure Recounts (c : Compiler) (l : Library) (base : String)
    (P : ∀ {α : Type}, Walk α → Session → α → Session → List Occurrence → Prop)
    (walk : DocumentWalk) : Prop where
  steady : ∀ location root, Steady (walk location root)
  told : ∀ {location root s t}, walk location root s = .ok () t → t.rejections = [] →
    ∃ os, CourseOf c l base location root os ∧ P (walk location root) s () t os

section Compositional

variable {P : ∀ {α : Type}, Walk α → Session → α → Session → List Occurrence → Prop}

namespace Compositional

/-- A run with an answer that is made of the answer of another run. -/
theorem bind_pure {α β : Type} {x : Walk α} {a : α} {os : List Occurrence}
    (hP : c.Compositional l P) (b : α → β) (h : P x s a t os) :
    P (x >>= fun a => Pure.pure (b a)) s (b a) t os := by
  have hall := hP.bind (f := fun a => Pure.pure (b a)) h (hP.pure (b a) t)
  rwa [List.append_nil] at hall

/-- Lists of entries that follow each other meet the elements of both, in order. -/
theorem append {xs ys : List OutlineEntry} {index' : Nat} {u : Session} {os os' : List Occurrence}
    (hP : c.Compositional l P)
    (hxs : P (c.compileEntries walk base location index declared xs) s (index', declared') u os)
    (hys : P (c.compileEntries walk base location index' declared' ys) u result t os') :
    P (c.compileEntries walk base location index declared (xs ++ ys)) s result t (os ++ os') := by
  rw [compileEntries_append]
  exact hP.bind hxs hys

/-- What is told of carrying out an entry is told of a list that holds it alone. -/
theorem singleton {os : List Occurrence} (hP : c.Compositional l P)
    (h : c.compileEntries walk base location index declared [entry] s = .ok result t)
    (hentry : ∀ {declared'},
      c.compileEntry walk base location index declared entry s = .ok declared' t →
        P (c.compileEntry walk base location index declared entry) s declared' t os) :
    P (c.compileEntries walk base location index declared [entry]) s result t os := by
  obtain ⟨declared', s', hrun, hpure⟩ := bind_eq_ok_iff.mp h
  cases hpure
  exact hP.bind_pure _ (hentry hrun)

/-- An import that rejects nothing meets what is on the course of the document that it finds. -/
theorem exists_course_compileImport (hP : c.Compositional l P) (hc : c.source = l.source)
    (hwalk : c.Recounts l base P walk) {u : Unit}
    (h : c.compileImport walk base location e s = .ok u t) (hclean : t.rejections = []) :
    ∃ asked root os, c.importLocation location e = .ok asked ∧
      l.find? (c.importTarget base location asked) = some root ∧
      CourseOf c l base (c.importTarget base location asked) root os ∧
      P (c.compileImport walk base location e) s () t os := by
  obtain ⟨i, t', hfind, hrun, rfl⟩ := (compileImport_eq_ok_iff hc).mp h
  obtain ⟨hasked, htarget, -, hroot⟩ := findImport_eq_ok_iff.mp hfind
  obtain ⟨os, hcourse, htold⟩ := hwalk.told hrun hclean
  exact ⟨i.location, i.root, os, hasked, htarget ▸ hroot, htarget ▸ hcourse,
    hP.importing hfind htold⟩

end Compositional

mutual

/-- A clean run through the outline of a group goes along the course of what is in the group. -/
theorem exists_course_outline (hP : c.Compositional l P) (hc : c.source = l.source)
    (hwalk : c.Recounts l base P walk) : ∀ (e : Element) {enclosing : Defaults} {index : Nat}
    {declared : Declared} {result : Nat × Declared} {s t : Session},
    c.compileEntries walk base location index declared (e.outline c.environment enclosing) s =
      .ok result t → t.rejections = [] →
    ∃ os, Course c l base location (e.contents c.environment enclosing).1
        (e.contents c.environment enclosing).2 os ∧
      P (c.compileEntries walk base location index declared (e.outline c.environment enclosing))
        s result t os
  | ⟨name, attributes, children, text⟩, enclosing, index, declared, result, s, t, h, hclean => by
    rw [Element.outline] at h ⊢
    rw [Element.contents]
    generalize hgroup : (⟨name, attributes, children, text⟩ : Element) = group at h ⊢
    have hchildren : group.children = children := by rw [← hgroup]
    cases hunmet : group.unmetProfiles? c.environment with
    | some profiles =>
      simp only [hunmet] at h ⊢
      exact ⟨[], .nil, hP.singleton h (hP.mark rfl)⟩
    | none =>
      simp only [hunmet, hchildren] at h ⊢
      cases hderive : Defaults.derive group enclosing with
      | ok defaults =>
        simp only [hderive] at h ⊢
        -- The group is entered, its elements follow, and it is left.
        obtain ⟨index', declared', u, hinside, hleave⟩ := exists_of_compileEntries_append h
        obtain ⟨index₁, declared₁, s₁, henter, hentries⟩ := exists_of_compileEntries_append
          (show c.compileEntries walk base location index declared
            ([.enter group] ++ Element.outlineAll c.environment defaults children) s = _
              from hinside)
        have hu := clean_of_compileEntries hc hwalk.steady hleave hclean
        obtain ⟨os, hcourse, htold⟩ := exists_course_outlineAll hP hc hwalk children hentries hu
        have hinner := hP.append (hP.singleton henter (hP.mark rfl)) htold
        have hall := hP.append hinner (hP.singleton hleave (hP.mark rfl))
        rw [List.nil_append, List.append_nil] at hall
        exact ⟨os, hcourse, hall⟩
      | error cause =>
        -- Invalid defaults are a rejection.
        simp only [hderive] at h
        obtain ⟨declared₁, s₁, hinvalid, hentries⟩ := bind_eq_ok_iff.mp h
        have hs₁ := clean_of_compileEntries hc hwalk.steady hentries hclean
        cases hinvalid
        simp at hs₁

/-- A clean run through the outlines of elements goes along their course. -/
theorem exists_course_outlineAll (hP : c.Compositional l P) (hc : c.source = l.source)
    (hwalk : c.Recounts l base P walk) : ∀ (es : List Element) {defaults : Defaults} {index : Nat}
    {declared : Declared} {result : Nat × Declared} {s t : Session},
    c.compileEntries walk base location index declared
      (Element.outlineAll c.environment defaults es) s = .ok result t → t.rejections = [] →
    ∃ os, Course c l base location defaults es os ∧
      P (c.compileEntries walk base location index declared
        (Element.outlineAll c.environment defaults es)) s result t os
  | [], defaults, index, declared, result, s, t, h, hclean => by
    cases h
    exact ⟨[], .nil, hP.pure _ _⟩
  | e :: es, defaults, index, declared, result, s, t, h, hclean => by
    rw [Element.outlineAll] at h ⊢
    obtain ⟨index', declared', u, he, hes⟩ := exists_of_compileEntries_append h
    have hu := clean_of_compileEntries hc hwalk.steady hes hclean
    obtain ⟨os, hlater, htold⟩ := exists_course_outlineAll hP hc hwalk es hes hclean
    have single {entry : OutlineEntry} (hsingle : Single e defaults entry)
        (he : c.compileEntries walk base location index declared [entry] s =
          .ok (index', declared') u) :
        P (c.compileEntries walk base location index declared
          ([entry] ++ Element.outlineAll c.environment defaults es)) s result t
          ([⟨location, defaults, e⟩] ++ os) :=
      hP.append (hP.singleton he fun h => hP.single hsingle h hu) htold
    cases hkind : e.kind with
    | importing =>
      simp only [hkind] at he ⊢
      obtain ⟨declared₁, s₁, hentry, hpure⟩ := bind_eq_ok_iff.mp he
      cases hpure
      obtain ⟨_, s₂, himport, hpure⟩ := bind_eq_ok_iff.mp hentry
      cases hpure
      obtain ⟨asked, root, inner, hasked, hroot, hinside, hinner⟩ :=
        hP.exists_course_compileImport hc hwalk himport hu
      refine ⟨inner ++ os, .importing hkind hasked hroot hinside hlater, hP.append ?_ htold⟩
      exact hP.bind_pure _ (hP.bind_pure (fun _ => declared) hinner)
    | group =>
      simp only [hkind] at he ⊢
      obtain ⟨inner, hinside, hinner⟩ := exists_course_outline hP hc hwalk e he hu
      exact ⟨inner ++ os, .group hkind hinside hlater, hP.append hinner htold⟩
    | aliasing =>
      simp only [hkind] at he ⊢
      exact ⟨[_] ++ os, .single (by simp [hkind]) hlater, single (.aliasing hkind) he⟩
    | component =>
      simp only [hkind] at he ⊢
      exact ⟨[_] ++ os, .single (by simp [hkind]) hlater, single (.component hkind) he⟩
    | custom =>
      simp only [hkind] at he ⊢
      exact ⟨[_] ++ os, .single (by simp [hkind]) hlater, single (.custom hkind) he⟩

end

/-- Compiling a document goes along its course wherever nothing is rejected, and of the elements on
it is told what is told of the parts. -/
theorem recounts_compileWithin (hP : c.Compositional l P) (hc : c.source = l.source) (base : String)
    (depth : Nat) : c.Recounts l base P (c.compileWithin base depth) := by
  induction depth with
  | zero => exact ⟨steady_compileWithin hc base 0, fun h => by cases h⟩
  | succ depth ih =>
    refine ⟨steady_compileWithin hc base (depth + 1), fun {location root s t} h hclean => ?_⟩
    obtain ⟨result, t', hentries, hpure⟩ := bind_eq_ok_iff.mp
      (show (c.compileEntries (c.compileWithin base depth) base location 0 {}
        (root.outline c.environment {}) >>= fun _ => pure ()) s = .ok () t from h)
    cases hpure
    obtain ⟨os, hcourse, htold⟩ := exists_course_outline hP hc ih root hentries hclean
    exact ⟨os, hcourse, hP.bind_pure _ htold⟩

end Compositional

end Compiler

end Blueprint
