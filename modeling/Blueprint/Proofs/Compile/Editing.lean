import Blueprint.Proofs.Compile.Statements
import Mathlib.Logic.Relation

/-!
# Documents with groups exchanged

`Element.Edited` exchanges one group of a document, somewhere below the root and inside of groups
only, for other elements. If these state what the group states, in all defaults that may hold there,
the documents state the same (`sameStatements_of_edited`).

There are two such edits. A group whose profiles are not accepted states nothing, so it can be taken
out (`SkippedRemoved`). A group without attributes hands the defaults around it on to its children,
so these can take its place (`PlainSpliced`). `Element.flatten` does that with all groups without
attributes (`spliced_flatten`), and leaves none of them (`not_plain_of_below_flatten`).
-/

namespace Blueprint

open Relation

namespace Element

variable {env : Environment} {defaults : Defaults} {edit : Element → List Element → Prop}
  {e group root root' : Element} {es es' : List Element}

/-! ## What elements state -/

/-- What the elements of a group state. -/
def statementsAll (env : Environment) (defaults : Defaults) (es : List Element) :
    List OutlineEntry :=
  (outlineAll env defaults es).filter (·.takesNumber)

theorem outlineAll_append (env : Environment) (defaults : Defaults) (es es' : List Element) :
    outlineAll env defaults (es ++ es') =
      outlineAll env defaults es ++ outlineAll env defaults es' := by
  induction es with
  | nil => rfl
  | cons e es ih => rw [List.cons_append, outlineAll, outlineAll, ih, List.append_assoc]

theorem statementsAll_append (env : Environment) (defaults : Defaults) (es es' : List Element) :
    statementsAll env defaults (es ++ es') =
      statementsAll env defaults es ++ statementsAll env defaults es' := by
  rw [statementsAll, outlineAll_append, List.filter_append, statementsAll, statementsAll]

/-- What elements state is what the first of them states, and then the others. -/
theorem statementsAll_cons (env : Environment) (defaults : Defaults) (e : Element)
    (es : List Element) : statementsAll env defaults (e :: es) =
      statementsAll env defaults [e] ++ statementsAll env defaults es :=
  statementsAll_append env defaults [e] es

theorem statementsAll_group (kind : group.kind = .group) :
    statementsAll env defaults [group] = group.statements env defaults := by
  simp [statementsAll, outlineAll, kind, statements]

/-- A group states what its children state with the defaults that it makes, if it is not skipped. -/
theorem statements_eq (env : Environment) (enclosing : Defaults) (group : Element) :
    group.statements env enclosing = match group.unmetProfiles? env with
      | some _ => []
      | none => match Defaults.derive group enclosing with
        | .ok defaults => statementsAll env defaults group.children
        | .error cause => .invalidDefaults cause :: statementsAll env enclosing group.children := by
  obtain ⟨name, attributes, children, text⟩ := group
  rw [statements, outline]
  cases unmetProfiles? env ⟨name, attributes, children, text⟩ with
  | some profiles => rfl
  | none =>
    cases Defaults.derive ⟨name, attributes, children, text⟩ enclosing <;>
      simp [statementsAll, List.filter_append, OutlineEntry.takesNumber]

/-! ## Edits -/

/-- One group among some elements, or at any depth of groups among them, is exchanged for other
elements. -/
inductive EditedAll (edit : Element → List Element → Prop) : List Element → List Element → Prop
  | here {group : Element} {replacement : List Element} (h : edit group replacement)
    (later : List Element) : EditedAll edit (group :: later) (replacement ++ later)
  | inside {group : Element} {children : List Element} (kind : group.kind = .group)
    (h : EditedAll edit group.children children) (later : List Element) :
    EditedAll edit (group :: later) ({ group with children } :: later)
  | later (e : Element) {es es' : List Element} (h : EditedAll edit es es') :
    EditedAll edit (e :: es) (e :: es')

/-- One group of a document, below its root and inside of groups only, is exchanged for other
elements. -/
inductive Edited (edit : Element → List Element → Prop) (root : Element) : Element → Prop
  | intro {children : List Element} (h : EditedAll edit root.children children) :
    Edited edit root { root with children }

/-- Groups are exchanged for elements that state the same in all defaults. -/
def Neutral (env : Environment) (edit : Element → List Element → Prop) : Prop :=
  ∀ group replacement, edit group replacement → ∀ defaults,
    statementsAll env defaults replacement = statementsAll env defaults [group]

/-- Groups with the same attributes state the same if their children do. -/
theorem statements_of_children {children : List Element} (h : ∀ defaults,
      statementsAll env defaults children = statementsAll env defaults group.children) :
    ({ group with children } : Element).statements env defaults =
      group.statements env defaults := by
  have hunmet : ({ group with children } : Element).unmetProfiles? env =
      group.unmetProfiles? env := rfl
  have hderive : Defaults.derive { group with children } defaults =
      Defaults.derive group defaults := rfl
  rw [statements_eq, statements_eq, hunmet, hderive]
  simp only [h]

/-- Edited elements state what they stated before, whatever defaults hold around them. -/
theorem statementsAll_of_edited (hedit : Neutral env edit) (h : EditedAll edit es es') :
    ∀ defaults, statementsAll env defaults es' = statementsAll env defaults es := by
  induction h with
  | here h later =>
    intro defaults
    rw [statementsAll_append, hedit _ _ h defaults, ← statementsAll_cons]
  | @inside group children kind _ later ih =>
    intro defaults
    have kind' : ({ group with children } : Element).kind = .group := kind
    rw [statementsAll_cons, statementsAll_group kind', statements_of_children ih,
      ← statementsAll_group kind, ← statementsAll_cons]
  | later e _ ih =>
    intro defaults
    rw [statementsAll_cons, ih, ← statementsAll_cons]

/-- Documents with any number of neutral edits state the same. -/
theorem sameStatements_of_edited (hedit : Neutral env edit)
    (h : ReflTransGen (Edited edit) root root') : SameStatements env root root' := by
  induction h with
  | refl => rfl
  | tail _ hstep ih =>
    cases hstep with
    | intro h =>
      exact (statements_of_children (statementsAll_of_edited hedit h)).trans ih

/-! ## Groups that are skipped -/

/-- A group whose profiles are not accepted is taken out. -/
inductive SkippedRemoved (env : Environment) : Element → List Element → Prop
  | intro {group : Element} {profiles : String} (kind : group.kind = .group)
    (profile : group.given "profile" = some profiles)
    (rejected : env.acceptsAny (Text.tokenize profiles) = false) : SkippedRemoved env group []

/-- A group that falls away states nothing. -/
theorem neutral_skippedRemoved (env : Environment) : Neutral env (SkippedRemoved env) := by
  intro group replacement h defaults
  cases h with
  | @intro profiles kind profile rejected =>
    have hunmet : group.unmetProfiles? env = some profiles := by
      rw [unmetProfiles?, profile, Option.filter_some, rejected]
      rfl
    rw [statementsAll_group kind, statements_eq, hunmet]
    rfl

/-! ## Groups without attributes -/

/-- A group without attributes makes way for its children. -/
inductive PlainSpliced : Element → List Element → Prop
  | intro {group : Element} (kind : group.kind = .group) (plain : group.attributes = {}) :
    PlainSpliced group group.children

/-- A group without attributes hands on the defaults around it, so it states what its children do.
-/
theorem neutral_plainSpliced (env : Environment) : Neutral env PlainSpliced := by
  intro group replacement h defaults
  cases h with
  | intro kind plain =>
    have hattr : ∀ name, group.attr name = none := fun name => by rw [attr, plain]; rfl
    have hunmet : group.unmetProfiles? env = none := by
      rw [unmetProfiles?, given, hattr]
      rfl
    have hderive : Defaults.derive group defaults = .ok defaults := by
      simp [Defaults.derive, Defaults.autowireOr, explicit, given, hattr]
    rw [statementsAll_group kind, statements_eq, hunmet, hderive]

mutual

/-- What an element is replaced by when groups without attributes make way for their children, at
every depth of groups. -/
def flattened : Element → List Element
  | ⟨name, attributes, children, text⟩ =>
    let e : Element := ⟨name, attributes, children, text⟩
    if e.kind = .group then
      if attributes.isEmpty then flattenAll children
      else [{ e with children := flattenAll children }]
    else [e]

/-- What elements are replaced by, one after the other. -/
def flattenAll : List Element → List Element
  | [] => []
  | e :: es => flattened e ++ flattenAll es

end

/-- The document without groups that have no attributes. -/
def flatten (root : Element) : Element := { root with children := flattenAll root.children }

theorem flattened_eq (e : Element) : flattened e =
    if e.kind = .group then
      if e.attributes.isEmpty then flattenAll e.children else [e.flatten]
    else [e] := by
  obtain ⟨name, attributes, children, text⟩ := e
  rw [flattened]
  rfl

/-- An edit among elements is one among more elements, whatever comes behind. -/
theorem EditedAll.append_right (h : EditedAll edit es es') (later : List Element) :
    EditedAll edit (es ++ later) (es' ++ later) := by
  induction h with
  | here h behind =>
    rw [List.append_assoc]
    exact .here h (behind ++ later)
  | inside kind h behind => exact .inside kind h (behind ++ later)
  | later e _ ih => exact .later e ih

theorem EditedAll.append_left (front : List Element) (h : EditedAll edit es es') :
    EditedAll edit (front ++ es) (front ++ es') := by
  induction front with
  | nil => exact h
  | cons e front ih => exact .later e ih

theorem attributes_eq_empty (h : e.attributes.isEmpty = true) : e.attributes = {} :=
  Table.ext (List.isEmpty_iff.mp h)

mutual

/-- An element is edited step by step into what it is replaced by : first below it, and then itself.
-/
theorem spliced_flattened : ∀ e : Element,
    ReflTransGen (EditedAll PlainSpliced) [e] (flattened e)
  | ⟨name, attributes, children, text⟩ => by
    have hchildren := spliced_flattenAll children
    rw [flattened_eq]
    split
    · rename_i kind
      split
      · rename_i hplain
        have hhere := EditedAll.here (PlainSpliced.intro kind (attributes_eq_empty hplain)) []
        rw [List.append_nil] at hhere
        exact .head hhere hchildren
      · exact ReflTransGen.lift (p := EditedAll PlainSpliced)
          (fun children => [⟨name, attributes, children, text⟩])
          (fun children _ h =>
            @EditedAll.inside PlainSpliced ⟨name, attributes, children, text⟩ _ kind h [])
          _ _ hchildren
    · exact .refl

/-- Elements are edited one after the other, the last of them first. -/
theorem spliced_flattenAll : ∀ es : List Element,
    ReflTransGen (EditedAll PlainSpliced) es (flattenAll es)
  | [] => .refl
  | e :: es => by
    have hhead := (spliced_flattened e).lift (· ++ es) fun _ _ h => h.append_right es
    have hlater := (spliced_flattenAll es).lift (flattened e ++ ·)
      fun _ _ h => h.append_left (flattened e)
    exact hhead.trans hlater

end

/-- A document becomes flat one group at a time. -/
theorem spliced_flatten (root : Element) :
    ReflTransGen (Edited PlainSpliced) root root.flatten := by
  obtain ⟨name, attributes, children, text⟩ := root
  exact ReflTransGen.lift (p := Edited PlainSpliced)
    (fun children => ⟨name, attributes, children, text⟩)
    (fun children _ h => @Edited.intro PlainSpliced ⟨name, attributes, children, text⟩ _ h) _ _
    (spliced_flattenAll children)

/-! ## Flat documents -/

/-- The element is somewhere below the root, inside of groups only. -/
inductive Below (e : Element) : (root : Element) → Prop
  | child {root : Element} (h : e ∈ root.children) : Below e root
  | deeper {root group : Element} (h : group ∈ root.children) (kind : group.kind = .group)
    (below : Below e group) : Below e root

mutual

/-- A group that is left has attributes, and was there before. -/
theorem of_mem_flattened : ∀ e : Element, group ∈ flattened e → group.kind = .group →
    group.attributes ≠ {} ∧ ∃ original : Element, group = original.flatten
  | ⟨name, attributes, children, text⟩, hmem, kind => by
    rw [flattened_eq] at hmem
    split at hmem
    · split at hmem
      · exact of_mem_flattenAll children hmem kind
      · rename_i hattributes
        obtain rfl := List.mem_singleton.mp hmem
        exact ⟨fun h => hattributes (h ▸ rfl), _, rfl⟩
    · rename_i hother
      obtain rfl := List.mem_singleton.mp hmem
      exact absurd kind hother

theorem of_mem_flattenAll : ∀ es : List Element, group ∈ flattenAll es → group.kind = .group →
    group.attributes ≠ {} ∧ ∃ original : Element, group = original.flatten
  | [], hmem, _ => by cases hmem
  | e :: es, hmem, kind => by
    rcases List.mem_append.mp hmem with hmem | hmem
    · exact of_mem_flattened e hmem kind
    · exact of_mem_flattenAll es hmem kind

end

/-- Below the root of a flat document every group has attributes. -/
theorem not_plain_of_below_flatten (h : Below e root.flatten) (kind : e.kind = .group) :
    e.attributes ≠ {} := by
  generalize hflat : root.flatten = flat at h
  induction h generalizing root with
  | child hmem =>
    subst hflat
    exact (of_mem_flattenAll _ hmem kind).1
  | deeper hmem hgroup _ ih =>
    subst hflat
    obtain ⟨-, original, rfl⟩ := of_mem_flattenAll _ hmem hgroup
    exact ih rfl

end Element

end Blueprint
