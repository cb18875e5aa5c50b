import Blueprint.Declaration.Defaults
import Blueprint.Environment.Basic

/-!
# Outline of a document

What a document declares, in document order, does not depend on any registry : groups whose
profiles are not accepted fall away, and every component gets the defaults of the groups around
it. `Element.outline` lists the entries that are left. An entry that takes a number is counted
when the outline is compiled; the others mark where groups are skipped, entered and left.
-/

namespace Blueprint

/-- One thing that a document says. -/
inductive OutlineEntry where
  /-- A group falls away because of its profiles. -/
  | skipped (profiles : String)
  /-- The defaults of a group are invalid, and those around it hold instead. -/
  | invalidDefaults (cause : Error)
  | enter (group : Element)
  | leave (group : Element)
  | component (e : Element) (defaults : Defaults)
  | aliasing (e : Element)
  | importing (e : Element)
  | custom (e : Element)
deriving Inhabited

/-- The entry is counted among the declarations of its document. -/
def OutlineEntry.takesNumber : OutlineEntry → Bool
  | .skipped _ | .enter _ | .leave _ => false
  | _ => true

namespace Element

/-- The profiles that a group asks for and that are not accepted. -/
def unmetProfiles? (env : Environment) (group : Element) : Option String :=
  (group.given "profile").filter fun profiles => !env.acceptsAny (Text.tokenize profiles)

mutual

/-- The entries of a group inside groups with some defaults. -/
def outline (env : Environment) (enclosing : Defaults) : Element → List OutlineEntry
  | ⟨name, attributes, children, text⟩ =>
    let group : Element := ⟨name, attributes, children, text⟩
    match group.unmetProfiles? env with
    | some profiles => [.skipped profiles]
    | none =>
      match Defaults.derive group enclosing with
      | .ok defaults =>
        .enter group :: outlineAll env defaults children ++ [.leave group]
      | .error cause =>
        .invalidDefaults cause :: .enter group :: outlineAll env enclosing children ++
          [.leave group]

/-- The entries of the children of a group. -/
def outlineAll (env : Environment) (defaults : Defaults) : List Element → List OutlineEntry
  | [] => []
  | e :: es =>
    (match e.kind with
      | .importing => [.importing e]
      | .aliasing => [.aliasing e]
      | .component => [.component e defaults]
      | .group => outline env defaults e
      | .custom => [.custom e]) ++ outlineAll env defaults es

end

end Element

end Blueprint
