import Blueprint.Proofs.Compile.Editing
import Blueprint.Proofs.Compile.LastStatement

/-!
# Groups that leave no trace

Two kinds of groups can be taken out of documents without any effect on compiling them. What is in
a group whose profiles are not accepted is not looked at (`compile_of_skippedRemoved`), and a group
without attributes does no more than its children do in its place (`compile_of_plainSpliced`). Both
hold for the document that is compiled and for those that it imports, with any hooks, and for
compilations that fail as well as for others.
-/

namespace Blueprint

open Relation Element

/-- Libraries that differ in one document. -/
theorem Library.insert_alike {R : Element → Element → Prop} (hR : ∀ root, R root root)
    (l : Library) (location : String) {root root' : Element} (h : R root root') :
    (l.insert location root).source.Alike R (l.insert location root').source := by
  refine source_alike fun other => ?_
  show Option.Rel R ((l.documents.insert location root).get? other)
    ((l.documents.insert location root').get? other)
  rw [Table.get?_insert, Table.get?_insert]
  split
  · exact .some h
  · cases l.documents.get? other with
    | none => exact .none
    | some root => exact .some (hR root)

namespace Compiler

variable {c : Compiler} {source : Source} {root root' : Element}
  {edit : Element → List Element → Prop}

theorem compile_of_edited (hedit : Neutral c.environment edit)
    (hroot : ReflTransGen (Edited edit) root root')
    (hsource : c.source.Alike (ReflTransGen (Edited edit)) source) (location : String)
    (registry : Registry) :
    (c.compile root location registry).value.Alike
      ((c.withSource source).compile root' location registry).value :=
  compile_of_sameStatements (hsource.mono fun _ _ => sameStatements_of_edited hedit)
    (sameStatements_of_edited hedit hroot) location registry

/-! ## Groups that are skipped -/

/-- Groups whose profiles are not accepted can be taken out of the document that is compiled and
out of those that it imports, whatever is in them. The outcome is the same, with the same errors at
the same places, and so are the registry and what the observer is told. -/
theorem compile_of_skippedRemoved
    (hroot : ReflTransGen (Edited (SkippedRemoved c.environment)) root root')
    (hsource : c.source.Alike (ReflTransGen (Edited (SkippedRemoved c.environment))) source)
    (location : String) (registry : Registry) :
    (c.compile root location registry).value.Alike
      ((c.withSource source).compile root' location registry).value :=
  compile_of_edited (neutral_skippedRemoved c.environment) hroot hsource location registry

end Compiler

/-- A group for a profile that cannot be compiled : it imports a document that is not there, and has
an alias without a name. -/
def Element.uncompilable : Element :=
  { name := "components", attributes := .ofList [("profile", "test")],
    children := [.importing "nowhere", { name := "alias" }] }

/-- A document with a group for another profile. -/
def Element.rejecting : Element :=
  .components [.component "store" "Memory", .uncompilable, .importing "part"]

/-- The document that is imported has such a group as well. -/
def Library.rejecting : Library :=
  ({} : Library).insert "part" (.components [.uncompilable, .component "store" "Disk"])

namespace Compiler

theorem compile_rejecting :
    (({ source := Library.rejecting.source } : Compiler).compile .rejecting "main"
        {}).value.outcome = .ok 1 ∧
      (({ source := Library.rejecting.source } : Compiler).compile .rejecting "main"
        {}).value.registry =
      (({ source := Library.redeclared.source } : Compiler).compile .redeclaring "main"
        {}).value.registry := by
  have hremoved : SkippedRemoved {} .uncompilable [] := .intro rfl rfl rfl
  have hpart : Edited (SkippedRemoved {})
      (.components [.uncompilable, .component "store" "Disk"])
      (.components [.component "store" "Disk"]) := .intro (.here hremoved _)
  have hroot : Edited (SkippedRemoved {}) .rejecting .redeclaring :=
    .intro (.later _ (.here hremoved _))
  have hsame := compile_of_skippedRemoved (c := { source := Library.rejecting.source })
    (.single hroot) (Library.insert_alike (fun _ => .refl) {} "part" (.single hpart)) "main" {}
  exact ⟨hsame.outcome.symm.trans outcome_redeclaring, hsame.registry.symm⟩

/-! ## Groups without attributes -/

/-- Groups without attributes can make way for their children, in the document that is compiled and
in those that it imports. The outcome is the same, with the same errors at the same places, and so
is the registry, and what the observer is told of anything but groups. Every document can be
exchanged in that way for one that has no such group left. -/
theorem compile_of_plainSpliced (c : Compiler) (location : String) (registry : Registry) :
    (∀ (root root' : Element) (source : Source), ReflTransGen (Edited PlainSpliced) root root' →
      c.source.Alike (ReflTransGen (Edited PlainSpliced)) source →
        (c.compile root location registry).value.Alike
          ((c.withSource source).compile root' location registry).value) ∧
    (∀ (root : Element) (source : Source),
      c.source.Alike (fun d d' => d' = d ∨ d' = d.flatten) source →
        (c.compile root location registry).value.Alike
          ((c.withSource source).compile root.flatten location registry).value) ∧
    ∀ root e : Element, Below e root.flatten → ¬(e.kind = .group ∧ e.attributes = {}) := by
  have hneutral := neutral_plainSpliced c.environment
  refine ⟨fun _ _ _ hroot hsource => compile_of_edited hneutral hroot hsource location registry,
    fun root source hsource => ?_,
    fun root e h ⟨kind, plain⟩ => not_plain_of_below_flatten h kind plain⟩
  have hflattened : c.source.Alike (ReflTransGen (Edited PlainSpliced)) source := by
    refine hsource.mono fun d d' h => ?_
    rcases h with rfl | rfl
    · exact .refl
    · exact d.spliced_flatten
  exact compile_of_edited hneutral root.spliced_flatten hflattened location registry

end Compiler

/-- A document with groups in a group, all without attributes. -/
def Element.grouping : Element :=
  .components [.components [.component "store" "Memory", .components [.importing "part"]]]

/-- The document that is imported has such a group as well. -/
def Library.grouping : Library :=
  ({} : Library).insert "part" (.components [.components [.component "store" "Disk"]])

namespace Compiler

theorem compile_grouping :
    (({ source := Library.grouping.source } : Compiler).compile .grouping "main"
        {}).value.outcome = .ok 1 ∧
      (({ source := Library.grouping.source } : Compiler).compile .grouping "main"
        {}).value.registry =
      (({ source := Library.redeclared.source } : Compiler).compile .redeclaring "main"
        {}).value.registry ∧
      (({ source := Library.grouping.source } : Compiler).compile
        (.components [.component "store" "Memory", .components [.importing "part"]]) "main"
        {}).value.outcome = .ok 1 := by
  obtain ⟨hspliced, hflat, -⟩ :=
    compile_of_plainSpliced { source := Library.grouping.source } "main" {}
  have hwhole := hflat .grouping Library.redeclared.source
    (Library.insert_alike (fun _ => .inl rfl) {} "part" (.inr rfl))
  have hone : Edited PlainSpliced .grouping
      (.components [.component "store" "Memory", .components [.importing "part"]]) :=
    .intro (.here (PlainSpliced.intro rfl rfl) [])
  have hpartly := hspliced _ _ _ (.single hone) (.refl (fun _ => .refl) Library.grouping.source)
  have houtcome := hwhole.outcome.symm.trans outcome_redeclaring
  exact ⟨houtcome, hwhole.registry.symm, hpartly.outcome.trans houtcome⟩

end Compiler

end Blueprint
