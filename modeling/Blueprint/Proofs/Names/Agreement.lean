import Blueprint.Proofs.Names.AliasClosure
import Blueprint.Registry.Lineage

/-!
# Tables that agree

Two pairs of tables agree if they hold the same under every name, in whatever order. Then a name
has the same canonical name in both, the same chain of parents and the same aliases
(`Agrees.denoted`, `Agrees.ancestry`, `Agrees.mem_aliasesOf_iff`).
-/

namespace Blueprint

namespace Names

variable {n n' : Names} {name aliasName : String}

/-- The tables hold the same under every name. -/
structure Agrees (n' n : Names) : Prop where
  definition : ∀ name, n'.definitions.get? name = n.definitions.get? name
  target : ∀ aliasName, n'.aliases.get? aliasName = n.aliases.get? aliasName

/-- Aliases that agree are followed to the same name. -/
theorem follow_congr {aliases aliases' : Table String String}
    (h : ∀ a, aliases'.get? a = aliases.get? a) : ∀ (steps : Nat) (name : String),
      follow aliases' steps name = follow aliases steps name
  | 0, _ => rfl
  | steps + 1, name => by
    simp only [follow, h name]
    cases aliases.get? name with
    | none => rfl
    | some target => exact follow_congr h steps target

theorem Agrees.canonical (h : n'.Agrees n) (name : String) :
    n'.canonical name = n.canonical name := by
  rw [Names.canonical, Names.canonical, Table.size_eq_of_get? h.target]
  exact follow_congr h.target _ name

theorem Agrees.denoted (h : n'.Agrees n) (name : String) : n'.denoted name = n.denoted name :=
  h.canonical (productName name)

theorem Agrees.find? (h : n'.Agrees n) (name : String) : n'.find? name = n.find? name := by
  rw [Names.find?, Names.find?, h.denoted, h.definition]

/-- The walk along the parents is the same in tables that agree. -/
theorem Agrees.ascend (h : n'.Agrees n) : ∀ (steps : Nat) (before : List Link) (link : Link),
    n'.ascend steps before link = n.ascend steps before link := by
  intro steps
  induction steps with
  | zero =>
    rintro before ⟨name, d⟩
    rw [Names.ascend, Names.ascend]
    simp only [h.denoted]
  | succ steps ih =>
    rintro before ⟨name, d⟩
    rw [Names.ascend, Names.ascend]
    simp only [h.denoted, h.definition, ih]

theorem Agrees.ancestry (h : n'.Agrees n) (name : String) :
    n'.ancestry name = n.ancestry name := by
  rw [Names.ancestry, Names.ancestry, h.definition, Table.size_eq_of_get? h.definition]
  cases n.definitions.get? name with
  | none => rfl
  | some d => exact h.ascend _ [] (name, d)

theorem Agrees.mem_definitions_iff (h : n'.Agrees n) :
    name ∈ n'.definitions.keys ↔ name ∈ n.definitions.keys := by
  rw [Table.mem_keys, Table.mem_keys, Table.contains_eq_of_get? (h.definition name)]

/-- A name has the same aliases in tables that agree, perhaps in another order. -/
theorem Agrees.mem_aliasesOf_iff (h : n'.Agrees n) (hn : n.Sound) :
    aliasName ∈ n'.aliasesOf name ↔ aliasName ∈ n.aliasesOf name := by
  have hpoints : PointsAt n'.aliases = PointsAt n.aliases := by
    funext a b
    rw [PointsAt, PointsAt, h.target]
  rw [(hn.of_get? h.definition h.target).mem_aliasesOf_iff, hn.mem_aliasesOf_iff, hpoints]

end Names

end Blueprint
