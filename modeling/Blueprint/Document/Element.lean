import Blueprint.Table
import Blueprint.Text.Blank

/-!
# Elements

A document is a tree of elements. Markup is not the business of this library : an element has a
name, attributes in the order they were written, children, and possibly a text. `Element.kind`
tells what a child of a group means.

Two elements are `same` if they agree in everything but the order of attributes.
-/

namespace Blueprint

/-- A node of a document. -/
structure Element where
  name : String
  attributes : Table String String := {}
  children : List Element := []
  text : Option String := none
deriving Inhabited

/-- What an element in a group means. -/
inductive ElementKind where
  | group
  | component
  | aliasing
  | importing
  | custom
deriving DecidableEq, Repr

namespace Element

theorem smaller_of_mem_children {e parent : Element} (h : e ∈ parent.children) :
    sizeOf e < sizeOf parent :=
  Nat.lt_trans (List.sizeOf_lt_of_mem h) (by cases parent; simp; omega)

/-- What is so of an element if it is so of its children is so of all elements. -/
@[elab_as_elim]
theorem children_induction {motive : Element → Prop}
    (step : ∀ parent : Element, (∀ e ∈ parent.children, motive e) → motive parent)
    (e : Element) : motive e :=
  step e fun child hchild =>
    have := smaller_of_mem_children hchild
    children_induction step child
termination_by sizeOf e

/-- The value of an attribute. -/
def attr (e : Element) (name : String) : Option String := e.attributes.get? name

/-- The value of an attribute without the blanks around it, unless nothing else is there. -/
def given (e : Element) (name : String) : Option String :=
  ((e.attr name).map Text.trim).filter fun value => !value.isEmpty

/-- The value of an attribute, unless it is absent, blank or `default`. -/
def explicit (e : Element) (name : String) : Option String :=
  (e.given name).filter fun value => value ≠ "default"

/-- The children with a name, in order. -/
def childrenNamed (e : Element) (name : String) : List Element :=
  e.children.filter fun child => child.name = name

/-- What the element means in a group. -/
def kind (e : Element) : ElementKind :=
  match e.name with
  | "components" => .group
  | "component" => .component
  | "alias" => .aliasing
  | "import" => .importing
  | _ => .custom

mutual

/-- Equal up to the order of attributes. -/
def same : (a b : Element) → Bool
  | ⟨name, attributes, children, text⟩, ⟨name', attributes', children', text'⟩ =>
    name == name' && attributes.sameEntries attributes' && sameList children children' &&
      text == text'

/-- Equal in number and, one by one, up to the order of attributes. -/
def sameList : (as bs : List Element) → Bool
  | [], [] => true
  | a :: as, b :: bs => same a b && sameList as bs
  | _, _ => false

end

end Element

end Blueprint
