import SourceRecipes.Markup.Basic

/-!
# Walking markup

A visitor walks a tree with a state of its own and may replace attributes and elements. Every visit answers `none` for
a node that stays as it is, so a walk that changes nothing answers `none` as a whole and a walk that changes one
attribute rebuilds only the path to it.

The default visit of an element takes its attributes from first to last and then its child elements from first
to last. A visitor that treats elements in its own way is handed that default visit and may run it, or not.
-/

namespace SourceRecipes

/-- The items after a replacement of the first one and of the others, if there was any. -/
def replaced {α : Type} (item : α) (rest : List α) : Option α → Option (List α) → Option (List α)
  | none, none => none
  | first, others => some (first.getD item :: others.getD rest)

/-- Asks `f` for a replacement of every item, first to last. The answer is `none` if there was none,
else the items with the replacements in their places. -/
def replaceEach {m : Type → Type} [Monad m] {α : Type} (f : α → m (Option α)) : List α → m (Option (List α))
  | [] => pure none
  | item :: rest => do
    let first ← f item
    let others ← replaceEach f rest
    return replaced item rest first others

/-- A visitor with states of type `σ`. -/
structure Visitor (σ : Type) where
  /-- Visits an attribute; by default it stays. -/
  onAttribute : Attribute → StateM σ (Option Attribute) := fun _ => pure none
  /-- Visits an element, given its default visit; by default that is run. -/
  onElement : Element → StateM σ (Option Element) → StateM σ (Option Element) := fun _ walk => walk

namespace Visitor

variable {σ : Type}

/-- An element with new attributes and new children where there are some. -/
def rebuild (e : Element) (attributes : Option (List Attribute)) (children : Option (List Child)) : Option Element :=
  match attributes, children with
  | none, none => none
  | attributes, children =>
    some { e with attributes := attributes.getD e.attributes, content := children.or e.content }

mutual

def visitElement (v : Visitor σ) (e : Element) : StateM σ (Option Element) :=
  match e with
  | ⟨id, leading, name, attributes, content, beforeDelimiter⟩ =>
    let e : Element := ⟨id, leading, name, attributes, content, beforeDelimiter⟩
    v.onElement e do
      let attributes ← replaceEach v.onAttribute attributes
      let children ← visitContent v content
      return rebuild e attributes children
termination_by structural e

/-- Visits a child: only elements are ever replaced. -/
def visitChild (v : Visitor σ) (c : Child) : StateM σ (Option Child) :=
  match c with
  | .element e => do return (← visitElement v e).map Child.element
  | .charData _ => pure none
  | .comment _ => pure none
termination_by structural c

def visitContent (v : Visitor σ) (content : Option (List Child)) : StateM σ (Option (List Child)) :=
  match content with
  | none => pure none
  | some children => visitChildren v children
termination_by structural content

/-- Visits the children from first to last, as `replaceEach` would. -/
def visitChildren (v : Visitor σ) (children : List Child) : StateM σ (Option (List Child)) :=
  match children with
  | [] => pure none
  | c :: rest => do
    let first ← visitChild v c
    let others ← visitChildren v rest
    return replaced c rest first others
termination_by structural children

end

theorem visitChildren_eq_replaceEach (v : Visitor σ) (children : List Child) :
    v.visitChildren children = replaceEach v.visitChild children := by
  induction children with
  | nil => rfl
  | cons c rest ih => simp only [visitChildren, replaceEach, ih]

def visitDocument (v : Visitor σ) (d : Document) : StateM σ (Option Document) := do
  return (← v.visitElement d.root).map fun root => { d with root }

end Visitor

end SourceRecipes
