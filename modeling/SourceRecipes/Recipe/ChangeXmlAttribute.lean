import SourceRecipes.Recipe.Phases
import SourceRecipes.Text.Replace

/-!
# Changing an XML attribute

The recipe gives an attribute a new value on every element with a given name. With an old value it asks that the
current value begins with that, and replaces the first occurrence of it; without one every value is replaced.

An element that has the name is not entered, so one of the same name inside it stays as it is. All other
elements are entered, and their own attributes are not looked at.
-/

namespace SourceRecipes

structure ChangeXmlAttribute where
  elementName : String
  attributeName : String
  oldValue : Option String
  newValue : String
  deriving DecidableEq, Repr

namespace ChangeXmlAttribute

def info : RecipeInfo where
  name := "change_xml_attribute"
  displayName := "Change XML attribute"
  description := "Alters the value of an attribute on every element with the given tag name, " ++
    "optionally only when the current value starts with a given prefix."

def record {m : Type → Type} [Monad m] [DataSource m] : Record m ChangeXmlAttribute where
  name := "ChangeXmlAttribute"
  blank := ⟨"", "", none, ""⟩
  fields := [
    ⟨"elementName", true, fun r => do return { r with elementName := ← DataSource.string }⟩,
    ⟨"attributeName", true, fun r => do return { r with attributeName := ← DataSource.string }⟩,
    ⟨"oldValue", false, fun r => do return { r with oldValue := ← DataSource.optional DataSource.string }⟩,
    ⟨"newValue", true, fun r => do return { r with newValue := ← DataSource.string }⟩]

/-- The options as the members of an object, in order, with null for an absent one. -/
def members (r : ChangeXmlAttribute) : List (String × Value) :=
  [("elementName", .string r.elementName), ("attributeName", .string r.attributeName),
    ("oldValue", Value.ofOption .string r.oldValue), ("newValue", .string r.newValue)]

/-- The value that a current one is changed to, or `none` if it does not begin with the old value asked for. -/
def replacement? (r : ChangeXmlAttribute) (current : String) : Option String :=
  match r.oldValue with
  | none => some r.newValue
  | some old =>
    if Text.startsWith current old then
      some (String.ofList (Text.replaceFirst old.toList r.newValue.toList current.toList))
    else none

/-- The attribute with its changed value, if it has the key and its value becomes another one. -/
def changedAttribute? (r : ChangeXmlAttribute) (a : Attribute) : Option Attribute :=
  if a.key = r.attributeName then
    match r.replacement? a.value.text with
    | none => none
    | some changed => if changed = a.value.text then none else some (a.withText changed)
  else none

def changeAttribute (r : ChangeXmlAttribute) (a : Attribute) : StateM Nat (Option Attribute) :=
  match r.changedAttribute? a with
  | none => pure none
  | some changed => do
    modify (· + 1)
    return some changed

/-- The visitor that makes the change, with the number of attributes changed so far as its state. That is never more than the
attributes of the trees it was shown, all of which are in memory. -/
def visitor (r : ChangeXmlAttribute) : Visitor Nat where
  onElement e walk :=
    if e.name = r.elementName then do
      return (← replaceEach r.changeAttribute e.attributes).map fun attributes => { e with attributes }
    else walk

def edit (r : ChangeXmlAttribute) (e : Element) : Element :=
  ((r.visitor.visitElement e).run 0).1.getD e

def editDocument (r : ChangeXmlAttribute) (d : Document) : Document :=
  ((r.visitor.visitDocument d).run 0).1.getD d

/-- Edits a file and logs how many attributes changed, if any did. -/
def visit (r : ChangeXmlAttribute) (file : SourceFile) : Logged (Option SourceFile) :=
  match (r.visitor.visitFile file).run 0 with
  | (none, _) => pure none
  | (some edited, count) => do
    log (.valuesChanged file.path r.elementName r.attributeName count)
    return some edited

instance : FileRecipe ChangeXmlAttribute where
  info _ := info
  visit r file _ := r.visit file

end ChangeXmlAttribute

end SourceRecipes
