import SourceRecipes.Recipe.AppendToTextFile
import SourceRecipes.Recipe.ChangeXmlAttribute

/-!
# Choosing recipes

A configuration names its recipes by specifications: the options of one of the recipes, beside the key `recipe` that says
of which.
-/

namespace SourceRecipes

inductive RecipeSpec where
  | changeXmlAttribute (recipe : ChangeXmlAttribute)
  | appendToTextFile (recipe : AppendToTextFile)
  deriving DecidableEq

abbrev ActiveRecipe := Visiting ChangeXmlAttribute ⊕ Scanning AppendToTextFile Presence

/-- The recipes there are. -/
inductive RecipeKind where
  | changeXmlAttribute
  | appendToTextFile
  deriving DecidableEq, Repr

namespace RecipeKind

def text : RecipeKind → String
  | changeXmlAttribute => "changeXmlAttribute"
  | appendToTextFile => "appendToTextFile"

def parse (name : String) : Except Fault RecipeKind :=
  if name = changeXmlAttribute.text then .ok changeXmlAttribute
  else if name = appendToTextFile.text then .ok appendToTextFile
  else .error (.unknownVariant name [changeXmlAttribute.text, appendToTextFile.text])

end RecipeKind

namespace RecipeSpec

def ofValue : RecipeKind → Value → Except Fault RecipeSpec
  | .changeXmlAttribute, options => do
    return changeXmlAttribute (← (DataSource.record ChangeXmlAttribute.record : FromValue _) options)
  | .appendToTextFile, options => do
    return appendToTextFile (← (DataSource.record AppendToTextFile.record : FromValue _) options)

def read {m : Type → Type} [TaggedSource m] : m RecipeSpec :=
  TaggedSource.tagged "RecipeSpec" "recipe" RecipeKind.parse ofValue

def value : RecipeSpec → Value
  | changeXmlAttribute r => .object (("recipe", .string RecipeKind.changeXmlAttribute.text) :: r.members)
  | appendToTextFile r => .object (("recipe", .string RecipeKind.appendToTextFile.text) :: r.members)

def info : RecipeSpec → RecipeInfo
  | changeXmlAttribute _ => ChangeXmlAttribute.info
  | appendToTextFile _ => AppendToTextFile.info

def name (spec : RecipeSpec) : String :=
  spec.info.name

def active : RecipeSpec → ActiveRecipe
  | changeXmlAttribute recipe => .inl ⟨recipe⟩
  | appendToTextFile recipe => .inr { recipe }

/-- A complaint about an option that must hold more than blanks. -/
def complaintIfBlank (key text : String) : List String :=
  if (Text.trim text).isEmpty then [s!"{key} must not be empty"] else []

/-- What is wrong with the options although they could be read: names that would never match. -/
def problems : RecipeSpec → List String
  | changeXmlAttribute r =>
    complaintIfBlank "elementName" r.elementName ++ complaintIfBlank "attributeName" r.attributeName
  | appendToTextFile _ => []

end RecipeSpec

end SourceRecipes
