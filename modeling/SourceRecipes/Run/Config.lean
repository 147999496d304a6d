import SourceRecipes.Recipe.Spec

/-!
# Configurations of a run

A configuration says how many cycles a run may take, how it logs, and which recipes it applies in which order. All of it
can be left out. Options that were read may still be unusable, which is a matter for validation.
-/

namespace SourceRecipes

/-- How a run logs: from which level on, or by which filter, and whether as lines of JSON. -/
structure LogConfig where
  level : String := "info"
  json : Bool := false
  deriving DecidableEq, Repr

namespace LogConfig

def record {m : Type → Type} [Monad m] [DataSource m] : Record m LogConfig where
  name := "LogConfig"
  blank := {}
  fields := [
    ⟨"level", false, fun c => do return { c with level := ← DataSource.string }⟩,
    ⟨"json", false, fun c => do return { c with json := ← DataSource.boolean }⟩]

def read {m : Type → Type} [Monad m] [DataSource m] : m LogConfig :=
  DataSource.record record

def value (c : LogConfig) : Value :=
  .object [("level", .string c.level), ("json", .bool c.json)]

end LogConfig

structure RunConfig where
  cycles : UInt32 := 1
  logging : LogConfig := {}
  recipes : List RecipeSpec := []
  deriving DecidableEq

/-- Options of a recipe that cannot be used although they could be read. -/
structure InvalidOptions where
  recipe : String
  problems : List String
  deriving DecidableEq, Repr

def InvalidOptions.message (cause : InvalidOptions) : String :=
  s!"invalid options for recipe '{cause.recipe}': " ++ "; ".intercalate cause.problems

namespace RunConfig

def record {m : Type → Type} [Monad m] [DataSource m] [TaggedSource m] : Record m RunConfig where
  name := "RunConfig"
  blank := {}
  fields := [
    ⟨"cycles", false, fun c => do return { c with cycles := ← DataSource.word }⟩,
    ⟨"logging", false, fun c => do return { c with logging := ← LogConfig.read }⟩,
    ⟨"recipes", false, fun c => do return { c with recipes := ← DataSource.list RecipeSpec.read }⟩]

/-- Reads a configuration, whether its options can be used or not. -/
def read {m : Type → Type} [Monad m] [DataSource m] [TaggedSource m] : m RunConfig :=
  DataSource.record record

def value (c : RunConfig) : Value :=
  .object [("cycles", .integer c.cycles.toNat), ("logging", c.logging.value),
    ("recipes", .sequence (c.recipes.map RecipeSpec.value))]

/-- Finds the first recipe with unusable options. -/
def validate (c : RunConfig) : Except InvalidOptions Unit :=
  match c.recipes.find? fun spec => !spec.problems.isEmpty with
  | none => .ok ()
  | some spec => .error ⟨spec.name, spec.problems⟩

def activeRecipes (c : RunConfig) : List ActiveRecipe :=
  c.recipes.map RecipeSpec.active

end RunConfig

end SourceRecipes
