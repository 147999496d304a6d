import SourceRecipes.Log

/-!
# Recipes and their phases

A run takes every recipe through the phases of a cycle: it is told that a cycle begins, scans every file, may generate
new files and may transform every file. There are two kinds of recipes. A file recipe edits each file on its own and takes
part in the last phase only. A scanning recipe first looks at all files and keeps what it learns from one phase
to the next. `Visiting` and `Scanning` give both the form in which a run drives them.
-/

namespace SourceRecipes

/-- Where a run stands: the number of its cycle, counted from one, and the visits to files so far. These have no bound here. A
run has fewer than `2 ^ 32` cycles, so it takes more than `2 ^ 32` files to count to `2 ^ 64`. -/
structure Context where
  cycle : UInt32 := 0
  filesVisited : Nat := 0
  deriving DecidableEq, Repr

def Context.advance (context : Context) : Context :=
  { context with cycle := context.cycle + 1 }

def Context.countVisit (context : Context) : Context :=
  { context with filesVisited := context.filesVisited + 1 }

/-- What a recipe says of itself; `maxCycles` is the largest number of cycles it may take part in within one run. -/
structure RecipeInfo where
  name : String
  displayName : String
  description : String
  maxCycles : UInt32 := 4294967295

class Described (ρ : Type) where
  info : ρ → RecipeInfo

/-- A recipe that edits files one at a time; `none` leaves a file as it is. -/
class FileRecipe (ρ : Type) extends Described ρ where
  visit : ρ → SourceFile → Context → Logged (Option SourceFile)

/-- A recipe that looks at all files before it edits any, with an accumulator from phase to phase. -/
class ScanningRecipe (ρ : Type) (α : outParam Type) extends Described ρ where
  /-- The accumulator at the beginning of a cycle. -/
  initial : ρ → Context → α
  scan : ρ → α → SourceFile → Context → Logged α
  /-- New files, given those that earlier recipes generated in this cycle. -/
  generate : ρ → α → List SourceFile → Context → Session (List SourceFile) := fun _ _ _ _ => pure []
  transform : ρ → α → SourceFile → Context → Logged (Option SourceFile)

/-- A recipe as a run drives it. -/
class Runnable (ρ : Type) where
  name : ρ → String
  maxCycles : ρ → UInt32
  begin : ρ → Context → ρ
  scan : ρ → SourceFile → Context → Logged ρ
  generate : ρ → List SourceFile → Context → Session (List SourceFile × ρ)
  transform : ρ → SourceFile → Context → Logged (Option SourceFile)

/-- A file recipe in a run. -/
structure Visiting (ρ : Type) where
  recipe : ρ

instance {ρ : Type} [FileRecipe ρ] : Runnable (Visiting ρ) where
  name r := (Described.info r.recipe).name
  maxCycles r := (Described.info r.recipe).maxCycles
  begin r _ := r
  scan r _ _ := pure r
  generate r _ _ := pure ([], r)
  transform r file context := FileRecipe.visit r.recipe file context

/-- A scanning recipe in a run, with its accumulator once there is one. -/
structure Scanning (ρ α : Type) where
  recipe : ρ
  accumulator : Option α := none

namespace Scanning

variable {ρ α : Type} [ScanningRecipe ρ α]

/-- The accumulator, made on demand when no cycle has begun. -/
def current (r : Scanning ρ α) (context : Context) : α :=
  r.accumulator.getD (ScanningRecipe.initial r.recipe context)

def begin (r : Scanning ρ α) (context : Context) : Scanning ρ α :=
  { r with accumulator := some (ScanningRecipe.initial r.recipe context) }

def scan (r : Scanning ρ α) (file : SourceFile) (context : Context) : Logged (Scanning ρ α) := do
  let accumulator ← ScanningRecipe.scan r.recipe (r.current context) file context
  return { r with accumulator := some accumulator }

def generate (r : Scanning ρ α) (seen : List SourceFile) (context : Context) :
    Session (List SourceFile × Scanning ρ α) := do
  let files ← ScanningRecipe.generate r.recipe (r.current context) seen context
  return (files, { r with accumulator := some (r.current context) })

/-- Before any cycle has begun nothing is transformed. -/
def transform (r : Scanning ρ α) (file : SourceFile) (context : Context) : Logged (Option SourceFile) :=
  match r.accumulator with
  | none => pure none
  | some accumulator => ScanningRecipe.transform r.recipe accumulator file context

instance : Runnable (Scanning ρ α) where
  name r := (Described.info r.recipe).name
  maxCycles r := (Described.info r.recipe).maxCycles
  begin := begin
  scan := scan
  generate := generate
  transform := transform

end Scanning

/-- Recipes of two types can stand in one list. -/
instance {ρ σ : Type} [Runnable ρ] [Runnable σ] : Runnable (ρ ⊕ σ) where
  name
    | .inl r => Runnable.name r
    | .inr r => Runnable.name r
  maxCycles
    | .inl r => Runnable.maxCycles r
    | .inr r => Runnable.maxCycles r
  begin
    | .inl r, context => .inl (Runnable.begin r context)
    | .inr r, context => .inr (Runnable.begin r context)
  scan
    | .inl r, file, context => do return .inl (← Runnable.scan r file context)
    | .inr r, file, context => do return .inr (← Runnable.scan r file context)
  generate
    | .inl r, seen, context => do
      let (files, r) ← Runnable.generate r seen context
      return (files, .inl r)
    | .inr r, seen, context => do
      let (files, r) ← Runnable.generate r seen context
      return (files, .inr r)
  transform
    | .inl r, file, context => Runnable.transform r file context
    | .inr r, file, context => Runnable.transform r file context

end SourceRecipes
