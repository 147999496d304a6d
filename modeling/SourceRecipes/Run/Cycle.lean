import SourceRecipes.Recipe.Phases
import SourceRecipes.SourceSet

/-!
# A cycle of a run

A cycle takes all recipes through their phases. Every file is shown to every recipe first. Then the recipes generate
files in order, each knowing what those before it generated. Then every file that was there before the cycle goes
through all recipes in order, each working on what the one before it made. The generated files join the set last, so they
are first edited in the next cycle.
-/

namespace SourceRecipes.Run

variable {ρ : Type} [Runnable ρ]

/-- Shows files to all recipes one after the other and counts the visits. -/
def scanFiles : List ρ → List SourceFile → Context → Logged (List ρ × Context)
  | recipes, [], context => pure (recipes, context)
  | recipes, file :: rest, context => do
    let context := context.countVisit
    let recipes ← recipes.mapM fun r => Runnable.scan r file context
    scanFiles recipes rest context

/-- Lets the recipes generate files in order; `seen` are the files generated before. -/
def generateFiles : List ρ → (seen : List SourceFile) → Context → Session (List SourceFile × List ρ)
  | [], seen, _ => pure (seen, [])
  | r :: rest, seen, context => do
    let (files, r) ← Runnable.generate r seen context
    if !files.isEmpty then
      log (.generated (Runnable.name r) files.length)
    let (all, rest) ← generateFiles rest (seen ++ files) context
    return (all, r :: rest)

/-- Takes a file through all recipes in order; `none` if none of them edits it. -/
def transformFile : List ρ → SourceFile → Context → Logged (Option SourceFile)
  | [], _, _ => pure none
  | r :: rest, file, context => do
    match ← Runnable.transform r file context with
    | none => transformFile rest file context
    | some edited => return some ((← transformFile rest edited context).getD edited)

/-- A file and what the recipes made of it. -/
structure Outcome where
  before : SourceFile
  edited : Option SourceFile

namespace Outcome

def after (o : Outcome) : SourceFile :=
  o.edited.getD o.before

/-- Whether the content differs; a file that is replaced by an equal one is not changed. -/
def changed (o : Outcome) : Bool :=
  match o.edited with
  | none => false
  | some edited => edited.fingerprint ≠ o.before.fingerprint

end Outcome

/-- The state of a run between two cycles. -/
structure State (ρ : Type) where
  recipes : List ρ
  sources : SourceSet
  context : Context

/-- Runs one cycle; tells whether it changed anything. -/
def cycle (state : State ρ) : Session (State ρ × Bool) := do
  let context := state.context.advance
  let files := state.sources.files
  let recipes := state.recipes.map fun r => Runnable.begin r context
  let (recipes, context) ← scanFiles recipes files context
  log (.scanFinished files.length)
  let (generated, recipes) ← generateFiles recipes [] context
  let outcomes ← files.mapM fun file => do
    return Outcome.mk file (← transformFile recipes file context)
  let changed := !generated.isEmpty || outcomes.any Outcome.changed
  let sources := (SourceSet.ofList (outcomes.map Outcome.after)).extend generated
  log (.cycleFinished context.cycle changed)
  return (⟨recipes, sources, context⟩, changed)

/-- Runs cycles until one changes nothing, but no more than `limit`. -/
def cycles : (limit : Nat) → State ρ → Session (State ρ)
  | 0, state => pure state
  | limit + 1, state => do
    let (state, changed) ← cycle state
    if changed then cycles limit state else return state

end SourceRecipes.Run
