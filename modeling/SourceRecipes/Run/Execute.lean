import SourceRecipes.Run.Config
import SourceRecipes.Run.Cycle
import SourceRecipes.Run.Result

/-!
# Running recipes

A run has a number of cycles that it may take. It is refused before anything happens if there are none, or if a recipe
takes part in fewer. A run by a configuration is also refused if the options of a recipe cannot be used.

The options for logging decide which events the process shows, and in which form. They do nothing to the events themselves, so
`execute` leaves them out. `attempt` takes the same steps one by one, with the set-up of the logging among them.
-/

namespace SourceRecipes

inductive RunError where
  | noCycles
  | cycleLimitExceeded (recipe : String) (requested max : UInt32)
  | config (cause : InvalidOptions)
  deriving DecidableEq

namespace RunError

def message : RunError → String
  | noCycles => "a run needs at least one cycle"
  | cycleLimitExceeded recipe requested max =>
    s!"recipe '{recipe}' allows at most {max} cycle(s), run requested {requested}"
  | config cause => s!"configuration error: {cause.message}"

/-- Whether the error lies in how the run was set up; runs have no other errors. -/
def isConfiguration : RunError → Bool
  | noCycles | cycleLimitExceeded .. | config _ => true

end RunError

namespace Run

variable {ρ : Type} [Runnable ρ]

def mayBegin (limit : UInt32) (recipes : List ρ) : Except RunError Unit :=
  if limit = 0 then .error .noCycles
  else
    match recipes.find? fun r => Runnable.maxCycles r < limit with
    | none => .ok ()
    | some r => .error (.cycleLimitExceeded (Runnable.name r) limit (Runnable.maxCycles r))

def start (limit : UInt32) (recipes : List ρ) (sources : SourceSet) : Session RunResult := do
  log (.runStarted recipes.length sources.size limit)
  let state ← cycles limit.toNat ⟨recipes, sources, {}⟩
  let changes := Change.between sources state.sources
  log (.runFinished changes.length state.context.cycle state.context.filesVisited)
  return ⟨changes, state.sources, state.context.cycle⟩

end Run

/-- Runs the recipes over the files for up to `limit` cycles. -/
def run {ρ : Type} [Runnable ρ] (limit : UInt32) (recipes : List ρ) (sources : SourceSet) :
    Except RunError (Session RunResult) := do
  Run.mayBegin limit recipes
  return Run.start limit recipes sources

def RunConfig.execute (config : RunConfig) (sources : SourceSet) : Except RunError (Session RunResult) :=
  match config.validate with
  | .error cause => .error (.config cause)
  | .ok () => run config.cycles config.activeRecipes sources

/-! ### Step by step -/

/-- A session in a process that logs as it was first told to, if it was told at all. -/
abbrev ProcessSession := StateT (Option LogConfig) Session

/-- Sets up the logging of the process, unless it was set up before; tells whether that was done now. -/
def initLogging (config : LogConfig) : ProcessSession Bool :=
  modifyGet fun logging => (logging.isNone, logging.or (some config))

namespace RunConfig

/-- The steps of a run of `recipes` by a configuration, in order. -/
def attemptWith {ρ : Type} [Runnable ρ] (config : RunConfig) (recipes : List ρ) (sources : SourceSet) :
    ExceptT RunError ProcessSession RunResult := do
  liftM (config.validate.mapError RunError.config)
  let _ ← initLogging config.logging
  Run.mayBegin config.cycles recipes
  Run.start config.cycles recipes sources

def attempt (config : RunConfig) (sources : SourceSet) : ExceptT RunError ProcessSession RunResult :=
  config.attemptWith config.activeRecipes sources

end RunConfig

end SourceRecipes
