import SourceRecipes.Recipe.Strategy
import SourceRecipes.SourceFile

/-!
# The log of a run

A run tells what it does in events. Computations that log collect their events beside their value, in order; those that
also create files draw identities from a supply.
-/

namespace SourceRecipes

inductive Level where
  | trace
  | debug
  | info
  | warn
  deriving DecidableEq, Repr

def Level.text : Level → String
  | trace => "TRACE"
  | debug => "DEBUG"
  | info => "INFO"
  | warn => "WARN"

inductive Event where
  | runStarted (recipes sources : Nat) (cycles : UInt32)
  | targetFound (path : SourcePath)
  | scanFinished (scanned : Nat)
  | nothingToGenerate (path : SourcePath)
  | creatingFile (path : SourcePath)
  | generated (recipe : String) (count : Nat)
  | valuesChanged (path : SourcePath) (element attributeName : String) (count : Nat)
  | targetNotPlainText (path : SourcePath) (kind : SourceKind)
  | contentMerged (path : SourcePath) (strategy : ExistingFileStrategy)
  | cycleFinished (cycle : UInt32) (changed : Bool)
  | runFinished (changes : Nat) (cyclesRun : UInt32) (filesVisited : Nat)
  deriving DecidableEq

namespace Event

def level : Event → Level
  | runStarted .. | creatingFile _ | runFinished .. => .info
  | targetFound _ => .trace
  | targetNotPlainText .. => .warn
  | scanFinished _ | nothingToGenerate _ | generated .. | valuesChanged .. | contentMerged .. | cycleFinished .. => .debug

def message : Event → String
  | runStarted .. => "Starting recipe run"
  | targetFound _ => "target file exists before run"
  | scanFinished _ => "Scan phase done"
  | nothingToGenerate _ => "target file exists, nothing to generate"
  | creatingFile _ => "creating text file"
  | generated .. => "Generated sources"
  | valuesChanged .. => "rewrote attribute values"
  | targetNotPlainText .. => "target is not a plain text file, leaving it"
  | contentMerged .. => "merged content into existing file"
  | cycleFinished .. => "Cycle finished"
  | runFinished .. => "Recipe run finished"

/-- What an event says beside its message. -/
def fields : Event → List (String × Value)
  | runStarted recipes sources cycles =>
    [("recipes", .integer recipes), ("sources", .integer sources), ("cycles", .integer cycles.toNat)]
  | targetFound path | nothingToGenerate path | creatingFile path => [("path", .string path.text)]
  | scanFinished scanned => [("scanned", .integer scanned)]
  | generated recipe count => [("recipe", .string recipe), ("count", .integer count)]
  | valuesChanged path element attributeName count =>
    [("path", .string path.text), ("element", .string element), ("attribute", .string attributeName),
      ("rewritten", .integer count)]
  | targetNotPlainText path kind => [("path", .string path.text), ("kind", .string kind.text)]
  | contentMerged path strategy => [("path", .string path.text), ("strategy", .string strategy.text)]
  | cycleFinished cycle changed => [("cycle", .integer cycle.toNat), ("changed", .bool changed)]
  | runFinished changes cyclesRun filesVisited =>
    [("changes", .integer changes), ("cycles_run", .integer cyclesRun.toNat), ("files_visited", .integer filesVisited)]

end Event

/-- A value and the events logged on the way to it. -/
structure Logged (α : Type) where
  value : α
  events : List Event

namespace Logged

instance : Monad Logged where
  pure value := ⟨value, []⟩
  bind x f := ⟨(f x.value).value, x.events ++ (f x.value).events⟩

variable {α β : Type}

@[simp]
theorem value_pure (a : α) : (pure a : Logged α).value = a := rfl

@[simp]
theorem events_pure (a : α) : (pure a : Logged α).events = [] := rfl

@[simp]
theorem value_bind (x : Logged α) (f : α → Logged β) : (x >>= f).value = (f x.value).value := rfl

@[simp]
theorem events_bind (x : Logged α) (f : α → Logged β) : (x >>= f).events = x.events ++ (f x.value).events := rfl

instance : LawfulMonad Logged := LawfulMonad.mk' Logged
  (fun _ => by simp [Functor.map])
  (fun _ _ => by simp [Bind.bind, Pure.pure])
  (fun _ _ _ => by simp [Bind.bind])

end Logged

def log (event : Event) : Logged Unit :=
  ⟨(), [event]⟩

/-- What logs and may draw fresh identities. -/
abbrev Session := StateT IdSupply Logged

def Session.freshId : Session NodeId :=
  fun supply => pure supply.draw

end SourceRecipes
