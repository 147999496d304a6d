import SourceRecipes.SourceSet

/-!
# Results of a run

A run reports every file that is not what it was before the run, with its state before and after, and the files as they
are at the end.
-/

namespace SourceRecipes

/-- A file that a run changed; a new one has no state before. -/
structure Change where
  before : Option SourceFile
  after : SourceFile
  deriving DecidableEq

namespace Change

def isNew (c : Change) : Bool :=
  c.before.isNone

def path (c : Change) : SourcePath :=
  c.after.path

/-- How a file differs from the one that was at its path; equal fingerprints count as equal content. -/
def of? (before : SourceSet) (file : SourceFile) : Option Change :=
  match before.get? file.path with
  | none => some ⟨none, file⟩
  | some old => if old.fingerprint = file.fingerprint then none else some ⟨some old, file⟩

/-- The changes from one set of files to another, in the order of the latter. -/
def between (before after : SourceSet) : List Change :=
  after.files.filterMap (of? before)

end Change

structure RunResult where
  changes : List Change
  sources : SourceSet
  cyclesRun : UInt32

namespace RunResult

def changeAt? (r : RunResult) (path : SourcePath) : Option Change :=
  r.changes.find? fun c => c.path = path

def generated (r : RunResult) : List SourceFile :=
  (r.changes.filter Change.isNew).map Change.after

def isUnchanged (r : RunResult) : Bool :=
  r.changes.isEmpty

end RunResult

end SourceRecipes
