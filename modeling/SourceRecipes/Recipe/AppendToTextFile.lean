import SourceRecipes.Recipe.Phases
import SourceRecipes.Text.Replace

/-!
# Appending to a text file

The recipe sees to it that a plain text file at a path has some content. If the scan meets no file there, and no earlier
recipe generated one in the same cycle, a new file is generated. A file that was there is merged with the content as the
strategy says. A file generated in a cycle is not transformed in it, so the content never lands twice. A file that is
no plain text stays as it is.
-/

namespace SourceRecipes

structure AppendToTextFile where
  relativeFileName : SourcePath
  content : String
  preamble : Option String
  appendNewline : Option Bool
  existingFileStrategy : Option ExistingFileStrategy
  deriving DecidableEq

/-- Whether the target of a recipe was met; once set it stays so until the next cycle. -/
structure Presence where
  isPresent : Bool := false
  deriving DecidableEq, Repr

def Presence.mark (_ : Presence) : Presence :=
  ⟨true⟩

def SourcePath.read {m : Type → Type} [Monad m] [DataSource m] : m SourcePath := do
  match SourcePath.parse (← DataSource.string) with
  | .ok path => return path
  | .error cause => DataSource.fail (.path cause)

namespace AppendToTextFile

def info : RecipeInfo where
  name := "append_to_text_file"
  displayName := "Append to text file"
  description := "Appends or replaces content of an existing plain text file, " ++
    "or creates a new one if it doesn't already exist."
  maxCycles := 1

/-- Some path, for a record of which nothing has been read. -/
def blankPath : SourcePath where
  absolute := false
  segments := ["-"]
  segments_ne_nil := by simp
  isSegment := by simp [IsSegment, isKept, isSeparator]

def record {m : Type → Type} [Monad m] [DataSource m] : Record m AppendToTextFile where
  name := "AppendToTextFile"
  blank := ⟨blankPath, "", none, none, none⟩
  fields := [
    ⟨"relativeFileName", true, fun r => do return { r with relativeFileName := ← SourcePath.read }⟩,
    ⟨"content", true, fun r => do return { r with content := ← DataSource.string }⟩,
    ⟨"preamble", false, fun r => do return { r with preamble := ← DataSource.optional DataSource.string }⟩,
    ⟨"appendNewline", false, fun r => do return { r with appendNewline := ← DataSource.optional DataSource.boolean }⟩,
    ⟨"existingFileStrategy", false, fun r => do
      return { r with existingFileStrategy := ← DataSource.optional ExistingFileStrategy.read }⟩]

/-- The options as the members of an object, in order, with null for an absent one. -/
def members (r : AppendToTextFile) : List (String × Value) :=
  [("relativeFileName", .string r.relativeFileName.text), ("content", .string r.content),
    ("preamble", Value.ofOption .string r.preamble), ("appendNewline", Value.ofOption .bool r.appendNewline),
    ("existingFileStrategy", Value.ofOption (fun strategy => .string strategy.text) r.existingFileStrategy)]

/-- The strategy in force; without one the file is left. -/
def strategy (r : AppendToTextFile) : ExistingFileStrategy :=
  r.existingFileStrategy.getD .leave

/-- What ends the content and the preamble: a newline, unless that was turned off. -/
def newline (r : AppendToTextFile) : String :=
  if r.appendNewline = some false then "" else "\n"

def contentLine (r : AppendToTextFile) : String :=
  r.content ++ r.newline

/-- The preamble with its ending, empty if there is none. -/
def preambleLine (r : AppendToTextFile) : String :=
  match r.preamble with
  | none => ""
  | some preamble => preamble ++ r.newline

/-- The text of a file that is created or replaced. -/
def newText (r : AppendToTextFile) : String :=
  r.preambleLine ++ r.contentLine

/-- What goes between the text that is there and the content, so that this begins a line of its own. -/
def separator (r : AppendToTextFile) (existing : String) : String :=
  if r.newline ≠ "" ∧ ¬ Text.endsWith existing r.newline then r.newline else ""

/-- The text of an existing file after the merge, or `none` if it is to be left. -/
def merged? (r : AppendToTextFile) (existing : String) : Option String :=
  match r.strategy with
  | .extend => some (existing ++ r.separator existing ++ r.contentLine)
  | .replace => some r.newText
  | .leave => none

def targets (r : AppendToTextFile) (file : SourceFile) : Bool :=
  file.path = r.relativeFileName

def scan (r : AppendToTextFile) (presence : Presence) (file : SourceFile) : Logged Presence :=
  if !presence.isPresent && r.targets file then do
    log (.targetFound r.relativeFileName)
    return presence.mark
  else pure presence

def generate (r : AppendToTextFile) (presence : Presence) (seen : List SourceFile) : Session (List SourceFile) :=
  if presence.isPresent || seen.any r.targets then do
    log (.nothingToGenerate r.relativeFileName)
    return []
  else do
    log (.creatingFile r.relativeFileName)
    let id ← Session.freshId
    return [.plainText ⟨id, r.relativeFileName, r.newText⟩]

/-- Merges the content into a plain text file; `none` if the text stays the same. -/
def mergeInto (r : AppendToTextFile) (file : PlainText) : Logged (Option SourceFile) :=
  match r.merged? file.text with
  | none => pure none
  | some text =>
    if text = file.text then pure none
    else do
      log (.contentMerged r.relativeFileName r.strategy)
      return some (.plainText { file with text })

def transform (r : AppendToTextFile) (presence : Presence) (file : SourceFile) : Logged (Option SourceFile) :=
  if presence.isPresent && r.targets file then
    match file with
    | .plainText t => r.mergeInto t
    | .markup _ => do
      log (.targetNotPlainText r.relativeFileName file.kind)
      return none
  else pure none

instance : ScanningRecipe AppendToTextFile Presence where
  info _ := info
  initial _ _ := {}
  scan r presence file _ := r.scan presence file
  generate r presence seen _ := r.generate presence seen
  transform r presence file _ := r.transform presence file

end AppendToTextFile

end SourceRecipes
