import SourceRecipes.Data.Record
import SourceRecipes.Text.Blank

/-!
# What to do with a file that is there already

The strategy is read leniently: case and blanks around it do not matter, and whatever is not understood means that the
file is left alone. So no value under this option can destroy a file by mistake, and none that JSON has can make a configuration
fail. In YAML some whole numbers do, because there is no answer to them.
-/

namespace SourceRecipes

inductive ExistingFileStrategy where
  /-- New content goes after the text that is there. -/
  | extend
  /-- New content takes the place of the text that is there. -/
  | replace
  /-- The file stays as it is. -/
  | leave
  deriving DecidableEq, Repr

namespace ExistingFileStrategy

instance : Inhabited ExistingFileStrategy := ⟨leave⟩

def text : ExistingFileStrategy → String
  | extend => "continue"
  | replace => "replace"
  | leave => "leave"

/-- Reads a strategy from its text; anything unknown is `leave`. -/
def ofText (raw : String) : ExistingFileStrategy :=
  let word := Text.asciiLower (Text.trim raw)
  if word = "continue" then extend else if word = "replace" then replace else leave

/-- What values of any type are read as. There is no answer to whole numbers that fit no 64 bits. -/
def handler : Handler ExistingFileStrategy where
  expected := "one of continue, replace, leave"
  scalar
    | .string text => some (ofText text)
    | .null | .boolean _ | .integer .unsigned64 _ | .integer .signed64 _ | .real _ => some leave
    | .integer .unsigned128 _ | .integer .signed128 _ => none
  sequence := some leave
  mapping := some leave

def read {m : Type → Type} [Monad m] [DataSource m] : m ExistingFileStrategy :=
  DataSource.any handler

end ExistingFileStrategy

end SourceRecipes
