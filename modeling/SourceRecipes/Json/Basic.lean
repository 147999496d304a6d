import SourceRecipes.Data.Record
import SourceRecipes.Text.Digits

/-!
# JSON text

JSON text is read in one pass, so of several things that are wrong with it the first one is reported: that the text ends
too soon, that it is malformed, or that it does not say what was asked for.
-/

namespace SourceRecipes.Json

inductive Error where
  | truncated
  | malformed
  | fault (cause : Fault)

/-- The characters that may stand between the parts of a JSON text. -/
def isBlank (c : Char) : Bool :=
  c == ' ' || c == '\n' || c == '\t' || c == '\r'

def dropBlanks (text : List Char) : List Char :=
  text.dropWhile isBlank

def dropWord : (word text : List Char) → Except Error (List Char)
  | [], text => .ok text
  | _ :: _, [] => .error .truncated
  | w :: word, c :: text => if c = w then dropWord word text else .error .malformed

end SourceRecipes.Json
