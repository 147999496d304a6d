import SourceRecipes.Json.Number
import SourceRecipes.Json.StringLiteral

/-!
# Skipping JSON values

A value that nobody asks for is skipped. Only its form counts then: it may nest to any depth, numbers may be out of
range and strings may hold half a surrogate pair.
-/

namespace SourceRecipes.Json

/-- What a skipped item stands in. -/
inductive Frame where
  | array
  | object
  deriving DecidableEq

def Frame.closing : Frame → Char
  | array => ']'
  | object => '}'

/-- Closes the frames that end after a complete item. The answer holds those that go on after a comma; with none left
the outermost value is complete. -/
def closeFrames : List Frame → List Char → Except Error (List Frame × List Char)
  | [], text => .ok ([], text)
  | _ :: _, [] => .error .truncated
  | frame :: outer, c :: rest =>
    if isBlank c then closeFrames (frame :: outer) rest
    else if c = ',' then .ok (frame :: outer, rest)
    else if c = frame.closing then closeFrames outer rest
    else .error .malformed

/-- Skips the key and the colon before an item of an object. -/
def skipKey : Frame → List Char → Except Error (List Char)
  | .array, text => .ok text
  | .object, text =>
    match dropBlanks text with
    | [] => .error .truncated
    | '"' :: rest => do
      match dropBlanks (← skipString .plain rest) with
      | [] => .error .truncated
      | ':' :: rest => return rest
      | _ => .error .malformed
    | _ => .error .malformed

/-- Skips the items that are to come in these frames; `fuel` bounds their number. -/
def skipItems : (fuel : Nat) → List Frame → List Char → Except Error (List Char)
  | 0, _, _ => .error .malformed
  | fuel + 1, frames, text => do
    let opened (frame : Frame) (rest : List Char) : Except Error (List Char) := do
      match dropBlanks rest with
      | [] => .error .truncated
      | c :: after =>
        if c = frame.closing then
          match ← closeFrames frames after with
          | ([], rest) => return rest
          | (inner :: outer, rest) => skipItems fuel (inner :: outer) (← skipKey inner rest)
        else skipItems fuel (frame :: frames) (← skipKey frame (c :: after))
    let complete (rest : List Char) : Except Error (List Char) := do
      match ← closeFrames frames rest with
      | ([], rest) => return rest
      | (inner :: outer, rest) => skipItems fuel (inner :: outer) (← skipKey inner rest)
    match dropBlanks text with
    | [] => .error .truncated
    | 'n' :: rest => complete (← dropWord "ull".toList rest)
    | 't' :: rest => complete (← dropWord "rue".toList rest)
    | 'f' :: rest => complete (← dropWord "alse".toList rest)
    | '"' :: rest => complete (← skipString .plain rest)
    | '[' :: rest => opened .array rest
    | '{' :: rest => opened .object rest
    | c :: rest =>
      if c = '-' || Text.isDigit c then complete (← skipNumber (c :: rest)) else .error .malformed

/-- Skips a value. Every item takes up a character at least. -/
def skipValue (text : List Char) : Except Error (List Char) :=
  skipItems (text.length + 1) [] text

end SourceRecipes.Json
