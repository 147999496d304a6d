import SourceRecipes.Text.Digits
import SourceRecipes.Yaml.Basic
import SourceRecipes.Yaml.Token

/-!
# Scalars of YAML

A scalar that runs over several lines is folded: a single line break in it stands for a space, and of several breaks the
first is dropped. Blanks around the breaks do not count. This holds of plain and quoted scalars; block
scalars, which are set off by indentation, keep their lines or fold them by a rule of their own.
-/

namespace SourceRecipes.Yaml

/-- What was read since the last character that counts. The characters are kept in reverse order. -/
inductive Pause where
  | blanks (chars : List Char)
  /-- Breaks: the first one, unless it was escaped, and those that came after it. -/
  | breaks (first : Option Char) (more : List Char)

namespace Pause

def none : Pause := blanks []

def push (pause : Pause) (c : Char) : Pause :=
  match pause with
  | blanks chars => if isBreak c then breaks (some c) [] else blanks (c :: chars)
  | breaks first more => if isBreak c then breaks first (c :: more) else breaks first more

/-- What the pause contributes to the text, in reverse order. -/
def folded : Pause → List Char
  | blanks chars => chars
  | breaks (some '\n') [] => [' ']
  | breaks (some '\n') more => more
  | breaks first more => more ++ first.toList

def isEmpty : Pause → Bool
  | blanks chars => chars.isEmpty
  | breaks _ _ => false

def hasBreak : Pause → Bool
  | blanks _ => false
  | breaks _ _ => true

end Pause

/-- A scalar as it was read, with the spots after it. -/
structure Lexeme where
  text : String
  rest : List Spot

/-- The lexeme of a text that was collected in reverse order. -/
def Lexeme.ofReverse (text : List Char) (rest : List Spot) : Lexeme :=
  ⟨String.ofList text.reverse, rest⟩

/-! ### Plain scalars -/

/-- Whether a character ends a plain scalar inside brackets. -/
def isFlowMark (c : Char) : Bool :=
  c == ',' || c == '[' || c == ']' || c == '\x7b' || c == '\x7d'

/-- Whether a plain scalar that paused ends before what comes next. -/
def endsAfterPause (inFlow : Bool) (margin : Nat) (spots : List Spot) : Bool :=
  (!inFlow && (here spots).column < margin) || atDocumentMark spots || front spots == '#'

/-- Whether a plain scalar may start with a character, seeing the next one. -/
def startsPlain (inFlow : Bool) (c next : Char) : Bool :=
  (!isGap c && !"-?:,[]\x7b\x7d#&*!|>'\"%@`".toList.contains c) || (c == '-' && !isBlank next)
    || (!inFlow && (c == '?' || c == ':') && !isGap next)

/-- Reads a plain scalar; also tells whether a line ended after it. Lines outside the margin do not belong to it. -/
def plainScalar (inFlow : Bool) (margin : Nat) : (text : List Char) → Pause → List Spot → Except Error (Lexeme × Bool)
  | text, pause, [] => .ok (.ofReverse text [], pause.hasBreak)
  | text, pause, s :: rest =>
    if isBlank s.char || isBreak s.char then
      if s.char == '\t' && pause.hasBreak && s.column < margin then .error .malformed
      else plainScalar inFlow margin text (pause.push s.char) rest
    else if isEnd s.char || (!pause.isEmpty && endsAfterPause inFlow margin (s :: rest)) then
      .ok (.ofReverse text (s :: rest), pause.hasBreak)
    else if inFlow && s.char == ':' && (front rest == '?' || isFlowMark (front rest)) then .error .malformed
    else if (s.char == ':' && isGap (front rest)) || (inFlow && isFlowMark s.char) then
      .ok (.ofReverse text (s :: rest), pause.hasBreak)
    else plainScalar inFlow margin (s.char :: (pause.folded ++ text)) .none rest

/-! ### Quoted scalars -/

/-- Reads a scalar in single quotes after the first of them; a quote inside is written twice. -/
def singleQuoted : (text : List Char) → Pause → List Spot → Except Error Lexeme
  | text, pause, s :: t :: rest =>
    if isBlank s.char || isBreak s.char then singleQuoted text (pause.push s.char) (t :: rest)
    else if isEnd s.char || atDocumentMark (s :: t :: rest) then .error .malformed
    else if s.char == '\'' then
      if t.char == '\'' then singleQuoted ('\'' :: (pause.folded ++ text)) .none rest
      else .ok (.ofReverse (pause.folded ++ text) (t :: rest))
    else singleQuoted (s.char :: (pause.folded ++ text)) .none (t :: rest)
  | _, _, _ => .error .malformed

def escapedChar? : Char → Option Char
  | '0' => some '\x00'
  | 'a' => some '\x07'
  | 'b' => some '\x08'
  | 't' => some '\t'
  | '\t' => some '\t'
  | 'n' => some '\n'
  | 'v' => some '\x0b'
  | 'f' => some '\x0c'
  | 'r' => some '\r'
  | 'e' => some '\x1b'
  | ' ' => some ' '
  | '"' => some '"'
  | '/' => some '/'
  | '\\' => some '\\'
  | 'N' => some '\x85'
  | '_' => some '\xa0'
  | 'L' => some '\u2028'
  | 'P' => some '\u2029'
  | _ => none

/-- How many hexadecimal digits follow a letter after a backslash. -/
def escapeDigits? : Char → Option Nat
  | 'x' => some 2
  | 'u' => some 4
  | 'U' => some 8
  | _ => none

def charOf? (n : Nat) : Option Char :=
  if n.isValidChar then some (Char.ofNat n) else none

/-- Reads a scalar in double quotes after the first of them. Inside an escape with digits, `code` tells how many digits are
to come and what the ones before them stand for. -/
def doubleQuoted : (text : List Char) → Pause → (code : Option (Nat × Nat)) → List Spot → Except Error Lexeme
  | text, pause, some (left, value), s :: rest =>
    match Text.hexValue? s.char with
    | none => .error .malformed
    | some digit =>
      if left > 1 then doubleQuoted text pause (some (left - 1, 16 * value + digit)) rest
      else
        match charOf? (16 * value + digit) with
        | none => .error .malformed
        | some c => doubleQuoted (c :: text) .none none rest
  | text, pause, none, s :: t :: rest =>
    if isBlank s.char || isBreak s.char then doubleQuoted text (pause.push s.char) none (t :: rest)
    else if isEnd s.char || atDocumentMark (s :: t :: rest) then .error .malformed
    else if s.char == '"' then .ok (.ofReverse (pause.folded ++ text) (t :: rest))
    else if s.char == '\\' then
      if isBreak t.char then doubleQuoted (pause.folded ++ text) (.breaks none []) none rest
      else
        match escapedChar? t.char, escapeDigits? t.char with
        | some c, _ => doubleQuoted (c :: (pause.folded ++ text)) .none none rest
        | none, some count => doubleQuoted (pause.folded ++ text) .none (some (count, 0)) rest
        | none, none => .error .malformed
    else doubleQuoted (s.char :: (pause.folded ++ text)) .none none (t :: rest)
  | _, _, _, _ => .error .malformed

/-! ### Block scalars -/

/-- What becomes of the line breaks at the end of a block scalar. -/
inductive Chomping where
  | strip
  | clip
  | keep

def chomping? (c : Char) : Option Chomping :=
  if c == '-' then some .strip else if c == '+' then some .keep else none

/-- The number of columns that a digit asks for; there is no asking for none. -/
def indentation? (spots : List Spot) : Except Error (Option Nat × List Spot) :=
  match Text.digitValue? 10 (front spots) with
  | none => .ok (none, spots)
  | some 0 => .error .malformed
  | some columns => .ok (some columns, spots.tail)

/-- Reads the line that begins a block scalar, after its sign: chomping and indentation in either order. -/
def blockHeader (spots : List Spot) : Except Error (Chomping × Option Nat × List Spot) :=
  match chomping? (front spots) with
  | some chomping => do
    let (columns, rest) ← indentation? spots.tail
    return (chomping, columns, ← dropLineEnd rest)
  | none => do
    let (columns, rest) ← indentation? spots
    match columns, chomping? (front rest) with
    | some _, some chomping => return (chomping, columns, ← dropLineEnd rest.tail)
    | _, _ => return (.clip, columns, ← dropLineEnd rest)

/-- The lines of a block scalar read so far, all characters in reverse order. -/
structure Lines where
  text : List Char := []
  /-- The break at the end of the last line. -/
  lastBreak : Option Char := none
  /-- The breaks of the empty lines since then. -/
  emptyLines : List Char := []
  /-- Whether the last line began with a blank. -/
  wasIndented : Bool := false

namespace Lines

/-- Begins another line with a character. A folded scalar joins lines that do not begin with a blank. -/
def begin (lines : Lines) (isFolded : Bool) (c : Char) : Lines :=
  let joint :=
    if isFolded && lines.lastBreak == some '\n' && !lines.wasIndented && !isBlank c then
      if lines.emptyLines.isEmpty then [' '] else []
    else lines.lastBreak.toList
  { text := c :: (lines.emptyLines ++ joint ++ lines.text), wasIndented := isBlank c }

def finish (lines : Lines) (chomping : Chomping) (rest : List Spot) : Lexeme :=
  match chomping with
  | .strip => .ofReverse lines.text rest
  | .clip => .ofReverse (lines.lastBreak.toList ++ lines.text) rest
  | .keep => .ofReverse (lines.emptyLines ++ lines.lastBreak.toList ++ lines.text) rest

end Lines

/-- Reads the lines of a block scalar. While the indentation is not known it is zero, and `widest` is the greatest one met on
an empty line. -/
def blockLines (isFolded : Bool) (margin : Nat) :
    (inLine : Bool) → (indent widest : Nat) → Lines → List Spot → Except Error (Lines × List Spot)
  | _, _, _, lines, [] => .ok (lines, [])
  | true, indent, widest, lines, s :: rest =>
    if isEnd s.char then .ok (lines, s :: rest)
    else if isBreak s.char then blockLines isFolded margin false indent widest { lines with lastBreak := some s.char } rest
    else blockLines isFolded margin true indent widest { lines with text := s.char :: lines.text } rest
  | false, indent, widest, lines, s :: rest =>
    let isOutside := indent == 0 || s.column < indent
    if isOutside && s.char == ' ' then blockLines isFolded margin false indent widest lines rest
    else if isOutside && s.char == '\t' then .error .malformed
    else
      let widest := max widest s.column
      if isBreak s.char then
        blockLines isFolded margin false indent widest { lines with emptyLines := s.char :: lines.emptyLines } rest
      else
        let indent := if indent == 0 then max widest (max margin 1) else indent
        if s.column == indent && !isEnd s.char then
          blockLines isFolded margin true indent widest (lines.begin isFolded s.char) rest
        else .ok (lines, s :: rest)

def blockScalar (isFolded : Bool) (margin : Nat) (spots : List Spot) : Except Error Lexeme := do
  let (chomping, columns, rest) ← blockHeader spots
  let indent := match columns with
    | none => 0
    | some columns => (margin - 1) + columns
  let (lines, rest) ← blockLines isFolded margin false indent 0 {} rest
  return lines.finish chomping rest

end SourceRecipes.Yaml
