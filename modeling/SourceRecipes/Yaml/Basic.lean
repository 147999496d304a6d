import SourceRecipes.Data.Record

/-!
# YAML text

In YAML the place of a character matters as much as the character: how far a line is indented says what belongs together.
So a text is first turned into a row of spots, characters that know where they stand. Line breaks are already brought to
one form there, and the row ends with a spot of its own, so that the end of the text has a place too.
-/

namespace SourceRecipes.Yaml

/-- Why a text does not say what is asked of it. -/
inductive Error where
  | malformed
  | unknownAnchor (name : String)
  | severalDocuments
  /-- Sequences and mappings are nested too deeply. -/
  | tooDeep
  /-- Anchors are referred to too often for the size of the document. -/
  | tooManyReferences
  /-- A value has a tag that says nothing here, or one that it does not fit. -/
  | unusableTag
  /-- A whole number does not fit 64 bits. -/
  | wideInteger
  | fault (cause : Fault)

/-- A character and where it stands; lines and columns are counted from zero, and the index counts the octets of the
characters before it. -/
structure Spot where
  char : Char
  index : Nat
  line : Nat
  column : Nat
  deriving Repr

/-- May stand at the beginning of any line without being part of what the line says. -/
def byteOrderMark : Char := '\ufeff'

/-- Stands at the end of a text. It may not occur in one. -/
def endMark : Char := '\x00'

def isAllowed (c : Char) : Bool :=
  let n := c.toNat
  n == 0x9 || n == 0xa || n == 0xd || (0x20 ≤ n && n ≤ 0x7e) || n == 0x85 || (0xa0 ≤ n && n ≤ 0xd7ff)
    || (0xe000 ≤ n && n ≤ 0xfffd) || 0x10000 ≤ n

def isBlank (c : Char) : Bool :=
  c == ' ' || c == '\t'

def isBreak (c : Char) : Bool :=
  c == '\n' || c == '\r' || c == '\x85' || c == '\u2028' || c == '\u2029'

def isEnd (c : Char) : Bool :=
  c == endMark

def isGap (c : Char) : Bool :=
  isBlank c || isBreak c || isEnd c

/-- Whether a character may occur in the name of an anchor, a tag handle or a directive. -/
def isNameChar (c : Char) : Bool :=
  ('0' ≤ c && c ≤ '9') || ('A' ≤ c && c ≤ 'Z') || ('a' ≤ c && c ≤ 'z') || c == '_' || c == '-'

/-- The form in which a line break is kept: only the two separators of Unicode differ from a line feed. -/
def normalBreak (c : Char) : Char :=
  if c == '\u2028' || c == '\u2029' then c else '\n'

def place (index line column : Nat) : List Char → List Spot
  | [] => [⟨endMark, index, line, column⟩]
  | '\r' :: '\n' :: rest => ⟨'\n', index, line, column⟩ :: place (index + 2) (line + 1) 0 rest
  | c :: rest =>
    if isBreak c then ⟨normalBreak c, index, line, column⟩ :: place (index + c.utf8Size) (line + 1) 0 rest
    else ⟨c, index, line, column⟩ :: place (index + c.utf8Size) line (column + 1) rest

def spots (text : List Char) : List Spot :=
  place 0 0 0 text

def front : List Spot → Char
  | [] => endMark
  | s :: _ => s.char

def here : List Spot → Spot
  | [] => ⟨endMark, 0, 0, 0⟩
  | s :: _ => s

/-- Whether a line that begins or ends a document starts here. -/
def atDocumentMark : List Spot → Bool
  | a :: b :: c :: rest =>
    a.column == 0 && (a.char == '-' || a.char == '.') && b.char == a.char && c.char == a.char && isGap (front rest)
  | _ => false

/-- The characters of the spots at the front that have a property, and the other spots. -/
def spanChars (p : Char → Bool) : List Spot → List Char × List Spot
  | [] => ([], [])
  | s :: rest =>
    if p s.char then
      let (chars, rest) := spanChars p rest
      (s.char :: chars, rest)
    else ([], s :: rest)

def dropBlanks (spots : List Spot) : List Spot :=
  (spanChars isBlank spots).2

/-- Passes over blanks and a comment up to the end of the line, and over its break. -/
def dropLineEnd (spots : List Spot) : Except Error (List Spot) :=
  let afterBlanks := dropBlanks spots
  let afterComment :=
    if front afterBlanks == '#' then (spanChars (fun c => !isBreak c && !isEnd c) afterBlanks).2 else afterBlanks
  if isBreak (front afterComment) then .ok afterComment.tail
  else if isEnd (front afterComment) then .ok afterComment
  else .error .malformed

end SourceRecipes.Yaml
