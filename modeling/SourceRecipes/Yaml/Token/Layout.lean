import SourceRecipes.Yaml.Token.Name
import SourceRecipes.Yaml.Token.Scalar

/-!
# From a text to tokens

Outside brackets the layout of a text says what its structure is. A deeper column than any before opens a sequence or
mapping, a lesser one closes those that lie beyond it. That a node is a key shows only at the colon after it, so the place
where a key may have begun is kept, and marked when the colon comes. Such a key must lie on one line and within 1024
octets; where only a key can stand, not finding the colon is an error.

Columns are compared with a margin, which is one more than the column at which the innermost sequence or mapping began, and
zero if there is none.
-/

namespace SourceRecipes.Yaml

/-- A token of the text, and what was found later to begin with it: a key, and perhaps the mapping of which it is the first. -/
structure Slot where
  token : Token
  startsKey : Bool := false
  startsMapping : Bool := false

def Slot.tokens (slot : Slot) : List Token :=
  (if slot.startsMapping then [.mappingStart] else []) ++ (if slot.startsKey then [.key] else []) ++ [slot.token]

/-- Where a key may have begun: at which token and where in the text. -/
structure KeyStart where
  slot : Nat
  spot : Spot
  /-- Whether nothing but a key can stand there. -/
  isRequired : Bool

/-- How many octets a key that is not announced by a question mark may take. -/
def keyLimit : Nat := 1024

/-- Where the reading of a text stands. -/
structure Layout where
  rest : List Spot
  slots : Array Slot := #[]
  margin : Nat := 0
  /-- The margins of the sequences and mappings around the innermost one. -/
  outerMargins : List Nat := []
  /-- The place where a key may have begun at the present depth of brackets. -/
  key : Option KeyStart := none
  /-- Such places outside the brackets that are open, one for each pair. -/
  outerKeys : List (Option KeyStart) := []
  /-- Whether a key may begin here. -/
  keyAllowed : Bool := true

namespace Layout

def inFlow (l : Layout) : Bool :=
  !l.outerKeys.isEmpty

def emit (l : Layout) (token : Token) : Layout :=
  { l with slots := l.slots.push { token } }

def advance (l : Layout) (token : Token) : Layout :=
  { l.emit token with rest := l.rest.tail }

/-! ### Indentation -/

/-- Closes sequences and mappings until the margin is within a limit. -/
def closeBeyond (limit : Nat) : (outer : List Nat) → Layout → Layout
  | [], l => l
  | margin :: outer, l =>
    if l.margin > limit then closeBeyond limit outer { l.emit .blockEnd with margin, outerMargins := outer } else l

/-- Closes what lies beyond a limit; inside brackets indentation says nothing. -/
def closeIndents (l : Layout) (limit : Nat) : Layout :=
  if l.inFlow then l else closeBeyond limit l.outerMargins l

/-- Whether a sequence or mapping that begins at a column is a new one. -/
def opensAt (l : Layout) (column : Nat) : Bool :=
  !l.inFlow && l.margin ≤ column

/-- Moves the margin to a new sequence or mapping at a column. -/
def indentTo (l : Layout) (column : Nat) : Layout :=
  { l with margin := column + 1, outerMargins := l.margin :: l.outerMargins }

/-- Opens a sequence or mapping at a column unless one is open there. -/
def openIndent (l : Layout) (column : Nat) (token : Token) : Layout :=
  if l.opensAt column then (l.emit token).indentTo column else l

/-! ### Keys -/

def dropKey (l : Layout) : Except Error Layout :=
  match l.key with
  | some key => if key.isRequired then .error .malformed else .ok { l with key := none }
  | none => .ok l

/-- Notes that a key may begin with the next token. -/
def saveKey (l : Layout) : Except Error Layout := do
  if l.keyAllowed then
    let spot := here l.rest
    let l ← l.dropKey
    return { l with key := some ⟨l.slots.size, spot, !l.inFlow && l.margin == spot.column + 1⟩ }
  else return l

/-- A possible key after the text was read up to a spot. -/
def keyAt (spot : Spot) : Option KeyStart → Except Error (Option KeyStart)
  | none => .ok none
  | some key =>
    if key.spot.line < spot.line || key.spot.index + keyLimit < spot.index then
      if key.isRequired then .error .malformed else .ok none
    else .ok (some key)

def dropLongKeys (l : Layout) : Except Error Layout := do
  let spot := here l.rest
  return { l with key := ← keyAt spot l.key, outerKeys := ← l.outerKeys.mapM (keyAt spot) }

/-- Marks the token where a key began, and opens the mapping of the key if it is the first. -/
def markKey (l : Layout) (key : KeyStart) : Layout :=
  let opens := l.opensAt key.spot.column
  let l := if opens then l.indentTo key.spot.column else l
  { l with slots := l.slots.modify key.slot fun slot => { slot with startsKey := true, startsMapping := opens } }

/-! ### Tokens -/

/-- Passes over blanks, comments and line breaks; also tells whether a key may begin after them. Outside brackets a tab may
not stand where a key could begin. A byte order mark at the beginning of a line is passed over too, but it takes a column. -/
def dropGaps (inFlow : Bool) : (keyAllowed inComment : Bool) → List Spot → Bool × List Spot
  | keyAllowed, _, [] => (keyAllowed, [])
  | keyAllowed, inComment, s :: rest =>
    if isBreak s.char then dropGaps inFlow (keyAllowed || !inFlow) false rest
    else if inComment then
      if isEnd s.char then (keyAllowed, s :: rest) else dropGaps inFlow keyAllowed true rest
    else if s.char == ' ' || (s.char == '\t' && (inFlow || !keyAllowed)) || (s.char == byteOrderMark && s.column == 0) then
      dropGaps inFlow keyAllowed false rest
    else if s.char == '#' then dropGaps inFlow keyAllowed true rest
    else (keyAllowed, s :: rest)

/-- Takes a token that stands on lines of its own, outside all sequences and mappings. -/
def topLevel (l : Layout) (token : Token) (rest : List Spot) : Except Error Layout := do
  let l ← (l.closeIndents 0).dropKey
  return { l.emit token with keyAllowed := false, rest }

def openFlow (l : Layout) (token : Token) : Except Error Layout := do
  let l ← l.saveKey
  return { l.advance token with key := none, outerKeys := l.key :: l.outerKeys, keyAllowed := true }

def closeFlow (l : Layout) (token : Token) : Except Error Layout := do
  let l ← l.dropKey
  return { l.advance token with
    key := l.outerKeys.head?.getD l.key, outerKeys := l.outerKeys.tail, keyAllowed := false }

def comma (l : Layout) : Except Error Layout := do
  let l ← l.dropKey
  return { l.advance .comma with keyAllowed := true }

/-- Fails where no sequence or mapping may begin. -/
def requireStart (l : Layout) : Except Error Unit :=
  if !l.inFlow && !l.keyAllowed then .error .malformed else .ok ()

def entry (l : Layout) : Except Error Layout := do
  l.requireStart
  let l ← (l.openIndent (here l.rest).column .sequenceStart).dropKey
  return { l.advance .entry with keyAllowed := true }

/-- Takes the question mark before a key. -/
def explicitKey (l : Layout) : Except Error Layout := do
  l.requireStart
  let l ← (l.openIndent (here l.rest).column .mappingStart).dropKey
  return { l.advance .key with keyAllowed := !l.inFlow }

/-- Takes the colon before a value. -/
def value (l : Layout) : Except Error Layout := do
  match l.key with
  | some key => return { (l.markKey key).advance .value with key := none, keyAllowed := false }
  | none =>
    l.requireStart
    let l := l.openIndent (here l.rest).column .mappingStart
    return { l.advance .value with keyAllowed := !l.inFlow }

def keyLike (l : Layout) (token : Token) (rest : List Spot) (keyAllowed : Bool := false) : Except Error Layout := do
  let l ← l.saveKey
  return { l.emit token with keyAllowed, rest }

def block (l : Layout) (style : ScalarStyle) : Except Error Layout := do
  let l ← l.dropKey
  let lexeme ← blockScalar (style == .folded) l.margin l.rest.tail
  return { l.emit (.scalar style lexeme.text) with keyAllowed := true, rest := lexeme.rest }

def word (l : Layout) : Except Error Layout := do
  let next := front l.rest.tail
  match front l.rest with
  | '*' =>
    let (name, rest) ← anchorName l.rest.tail
    l.keyLike (.reference name) rest
  | '&' =>
    let (name, rest) ← anchorName l.rest.tail
    l.keyLike (.anchor name) rest
  | '!' =>
    let (token, rest) ← tagToken l.inFlow l.rest.tail
    l.keyLike token rest
  | '\'' =>
    let lexeme ← singleQuoted [] .none l.rest.tail
    l.keyLike (.scalar .singleQuoted lexeme.text) lexeme.rest
  | '"' =>
    let lexeme ← doubleQuoted [] .none none l.rest.tail
    l.keyLike (.scalar .doubleQuoted lexeme.text) lexeme.rest
  | c =>
    if c == '|' && !l.inFlow then l.block .literal
    else if c == '>' && !l.inFlow then l.block .folded
    else if startsPlain l.inFlow c next then
      let (lexeme, lineEnded) ← plainScalar l.inFlow l.margin [] .none l.rest
      l.keyLike (.scalar .plain lexeme.text) lexeme.rest lineEnded
    else .error .malformed

/-- Takes the next token; `none` at the end of the text. -/
def step? (l : Layout) : Except Error (Option Layout) := do
  let (keyAllowed, rest) := dropGaps l.inFlow l.keyAllowed false l.rest
  let l ← dropLongKeys { l with keyAllowed, rest }
  let column := (here rest).column
  let l := l.closeIndents (column + 1)
  let c := front rest
  if isEnd c then return none
  else if column == 0 && c == '%' then
    let (token, rest) ← directive rest.tail
    return some (← l.topLevel token rest)
  else if atDocumentMark rest then
    return some (← l.topLevel (if c == '-' then .documentStart else .documentEnd) (rest.drop 3))
  else
    let endsHere := isGap (front rest.tail)
    let result ← match c with
      | '[' => l.openFlow .openBracket
      | '\x7b' => l.openFlow .openBrace
      | ']' => l.closeFlow .closeBracket
      | '\x7d' => l.closeFlow .closeBrace
      | ',' => l.comma
      | '-' => if endsHere then l.entry else l.word
      | '?' => if l.inFlow || endsHere then l.explicitKey else l.word
      | ':' => if l.inFlow || endsHere then l.value else l.word
      | _ => l.word
    return some result

def finish (l : Layout) : Except Error Layout :=
  (l.closeIndents 0).dropKey

/-- Takes all tokens; every one of them is at least a character, so `fuel` bounds their number. -/
def run : (fuel : Nat) → Layout → Except Error Layout
  | 0, _ => .error .malformed
  | fuel + 1, l => do
    match ← l.step? with
    | some l => run fuel l
    | none => l.finish

end Layout

def tokens (text : String) : Except Error (List Token) := do
  if !text.toList.all isAllowed then .error .malformed
  else
    let start := spots text.toList
    let l ← Layout.run (start.length + 1) { rest := start }
    return l.slots.toList.flatMap Slot.tokens

end SourceRecipes.Yaml
