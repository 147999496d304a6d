import SourceRecipes.Data.Datum
import SourceRecipes.Text.Digits
import SourceRecipes.Yaml.Basic
import SourceRecipes.Yaml.Token

/-!
# What scalars stand for

A plain scalar without a tag stands for null, a truth value, a number, or failing those for its own text. A tag of the
core schema says what to read a scalar as, however it is written. All other scalars stand for their texts.

Whole numbers may be written to the bases sixteen, eight and two. A row of digits that begins with a needless zero is no
number at all, and a zero with a minus sign is a double. Whole numbers that fit 64 bits are kept, larger ones that fit 128
bits are handed over but not kept, and beyond that they are doubles.
-/

namespace SourceRecipes.Yaml

/-! ### Texts of values -/

def isNullText (text : String) : Bool :=
  text == "null" || text == "Null" || text == "NULL" || text == "~"

def boolOf? (text : String) : Option Bool :=
  if text == "true" || text == "True" || text == "TRUE" then some true
  else if text == "false" || text == "False" || text == "FALSE" then some false
  else none

def dropPlus : List Char → List Char
  | '+' :: rest => rest
  | text => text

def dropSign : List Char → List Char
  | '+' :: rest => rest
  | '-' :: rest => rest
  | text => text

/-- Whether a text is a row of digits with a needless zero at its beginning. -/
def hasIdleZero (text : List Char) : Bool :=
  match dropSign text with
  | '0' :: c :: rest => (c :: rest).all Text.isDigit
  | _ => false

/-- The number that digits without a sign stand for, to the base that their beginning names. -/
def magnitude? : List Char → Option Nat
  | '0' :: 'x' :: rest => Text.number? 16 rest
  | '0' :: 'o' :: rest => Text.number? 8 rest
  | '0' :: 'b' :: rest => Text.number? 2 rest
  | text => if hasIdleZero text then none else Text.number? 10 text

/-- The whole number that a text stands for, whatever its size. -/
def integerOf? (text : String) : Option Int :=
  match text.toList with
  | '-' :: rest => (magnitude? rest).map fun n => -(n : Int)
  | text => (magnitude? (dropPlus text)).map Int.ofNat

def exponentOf? : List Char → Option Int
  | [] => some 0
  | c :: rest =>
    if c == 'e' || c == 'E' then
      match rest with
      | '-' :: digits => (Text.number? 10 digits).map fun n => -(n : Int)
      | digits => (Text.number? 10 (dropPlus digits)).map Int.ofNat
    else none

/-- The double nearest to what a decimal number without a sign stands for. -/
def decimalOf? (negative : Bool) (text : List Char) : Option Double :=
  let whole := text.takeWhile Text.isDigit
  let afterWhole := text.dropWhile Text.isDigit
  let afterPoint := match afterWhole with
    | '.' :: rest => rest
    | _ => []
  let hasPoint := afterWhole.head? == some '.'
  let fraction := afterPoint.takeWhile Text.isDigit
  let rest := if hasPoint then afterPoint.dropWhile Text.isDigit else afterWhole
  match Text.number? 10 (whole ++ fraction), exponentOf? rest with
  | some digits, some exponent => some (Double.ofDecimal negative digits (exponent - fraction.length))
  | _, _ => none

def realOf? (text : String) : Option Double :=
  if text == ".nan" || text == ".NaN" || text == ".NAN" then some .notANumber
  else
    let (negative, digits) := match text.toList with
      | '-' :: rest => (true, rest)
      | text => (false, dropPlus text)
    if digits == ".inf".toList || digits == ".Inf".toList || digits == ".INF".toList then some (.infinite negative)
    else (decimalOf? negative digits).filter Double.isFinite

/-- The whole number that a text stands for, as it is handed over. There is none if the number is so large that only a double
comes close to it. -/
def integerDatum? (text : String) : Option Datum :=
  match integerOf? text with
  | none => none
  | some n =>
    if n = 0 && text.front == '-' then some (.real (Double.zero true))
    else (IntegerType.of? n).map fun type => .integer type n

def plainDatum (text : String) : Datum :=
  if text.isEmpty || isNullText text then .null
  else
    match boolOf? text with
    | some b => .boolean b
    | none =>
      match integerDatum? text with
      | some datum => datum
      | none =>
        match if hasIdleZero text.toList then none else realOf? text with
        | some x => .real x
        | none => .string text

/-! ### Tags -/

/-- The tags of the core schema that say more than that a node is a text, a sequence or a mapping. -/
def nullTag : String := "tag:yaml.org,2002:null"

def boolTag : String := "tag:yaml.org,2002:bool"

def intTag : String := "tag:yaml.org,2002:int"

def floatTag : String := "tag:yaml.org,2002:float"

/-- Whether a tag is one that only the writer of a text can explain. Its octets must be characters. -/
def isLocalTag (tag : String) : Bool :=
  tag.startsWith "!" && (String.fromUTF8? ⟨(tag.toList.map fun c => UInt8.ofNat c.toNat).toArray⟩).isSome

/-- Fails at a node with a tag that says nothing here. -/
def refuseLocalTag : Option String → Except Error Unit
  | none => .ok ()
  | some tag => if isLocalTag tag then .error .unusableTag else .ok ()

def orUnusable {α : Type} : Option α → Except Error α
  | some a => .ok a
  | none => .error .unusableTag

def scalarDatum (tag : Option String) (style : ScalarStyle) (text : String) : Except Error Datum := do
  refuseLocalTag tag
  let isPlain := style == .plain
  match tag with
  | none => return if isPlain then plainDatum text else .string text
  | some tag =>
    if tag == boolTag then return .boolean (← orUnusable (boolOf? text))
    else if tag == intTag then orUnusable (integerDatum? text)
    else if tag == floatTag then return .real (← orUnusable (realOf? text))
    else if tag == nullTag then if isNullText text then return .null else .error .unusableTag
    else return if tag.startsWith "!" && isPlain then plainDatum text else .string text

/-! ### Answers -/

/-- Why a scalar is refused that there is no answer to. -/
def refusal (expected : String) : Datum → Error
  | .integer .unsigned128 _ | .integer .signed128 _ => .wideInteger
  | datum => .fault (.invalidType datum.found (.described expected))

def answered {α : Type} (datum : Datum) (expected : String) : Option α → Except Error α
  | some answer => .ok answer
  | none => .error (refusal expected datum)

def scalarValue (tag : Option String) (style : ScalarStyle) (text : String) : Except Error Value := do
  let datum ← scalarDatum tag style text
  answered datum "any value" datum.value?

/-- Whether a scalar may be read as what a tag stands for: a plain one always, a literal one if it has the tag. -/
def readsAs (expected : String) (tag : Option String) (style : ScalarStyle) : Bool :=
  style == .plain || (style == .literal && tag == some expected)

end SourceRecipes.Yaml
