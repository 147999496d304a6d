import SourceRecipes.Json.Skip

/-!
# Reading JSON text

A reader takes what it is asked for off the front of a text. It is told how deep arrays and objects may still nest. A
record is read from an object, or from an array of its fields in order; a value that is asked for as something else
than it is makes a fault, once it has been read far enough to be named.
-/

namespace SourceRecipes.Json

/-- A reader, given one more than the number of arrays and objects that may still be entered. -/
abbrev Reader := ReaderT Nat (StateT (List Char) (Except Error))

namespace Reader

variable {α δ σ : Type}

def raise (error : Error) : Reader α :=
  fun _ _ => .error error

def ofExcept (x : Except Fault α) : Reader α :=
  match x with
  | .ok a => pure a
  | .error fault => raise (.fault fault)

/-- Runs a function that takes something off the front of the text. -/
def take (f : List Char → Except Error (α × List Char)) : Reader α :=
  fun _ text => f text

/-- Runs a function that drops something from the front of the text. -/
def drop (f : List Char → Except Error (List Char)) : Reader Unit :=
  fun _ text => (f text).map ((), ·)

/-- The next character that is not blank. -/
def peek : Reader (Option Char) :=
  fun _ text =>
    let text := dropBlanks text
    .ok (text.head?, text)

def advance : Reader Unit :=
  fun _ text => .ok ((), text.tail)

/-- Reads inside an array or object, from after its opening bracket. -/
def nested (inside : Reader α) : Reader α :=
  fun depth text =>
    match depth with
    | 0 | 1 => .error .malformed
    | depth + 1 => inside depth text.tail

/-- How many characters are left, a bound for the items still to come. -/
def remaining : Reader Nat :=
  fun _ text => .ok (text.length, text)

/-- Whether another element follows in an array; passes over the comma before it. -/
def hasElement (first : Bool) : Reader Bool := do
  match ← peek with
  | none => raise .truncated
  | some ']' => return false
  | some ',' =>
    if first then return true
    else
      advance
      match ← peek with
      | none => raise .truncated
      | some ']' => raise .malformed
      | some _ => return true
  | some _ => if first then return true else raise .malformed

/-- Whether another member follows in an object; passes over the comma before it and the quote that opens its key. -/
def hasMember (first : Bool) : Reader Bool := do
  match ← peek with
  | none => raise .truncated
  | some '}' => return false
  | some ',' =>
    if first then raise .malformed
    else
      advance
      match ← peek with
      | none => raise .truncated
      | some '"' =>
        advance
        return true
      | some _ => raise .malformed
  | some '"' =>
    if first then
      advance
      return true
    else raise .malformed
  | some _ => raise .malformed

/-- Passes over the bracket that closes an array or an object. -/
def close (bracket : Char) : Reader Unit := do
  match ← peek with
  | none => raise .truncated
  | some c => if c = bracket then advance else raise .malformed

/-- Takes the elements of an array one by one into a state; `fuel` bounds their number. -/
def elements (step : σ → Reader σ) : (fuel : Nat) → (first : Bool) → σ → Reader σ
  | 0, _, _ => raise .malformed
  | fuel + 1, first, s => do
    if ← hasElement first then elements step fuel false (← step s) else return s

/-- Takes the members of an object one by one into a state; `step` finds itself after the key. -/
def members (step : String → σ → Reader σ) : (fuel : Nat) → (first : Bool) → σ → Reader σ
  | 0, _, _ => raise .malformed
  | fuel + 1, first, s => do
    if ← hasMember first then
      let key ← take (readString .plain)
      members step fuel false (← step (String.ofList key) s)
    else return s

def colon : Reader Unit := do
  match ← peek with
  | none => raise .truncated
  | some ':' => advance
  | some _ => raise .malformed

def array (step : σ → Reader σ) (start : σ) : Reader σ := do
  let result ← nested do elements step ((← remaining) + 1) true start
  close ']'
  return result

def object (step : String → σ → Reader σ) (start : σ) : Reader σ := do
  let result ← nested do members step ((← remaining) + 1) true start
  close '}'
  return result

/-- Reads a value that is neither array nor object, beginning with a given character. -/
def scalar (c : Char) : Reader Value := do
  match c with
  | 'n' =>
    drop (dropWord "null".toList)
    return .null
  | 't' =>
    drop (dropWord "true".toList)
    return .bool true
  | 'f' =>
    drop (dropWord "false".toList)
    return .bool false
  | '"' =>
    advance
    return .string (String.ofList (← take (readString .plain)))
  | c =>
    if c = '-' || Text.isDigit c then return (← take readNumber).value else raise .malformed

/-- Makes the fault that a value of another type than expected was found. -/
def unexpected (c : Char) (expected : Expected) : Reader α := do
  match c with
  | '[' => raise (.fault (.invalidType .sequence expected))
  | '{' => raise (.fault (.invalidType .mapping expected))
  | c => raise (.fault (.invalidType (← scalar c).found expected))

/-- The first character of the value at hand. -/
def start : Reader Char := do
  match ← peek with
  | none => raise .truncated
  | some c => return c

def string : Reader String := do
  match ← start with
  | '"' =>
    advance
    return String.ofList (← take (readString .plain))
  | c => unexpected c .string

/-- Reads a value as it is, entering at most so many arrays and objects. -/
def valueWithin : (levels : Nat) → Reader Value
  | 0 => do
    match ← start with
    | '[' | '{' => raise .malformed
    | c => scalar c
  | levels + 1 => do
    match ← start with
    | '[' =>
      let items ← array (fun items => do return (← valueWithin levels) :: items) []
      return .sequence items.reverse
    | '{' =>
      let entries ← object
        (fun key entries => do
          colon
          return (.string key, ← valueWithin levels) :: entries) []
      return .mapping entries.reverse
    | c => scalar c

def value : Reader Value := do
  valueWithin ((← read) - 1)

def skip : Reader Unit :=
  drop skipValue

/-- Takes a value of any type. What is inside an array or object is skipped, unless there is no answer to it. -/
def any (handler : Handler α) : Reader α := do
  match ← start with
  | '[' =>
    let answer ← nested do
      let answer ← ofExcept (handler.orFault .sequence handler.sequence)
      elements (fun _ => skip) ((← remaining) + 1) true ()
      return answer
    close ']'
    return answer
  | '{' =>
    let answer ← nested do
      let answer ← ofExcept (handler.orFault .mapping handler.mapping)
      members (fun _ _ => do colon; skip) ((← remaining) + 1) true ()
      return answer
    close '}'
    return answer
  | c => ofExcept (handler.onValue (← scalar c))

/-- Reads the fields of a record in order from the elements of an array; `index` is the place of the first one. -/
def positional (name : String) (total : Nat) :
    (index : Nat) → (first : Bool) → List (Field Reader δ) → δ → Reader δ
  | _, _, [], record => return record
  | index, first, f :: fields, record => do
    if ← hasElement first then positional name total (index + 1) false fields (← f.read record)
    else if f.required then raise (.fault (.tooFewElements index name total))
    else positional name total (index + 1) first fields record

def member (r : Record Reader δ) (key : String) (draft : Record.Draft δ) : Reader (Record.Draft δ) := do
  match r.fields.findIdx? fun f => f.key == key with
  | none =>
    colon
    skip
    return draft
  | some index =>
    match r.fields[index]? with
    | none => return draft
    | some f =>
      if draft.seen.contains index then raise (.fault (.duplicateField f.key))
      else
        colon
        return ⟨← f.read draft.record, index :: draft.seen⟩

def record (r : Record Reader δ) : Reader δ := do
  match ← start with
  | '[' =>
    let result ← nested (positional r.name r.fields.length 0 true r.fields r.blank)
    close ']'
    return result
  | '{' =>
    let result ← nested do
      let draft ← members (member r) ((← remaining) + 1) true r.begin
      ofExcept (r.finish draft)
    close '}'
    return result
  | c => unexpected c (.record r.name)

/-- Reads a number that fits 32 bits without a sign. -/
def word : Reader UInt32 := do
  let c ← start
  if c = '-' || Text.isDigit c then
    match ← take readNumber with
    | .integer n => ofExcept (FromValue.wordOfInt n)
    | .real x => raise (.fault (.invalidType (.real x) .word))
  else unexpected c .word

def boolean : Reader Bool := do
  match ← start with
  | 't' =>
    drop (dropWord "true".toList)
    return true
  | 'f' =>
    drop (dropWord "false".toList)
    return false
  | c => unexpected c .boolean

def optional (read : Reader α) : Reader (Option α) := do
  match ← peek with
  | some 'n' =>
    drop (dropWord "null".toList)
    return none
  | _ => return some (← read)

def list (read : Reader α) : Reader (List α) := do
  match ← start with
  | '[' => return (← array (fun items => do return (← read) :: items) []).reverse
  | c => unexpected c .sequence

instance : DataSource Reader where
  fail fault := raise (.fault fault)
  string := string
  boolean := boolean
  word := word
  optional := optional
  any := any
  list := list
  record := record

/-! ### Records that say their kind -/

def kindName {τ : Type} (kind : String → Except Fault τ) : Reader τ := do
  match ← start with
  | '"' =>
    advance
    ofExcept (kind (String.ofList (← take (readString .plain))))
  | c => unexpected c .variantName

/-- Takes the member after a key: the kind, or an entry of what is kept. -/
def taggedMember {τ : Type} (tag : String) (kind : String → Except Fault τ) (key : String)
    (kept : Option τ × List (Value × Value)) : Reader (Option τ × List (Value × Value)) := do
  if key = tag then
    if kept.1.isSome then raise (.fault (.duplicateField tag))
    else
      colon
      return (some (← kindName kind), kept.2)
  else
    colon
    return (kept.1, (.string key, ← value) :: kept.2)

/-- Reads the kind of a record and what else it holds, from an object or from an array that begins with the kind. -/
def kindAndRest {τ : Type} (name tag : String) (kind : String → Except Fault τ) : Reader (τ × Value) := do
  match ← start with
  | '[' =>
    let result ← nested do
      if ← hasElement true then
        let t ← kindName kind
        let items ← elements (fun items => do return (← value) :: items) ((← remaining) + 1) false []
        return (t, Value.sequence items.reverse)
      else raise (.fault (.missingField tag))
    close ']'
    return result
  | '{' =>
    let result ← nested do
      match ← members (taggedMember tag kind) ((← remaining) + 1) true (none, []) with
      | (none, _) => raise (.fault (.missingField tag))
      | (some t, entries) => return (t, Value.mapping entries.reverse)
    close '}'
    return result
  | c => unexpected c (.taggedRecord name)

instance : TaggedSource Reader where
  tagged name tag kind read := do
    let (t, rest) ← kindAndRest name tag kind
    ofExcept (read t rest)

end Reader

/-- How many arrays and objects may be open at once, and one more. -/
def depthLimit : Nat := 128

def read {α : Type} (reader : Reader α) (text : String) : Except Error α :=
  match reader depthLimit text.toList with
  | .error error => .error error
  | .ok (a, rest) => if (dropBlanks rest).isEmpty then .ok a else .error .malformed

def parse (text : String) : Except Error Value :=
  read Reader.value text

end SourceRecipes.Json
