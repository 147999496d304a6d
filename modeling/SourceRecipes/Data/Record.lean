import SourceRecipes.Data.Datum

/-!
# Records and where they are read from

A record is described once, by its fields in order, and can be read from any source of data: from JSON text, from YAML
nodes and from values that were read before. A source is a monad in which "the value at hand" can be read as this or that.

A record may be given as a mapping, where fields that are not known are passed over, or as a sequence of its fields
in order. A field that is not required keeps its value from the blank record when it is absent.
-/

namespace SourceRecipes

/-- A field of a record: `read` takes the value at hand into the record. -/
structure Field (m : Type → Type) (δ : Type) where
  key : String
  required : Bool
  read : δ → m δ

/-- The layout of a record, with `blank` as what is known of it before anything is read. -/
structure Record (m : Type → Type) (δ : Type) where
  name : String
  blank : δ
  fields : List (Field m δ)

/-- A source of data. -/
class DataSource (m : Type → Type) where
  fail : {α : Type} → Fault → m α
  string : m String
  boolean : m Bool
  word : m UInt32
  /-- Nothing for a null, else what `read` makes of the value. -/
  optional : {α : Type} → (read : m α) → m (Option α)
  /-- Takes a value of any type, and passes over its items. -/
  any : {α : Type} → Handler α → m α
  list : {α : Type} → (read : m α) → m (List α)
  record : {δ : Type} → Record m δ → m δ

/-- A source of records that say under a key of their own which kind of record they are. -/
class TaggedSource (m : Type → Type) where
  /-- Reads the kind where it stands, keeps the rest as a value and then reads that. -/
  tagged : {τ α : Type} → (name key : String) → (kind : String → Except Fault τ) →
    (read : τ → Value → Except Fault α) → m α

namespace Record

variable {m : Type → Type} {δ : Type}

/-- A record of which some fields have been read, with the places of those. -/
structure Draft (δ : Type) where
  record : δ
  seen : List Nat

def begin (r : Record m δ) : Draft δ :=
  ⟨r.blank, []⟩

def indexOf? (r : Record m δ) (key : String) : Option Nat :=
  r.fields.findIdx? fun f => f.key == key

/-- The first required field from a place on that has not been seen. -/
def firstMissing (seen : List Nat) : (index : Nat) → List (Field m δ) → Option String
  | _, [] => none
  | index, f :: rest => if f.required && !seen.contains index then some f.key else firstMissing seen (index + 1) rest

def finish (r : Record m δ) (draft : Draft δ) : Except Fault δ :=
  match firstMissing draft.seen 0 r.fields with
  | some key => .error (.missingField key)
  | none => .ok draft.record

end Record

/-! ### Values as a source -/

/-- Reading from a value that was read before. -/
abbrev FromValue := ReaderT Value (Except Fault)

namespace FromValue

def wordOfInt (n : Int) : Except Fault UInt32 :=
  if 0 ≤ n ∧ n < 0x100000000 then .ok (UInt32.ofNat n.toNat) else .error (.outOfRange (.integer n) .word)

variable {δ : Type}

/-- Reads a record from the items of a sequence; `index` is the place of the first field. -/
def positional (name : String) (total : Nat) : (index : Nat) → List (Field FromValue δ) → List Value → δ → Except Fault δ
  | _, [], [], record => .ok record
  | index, [], items, _ => .error (.tooManyElements (index + items.length) index)
  | index, f :: fields, [], record =>
    if f.required then .error (.tooFewElements index name total) else positional name total (index + 1) fields [] record
  | index, f :: fields, item :: items, record =>
    match f.read record item with
    | .ok record => positional name total (index + 1) fields items record
    | .error fault => .error fault

/-- The place of the field that a key names: by its text or, as a number, by its place. -/
def fieldIndex? (r : Record FromValue δ) : Value → Except Fault (Option Nat)
  | .string text => .ok (r.indexOf? text)
  | .integer n =>
    if n < 0 then .error (.invalidType (.integer n) .fieldName)
    else .ok (if n.toNat < r.fields.length then some n.toNat else none)
  | key => .error (.invalidType key.found .fieldName)

def named (r : Record FromValue δ) : List (Value × Value) → Record.Draft δ → Except Fault δ
  | [], draft => r.finish draft
  | (key, value) :: rest, draft =>
    match fieldIndex? r key with
    | .error fault => .error fault
    | .ok none => named r rest draft
    | .ok (some index) =>
      match r.fields[index]? with
      | none => named r rest draft
      | some f =>
        if draft.seen.contains index then .error (.duplicateField f.key)
        else
          match f.read draft.record value with
          | .error fault => .error fault
          | .ok record => named r rest ⟨record, index :: draft.seen⟩

instance : DataSource FromValue where
  fail fault := fun _ => .error fault
  string := fun
    | .string text => .ok text
    | v => .error (.invalidType v.found .string)
  boolean := fun
    | .bool b => .ok b
    | v => .error (.invalidType v.found .boolean)
  word := fun
    | .integer n => wordOfInt n
    | v => .error (.invalidType v.found .word)
  optional read := fun
    | .null => .ok none
    | v => (read v).map some
  any handler := handler.onValue
  list read := fun
    | .sequence items => items.mapM read
    | v => .error (.invalidType v.found .sequence)
  record r := fun
    | .sequence items => positional r.name r.fields.length 0 r.fields items r.blank
    | .mapping entries => named r entries r.begin
    | v => .error (.invalidType v.found (.record r.name))

end FromValue

end SourceRecipes
