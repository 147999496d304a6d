import SourceRecipes.Data.Value
import SourceRecipes.Path
import SourceRecipes.Text.Quoted

/-!
# Faults of shape

A well-formed text may still not say what is asked of it. A fault tells what was found and what was
expected in its place.
-/

namespace SourceRecipes

/-- What was found. -/
inductive Found where
  | null
  | bool (b : Bool)
  | integer (n : Int)
  | real (x : Double)
  | string (text : String)
  | sequence
  | mapping

def Found.message : Found → String
  | null => "null"
  | bool b => s!"boolean `{b}`"
  | integer n => s!"integer `{n}`"
  | real x => s!"floating point `{x.text}`"
  | string text => s!"string {Text.quoted text}"
  | sequence => "sequence"
  | mapping => "map"

def Value.found : Value → Found
  | null => .null
  | bool b => .bool b
  | integer n => .integer n
  | real x => .real x
  | string text => .string text
  | sequence _ => .sequence
  | mapping _ => .mapping

/-- What was expected. -/
inductive Expected where
  | string
  | boolean
  | word
  | sequence
  | fieldName
  | variantName
  | record (name : String)
  | taggedRecord (name : String)
  | described (text : String)

def Expected.message : Expected → String
  | string => "a string"
  | boolean => "a boolean"
  | word => "u32"
  | sequence => "a sequence"
  | fieldName => "field identifier"
  | variantName => "variant identifier"
  | record name => s!"struct {name}"
  | taggedRecord name => s!"internally tagged enum {name}"
  | described text => text

inductive Fault where
  | missingField (key : String)
  | duplicateField (key : String)
  | unknownVariant (name : String) (known : List String)
  | invalidType (found : Found) (expected : Expected)
  | outOfRange (found : Found) (expected : Expected)
  /-- A record was given as a sequence that ends before the required field at this place. -/
  | tooFewElements (present : Nat) (record : String) (fields : Nat)
  /-- A record was given as a sequence that goes on after its last field. -/
  | tooManyElements (present fields : Nat)
  | path (cause : PathError)
  | invalidNodeId

def alternatives : List String → String
  | [] => "there are no variants"
  | [one] => s!"`{one}`"
  | [one, other] => s!"`{one}` or `{other}`"
  | many => "one of " ++ ", ".intercalate (many.map fun name => s!"`{name}`")

def Fault.message : Fault → String
  | missingField key => s!"missing field `{key}`"
  | duplicateField key => s!"duplicate field `{key}`"
  | unknownVariant name known => s!"unknown variant `{name}`, expected {alternatives known}"
  | invalidType found expected => s!"invalid type: {found.message}, expected {expected.message}"
  | outOfRange found expected => s!"invalid value: {found.message}, expected {expected.message}"
  | tooFewElements present record fields =>
    s!"invalid length {present}, expected struct {record} with {fields} elements"
  | tooManyElements present fields => s!"invalid length {present}, expected {fields} elements in sequence"
  | path cause => cause.message
  | invalidNodeId => "invalid node id"

end SourceRecipes
