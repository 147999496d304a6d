import SourceRecipes.Json.StringLiteral

/-!
# Writing JSON

Values are written without blanks, mappings with their entries in the order they have.
-/

namespace SourceRecipes.Value

open Json

def writeInteger (n : Int) : List Char :=
  if n < 0 then '-' :: Nat.toDigits 10 n.natAbs else Nat.toDigits 10 n.natAbs

/-- Doubles that are no numbers of JSON are written as null. -/
def writeReal (x : Double) : List Char :=
  if x.isFinite then x.text.toList else "null".toList

mutual

def write (v : Value) : List Char :=
  match v with
  | null => "null".toList
  | bool b => if b then "true".toList else "false".toList
  | integer n => writeInteger n
  | real x => writeReal x
  | string text => writeString text.toList
  | sequence items => '[' :: (writeItems items ++ [']'])
  | mapping entries => '\x7b' :: (writeEntries entries ++ ['\x7d'])
termination_by structural v

def writeItems (items : List Value) : List Char :=
  match items with
  | [] => []
  | [v] => write v
  | v :: rest => write v ++ ',' :: writeItems rest
termination_by structural items

def writeEntries (entries : List (Value × Value)) : List Char :=
  match entries with
  | [] => []
  | [e] => writeEntry e
  | e :: rest => writeEntry e ++ ',' :: writeEntries rest
termination_by structural entries

/-- An entry; a key that is no string is written as the string of its characters. -/
def writeEntry (entry : Value × Value) : List Char :=
  match entry with
  | (string key, v) => writeString key.toList ++ ':' :: write v
  | (key, v) => writeString (write key) ++ ':' :: write v
termination_by structural entry

end

def json (v : Value) : String :=
  String.ofList v.write

end SourceRecipes.Value
