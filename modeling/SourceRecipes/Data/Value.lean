import SourceRecipes.Decimal.Shortest

/-!
# Data values

What JSON and YAML texts say when nothing is known of its meaning. Whole numbers lie between `-2 ^ 63` and `2 ^ 64`; a
number beyond them, or one with a point or an exponent, is a double. In JSON all keys are strings.
-/

namespace SourceRecipes

inductive Value where
  | null
  | bool (b : Bool)
  | integer (n : Int)
  | real (x : Double)
  | string (text : String)
  | sequence (items : List Value)
  | mapping (entries : List (Value × Value))

namespace Value

instance : Inhabited Value := ⟨null⟩

def object (members : List (String × Value)) : Value :=
  mapping (members.map fun (key, value) => (string key, value))

/-- Null for nothing. -/
def ofOption {α : Type} (value : α → Value) : Option α → Value
  | none => null
  | some a => value a

/-- The value of the last entry with a key. -/
def get? (v : Value) (key : String) : Option Value :=
  match v with
  | mapping entries =>
    entries.reverse.findSome? fun (k, value) =>
      match k with
      | string text => if text = key then some value else none
      | _ => none
  | _ => none

end Value

end SourceRecipes
