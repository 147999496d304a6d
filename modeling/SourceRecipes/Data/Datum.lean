import SourceRecipes.Data.Fault

/-!
# Values of any type

Whoever asks for a value without knowing its type is handed over what is there by its type, and has answers for some types
only. A value of a type without an answer is a fault. Whole numbers come in four types, each number in the first that
holds it.
-/

namespace SourceRecipes

inductive IntegerType where
  | unsigned64
  | signed64
  | unsigned128
  | signed128
  deriving DecidableEq, Repr

/-- The type that a whole number is handed over in, if it fits any. -/
def IntegerType.of? (n : Int) : Option IntegerType :=
  if 0 ≤ n then
    if n < 0x10000000000000000 then some unsigned64
    else if n < 0x100000000000000000000000000000000 then some unsigned128
    else none
  else if -0x8000000000000000 ≤ n then some signed64
  else if -0x80000000000000000000000000000000 ≤ n then some signed128
  else none

/-- What is handed over of a value that has no items. -/
inductive Datum where
  | null
  | boolean (b : Bool)
  | integer (type : IntegerType) (n : Int)
  | real (x : Double)
  | string (text : String)

namespace Datum

def found : Datum → Found
  | null => .null
  | boolean b => .bool b
  | integer _ n => .integer n
  | real x => .real x
  | string text => .string text

/-- The value that is kept of a datum. None is kept of a whole number that fits no 64 bits. -/
def value? : Datum → Option Value
  | null => some .null
  | boolean b => some (.bool b)
  | integer .unsigned64 n | integer .signed64 n => some (.integer n)
  | integer .unsigned128 _ | integer .signed128 _ => none
  | real x => some (.real x)
  | string text => some (.string text)

end Datum

/-- Answers to values by their types, `none` where there is no answer. The items of a sequence or mapping do not matter. -/
structure Handler (α : Type) where
  expected : String
  scalar : Datum → Option α
  sequence : Option α
  mapping : Option α

namespace Handler

variable {α : Type}

def orFault (h : Handler α) (found : Found) : Option α → Except Fault α
  | some answer => .ok answer
  | none => .error (.invalidType found (.described h.expected))

/-- The answer to a value that was read before. -/
def onValue (h : Handler α) : Value → Except Fault α
  | .null => h.orFault .null (h.scalar .null)
  | .bool b => h.orFault (.bool b) (h.scalar (.boolean b))
  | .integer n => h.orFault (.integer n) (h.scalar (.integer (if n < 0 then .signed64 else .unsigned64) n))
  | .real x => h.orFault (.real x) (h.scalar (.real x))
  | .string text => h.orFault (.string text) (h.scalar (.string text))
  | .sequence _ => h.orFault .sequence h.sequence
  | .mapping _ => h.orFault .mapping h.mapping

end Handler

end SourceRecipes
