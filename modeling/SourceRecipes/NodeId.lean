/-!
# Node identities

Every node of a tree and every file carries an identity: a number of 128 bits that it keeps through all edits.
As text it is written with 26 digits of the Crockford alphabet, most significant first, and read with letters of
either case. Fresh identities come from a supply that is handed through whatever creates nodes.
-/

namespace SourceRecipes

structure NodeId where
  value : Nat
  isLt : value < Nat.pow 2 128
  deriving DecidableEq

namespace NodeId

/-- The identity with the last 128 bits of a number. -/
def ofNat (n : Nat) : NodeId :=
  ⟨n % Nat.pow 2 128, Nat.mod_lt _ (by decide)⟩

/-- The digits from zero to thirty-one: no `I`, `L`, `O` or `U`. -/
def alphabet : List Char :=
  "0123456789ABCDEFGHJKMNPQRSTVWXYZ".toList

def digit (value : Nat) : Char :=
  alphabet.getD value '0'

/-- The value of a digit of either case. -/
def digitValue? (c : Char) : Option Nat :=
  alphabet.findIdx? fun digit => digit == c.toUpper

/-- The last `count` digits of a number to base thirty-two. -/
def digits (count n : Nat) : List Char :=
  match count with
  | 0 => []
  | count + 1 => digits count (n / 32) ++ [digit (n % 32)]

def text (id : NodeId) : String :=
  String.ofList (digits 26 id.value)

def number? (digits : List Char) : Option Nat :=
  digits.foldlM (fun n c => (digitValue? c).map (32 * n + ·)) 0

/-- The identity a text of 26 digits stands for; the two bits beyond 128 are dropped. -/
def parse? (text : String) : Option NodeId :=
  let digits := text.toList
  if digits.length = 26 then (number? digits).map ofNat else none

end NodeId

/-- A supply of fresh identities. -/
structure IdSupply where
  next : Nat
  deriving DecidableEq

def IdSupply.draw (supply : IdSupply) : NodeId × IdSupply :=
  (NodeId.ofNat supply.next, ⟨supply.next + 1⟩)

def IdSupply.fresh : StateM IdSupply NodeId :=
  draw

end SourceRecipes
