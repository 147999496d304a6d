import SourceRecipes.Text.Digits
import SourceRecipes.Text.Quoted

/-!
# Hexadecimal text

Bytes are written as two small hexadecimal digits each. Reading takes digits of either case and says what is
wrong with a text in a fixed order: an odd number of bytes first, then the first byte that is no digit.
-/

namespace SourceRecipes.Text

def utf8 (text : String) : List UInt8 :=
  text.toUTF8.data.toList

namespace Hex

/-- Why a text is not a row of bytes. -/
inductive Error where
  | oddLength
  | invalidCharacter (byte : UInt8) (position : Nat)
  deriving DecidableEq, Repr

/-- The offending byte is shown as the character with that code point. -/
def Error.message : Error → String
  | .oddLength => "Odd number of digits"
  | .invalidCharacter byte position =>
    s!"Invalid character {quotedSingle (Char.ofNat byte.toNat)} at position {position}"

/-- The value of a digit of either case, given as its byte. -/
def digitValue? (byte : UInt8) : Option Nat :=
  hexValue? (Char.ofNat byte.toNat)

/-- The two digits of a byte, high half first. -/
def byteDigits (byte : UInt8) : List Char :=
  [hexDigit (byte.toNat / 16), hexDigit (byte.toNat % 16)]

def encodeList (bytes : List UInt8) : List Char :=
  bytes.flatMap byteDigits

def encode (bytes : List UInt8) : String :=
  String.ofList (encodeList bytes)

/-- Reads pairs of digits; `position` is the place of the first byte in the whole text. -/
def decodePairs (position : Nat) : List UInt8 → Except Error (List UInt8)
  | high :: low :: rest =>
    match digitValue? high with
    | none => .error (.invalidCharacter high position)
    | some h =>
      match digitValue? low with
      | none => .error (.invalidCharacter low (position + 1))
      | some l => (decodePairs (position + 2) rest).map (UInt8.ofNat (16 * h + l) :: ·)
  | _ => .ok []

def decode (text : String) : Except Error (List UInt8) :=
  let bytes := utf8 text
  if bytes.length % 2 = 1 then .error .oddLength else decodePairs 0 bytes

end Hex

end SourceRecipes.Text
