import SourceRecipes.Text.Hex

/-!
# Fingerprint streams

The fingerprint of a content is the digest of a stream of bytes. A text enters the stream as a field: its length in bytes as
eight bytes, least significant first, and then its bytes. Single marker bytes tell the parts of a tree apart.
-/

namespace SourceRecipes

abbrev ByteStream := List UInt8

namespace ByteStream

/-- The last `count` bytes of a number, least significant first. -/
def littleEndian : (count n : Nat) → List UInt8
  | 0, _ => []
  | count + 1, n => UInt8.ofNat n :: littleEndian count (n / 256)

def field (text : String) : ByteStream :=
  let bytes := Text.utf8 text
  littleEndian 8 bytes.length ++ bytes

/-- A marker, given as a character below `128`. -/
def marker (c : Char) : ByteStream :=
  [UInt8.ofNat c.toNat]

end ByteStream

end SourceRecipes
