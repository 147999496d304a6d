import SourceRecipes.Digest.Blake3
import SourceRecipes.Digest.ByteStream
import SourceRecipes.Text.Hex

/-!
# Content hashes

A content hash is a digest of 32 bytes. It is shown as 64 hexadecimal digits and ordered byte by byte.
-/

namespace SourceRecipes

structure ContentHash where
  bytes : List UInt8
  length_bytes : bytes.length = 32
  deriving DecidableEq

namespace ContentHash

/-- Why a text is no content hash. -/
inductive Error where
  | hex (cause : Text.Hex.Error)
  | invalidLength (actual : Nat)
  deriving DecidableEq, Repr

def Error.message : Error → String
  | .hex cause => s!"hex decode error: {cause.message}"
  | .invalidLength actual => s!"invalid hash length: expected 32, got {actual}"

def ofBytes (bytes : ByteStream) : ContentHash :=
  ⟨Blake3.hash bytes, Blake3.length_hash bytes⟩

/-- The hash of 32 zero bytes. -/
def zero : ContentHash :=
  ⟨List.replicate 32 0, by simp⟩

def text (h : ContentHash) : String :=
  Text.Hex.encode h.bytes

/-- The first eight bytes as text. -/
def short (h : ContentHash) : String :=
  Text.Hex.encode (h.bytes.take 8)

/-- The hash a text stands for. A text that is no row of digits is refused before one of the wrong length. -/
def parse (text : String) : Except Error ContentHash :=
  match Text.Hex.decode text with
  | .error cause => .error (.hex cause)
  | .ok bytes => if h : bytes.length = 32 then .ok ⟨bytes, h⟩ else .error (.invalidLength bytes.length)

/-- The order of rows of bytes, by the first byte that differs. -/
def compareBytes : List UInt8 → List UInt8 → Ordering
  | [], [] => .eq
  | [], _ :: _ => .lt
  | _ :: _, [] => .gt
  | a :: as, b :: bs => (compare a b).then (compareBytes as bs)

instance : Ord ContentHash where
  compare g h := compareBytes g.bytes h.bytes

end ContentHash

/-- A fingerprint in the making: the stream fed so far. -/
structure Fingerprinter where
  fed : ByteStream
  deriving DecidableEq

namespace Fingerprinter

/-- Begins with the kind of content as a field. -/
def new (kind : String) : Fingerprinter :=
  ⟨ByteStream.field kind⟩

def field (f : Fingerprinter) (text : String) : Fingerprinter :=
  ⟨f.fed ++ ByteStream.field text⟩

def marker (f : Fingerprinter) (byte : UInt8) : Fingerprinter :=
  ⟨f.fed ++ [byte]⟩

def finish (f : Fingerprinter) : ContentHash :=
  ContentHash.ofBytes f.fed

end Fingerprinter

end SourceRecipes
