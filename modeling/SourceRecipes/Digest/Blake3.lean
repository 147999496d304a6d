/-!
# The Blake3 digest

Blake3 cuts its input into chunks of 1024 bytes and these into blocks of 64. The blocks of a chunk are compressed
one after the other, and the chunks are the leaves of a binary tree whose left subtrees hold a power of two of chunks. The
digest is the first 32 bytes of the root. Words are 32 bits wide and little-endian.
-/

namespace SourceRecipes.Blake3

/-- Four words: a row of the state. -/
structure Row where
  w0 : UInt32
  w1 : UInt32
  w2 : UInt32
  w3 : UInt32

namespace Row

def zipWith (f : UInt32 → UInt32 → UInt32) (a b : Row) : Row :=
  ⟨f a.w0 b.w0, f a.w1 b.w1, f a.w2 b.w2, f a.w3 b.w3⟩

def map (f : UInt32 → UInt32) (a : Row) : Row :=
  ⟨f a.w0, f a.w1, f a.w2, f a.w3⟩

/-- The row moved one column to the left. -/
def turn (a : Row) : Row :=
  ⟨a.w1, a.w2, a.w3, a.w0⟩

def toList (a : Row) : List UInt32 :=
  [a.w0, a.w1, a.w2, a.w3]

end Row

/-- A chaining value: eight words. -/
structure Chain where
  low : Row
  high : Row

abbrev Words := Vector UInt32 16

/-- The four rows that a compression works on. -/
structure State where
  a : Row
  b : Row
  c : Row
  d : Row

def rotateRight (amount : UInt32) (w : UInt32) : UInt32 :=
  (w >>> amount) ||| (w <<< (32 - amount))

/-- The mixing of all four columns at once, each with two words of the message. -/
def mixColumns (s : State) (x y : Row) : State :=
  let a := (s.a.zipWith (· + ·) s.b).zipWith (· + ·) x
  let d := (s.d.zipWith (· ^^^ ·) a).map (rotateRight 16)
  let c := s.c.zipWith (· + ·) d
  let b := (s.b.zipWith (· ^^^ ·) c).map (rotateRight 12)
  let a := (a.zipWith (· + ·) b).zipWith (· + ·) y
  let d := (d.zipWith (· ^^^ ·) a).map (rotateRight 8)
  let c := c.zipWith (· + ·) d
  let b := (b.zipWith (· ^^^ ·) c).map (rotateRight 7)
  ⟨a, b, c, d⟩

/-- Moves the diagonals into the columns. -/
def State.slant (s : State) : State :=
  ⟨s.a, s.b.turn, s.c.turn.turn, s.d.turn.turn.turn⟩

/-- Moves the columns back into the diagonals. -/
def State.unslant (s : State) : State :=
  ⟨s.a, s.b.turn.turn.turn, s.c.turn.turn, s.d.turn⟩

/-- One round: the columns and then the diagonals. -/
def round (s : State) (m : Words) : State :=
  let s := mixColumns s ⟨m[0], m[2], m[4], m[6]⟩ ⟨m[1], m[3], m[5], m[7]⟩
  (mixColumns s.slant ⟨m[8], m[10], m[12], m[14]⟩ ⟨m[9], m[11], m[13], m[15]⟩).unslant

/-- The order in which the next round takes the words of the message. -/
def reorder (m : Words) : Words :=
  #v[m[2], m[6], m[3], m[10], m[7], m[0], m[4], m[13], m[1], m[11], m[12], m[5], m[9], m[14], m[15], m[8]]

def rounds : Nat → State → Words → State
  | 0, s, _ => s
  | n + 1, s, m => rounds n (round s m) (reorder m)

def startLow : Row := ⟨0x6a09e667, 0xbb67ae85, 0x3c6ef372, 0xa54ff53a⟩

def startHigh : Row := ⟨0x510e527f, 0x9b05688c, 0x1f83d9ab, 0x5be0cd19⟩

def start : Chain := ⟨startLow, startHigh⟩

def chunkStart : UInt32 := 1
def chunkEnd : UInt32 := 2
def parentNode : UInt32 := 4
def root : UInt32 := 8

/-- A compression that is still to be done: once as an inner node or once as the root. -/
structure Node where
  chain : Chain
  words : Words
  counter : UInt64
  length : UInt32
  flags : UInt32

def Node.compress (n : Node) (flags : UInt32) : Chain :=
  let s : State :=
    ⟨n.chain.low, n.chain.high, startLow, ⟨n.counter.toUInt32, (n.counter >>> 32).toUInt32, n.length, n.flags ||| flags⟩⟩
  let s := rounds 7 s n.words
  ⟨s.a.zipWith (· ^^^ ·) s.c, s.b.zipWith (· ^^^ ·) s.d⟩

def Node.inner (n : Node) : Chain :=
  n.compress 0

/-- The bytes of a word, least significant first. -/
def wordBytes (w : UInt32) : List UInt8 :=
  [w.toUInt8, (w >>> 8).toUInt8, (w >>> 16).toUInt8, (w >>> 24).toUInt8]

def Chain.bytes (c : Chain) : List UInt8 :=
  (c.low.toList ++ c.high.toList).flatMap wordBytes

theorem Chain.length_bytes (c : Chain) : c.bytes.length = 32 := rfl

/-- The word that begins at a byte; beyond the end of the input the bytes are zero. -/
def wordAt (input : Array UInt8) (stop position : Nat) : UInt32 :=
  let byte (i : Nat) : UInt32 := if i < stop then (input.getD i 0).toUInt32 else 0
  byte position ||| (byte (position + 1) <<< 8) ||| (byte (position + 2) <<< 16) ||| (byte (position + 3) <<< 24)

def block (input : Array UInt8) (stop position : Nat) : Words :=
  Vector.ofFn fun i => wordAt input stop (position + 4 * i.val)

/-- Compresses the blocks of a chunk but the last, of which `count` stand before it, and leaves that one to do. -/
def chunkFrom (input : Array UInt8) (stop : Nat) (counter : UInt64) :
    (count position : Nat) → Chain → (flags : UInt32) → Node
  | 0, position, chain, flags =>
    ⟨chain, block input stop position, counter, (stop - position).toUInt32, flags ||| chunkEnd⟩
  | count + 1, position, chain, flags =>
    let node : Node := ⟨chain, block input stop position, counter, 64, flags⟩
    chunkFrom input stop counter count (position + 64) node.inner 0

/-- The chunk of `length` bytes, at most 1024, that begins at `position`. -/
def chunk (input : Array UInt8) (position length : Nat) : Node :=
  chunkFrom input (position + length) (position / 1024).toUInt64 ((length - 1) / 64) position start chunkStart

def Chain.words (left right : Chain) : Words :=
  #v[left.low.w0, left.low.w1, left.low.w2, left.low.w3, left.high.w0, left.high.w1, left.high.w2, left.high.w3,
    right.low.w0, right.low.w1, right.low.w2, right.low.w3, right.high.w0, right.high.w1, right.high.w2, right.high.w3]

/-- How many bytes go into the left subtree over `length` bytes, which are more than one chunk. -/
def leftLength (length : Nat) : Nat :=
  1024 * Nat.pow 2 ((length - 1) / 1024).log2

theorem leftLength_lt {length : Nat} (h : 1024 < length) : leftLength length < length := by
  have hne : (length - 1) / 1024 ≠ 0 := by omega
  have hlog := Nat.log2_self_le hne
  rw [leftLength, Nat.pow_eq]
  omega

theorem leftLength_pos (length : Nat) : 0 < leftLength length := by
  have := Nat.two_pow_pos ((length - 1) / 1024).log2
  rw [leftLength, Nat.pow_eq]
  omega

/-- The tree over the `length` bytes that begin at `position`. -/
def tree (input : Array UInt8) (position length : Nat) : Node :=
  if _hlong : 1024 < length then
    let left := tree input position (leftLength length)
    let right := tree input (position + leftLength length) (length - leftLength length)
    ⟨start, Chain.words left.inner right.inner, 0, 64, parentNode⟩
  else chunk input position length
termination_by length
decreasing_by
  · exact leftLength_lt _hlong
  · have := leftLength_pos length
    omega

def hash (bytes : List UInt8) : List UInt8 :=
  let input := bytes.toArray
  ((tree input 0 input.size).compress root).bytes

theorem hash_of_length_le {bytes : List UInt8} (h : bytes.length ≤ 1024) :
    hash bytes = ((chunk bytes.toArray 0 bytes.length).compress root).bytes := by
  have hshort : ¬ 1024 < bytes.toArray.size := by
    rw [List.size_toArray]
    omega
  rw [hash, tree, dif_neg hshort, List.size_toArray]

theorem length_hash (bytes : List UInt8) : (hash bytes).length = 32 :=
  Chain.length_bytes _

end SourceRecipes.Blake3
