import Mathlib.Data.List.Basic
import SourceRecipes.Proofs.Digest.Reading

/-!
# Blanks that are read as an attribute

A field of blanks whose length leaves the code of `a` modulo `256` can hold an attribute: its own length begins with the
marker, goes on with the length of the first text of the attribute, and the blanks themselves hold everything else.
Whatever the length, there are blanks of that length which do so, and the stream of a tag that ends in them is the stream
of a tag with one attribute more.
-/

namespace SourceRecipes

open ByteStream

theorem littleEndian_add (low high n : Nat) :
    littleEndian (low + high) n = littleEndian low n ++ littleEndian high (n / 256 ^ low) := by
  induction low generalizing n with
  | zero => simp [littleEndian]
  | succ low ih =>
      rw [Nat.succ_add, littleEndian, littleEndian, ih, Nat.div_div_eq_div_mul, ← Nat.pow_succ',
        List.cons_append]

/-- Every number is the sum of three whose bytes are all below `128`, two of which are equal. -/
theorem exists_small_bytes (count n : Nat) :
    ∃ a b, a + b + b = n % 256 ^ count ∧ (∀ byte ∈ littleEndian count a, byte.toNat < 128) ∧
      ∀ byte ∈ littleEndian count b, byte.toNat < 128 := by
  induction count generalizing n with
  | zero => exact ⟨0, 0, by simp [Nat.mod_one], by simp [littleEndian], by simp [littleEndian]⟩
  | succ count ih =>
      obtain ⟨a, b, hsum, ha, hb⟩ := ih (n / 256)
      refine ⟨n % 128 + 256 * a, n % 256 / 128 * 64 + 256 * b, ?_, ?_, ?_⟩
      · have hsplit : n % 256 ^ (count + 1) = n % 256 + 256 * (n / 256 % 256 ^ count) := by
          rw [Nat.pow_succ', Nat.mod_mul]
        rw [hsplit, ← hsum]
        omega
      · have hdiv : (n % 128 + 256 * a) / 256 = a := by omega
        simp only [littleEndian, hdiv, List.mem_cons, forall_eq_or_imp]
        refine ⟨?_, ha⟩
        simp only [UInt8.toNat_ofNat']
        omega
      · have hdiv : (n % 256 / 128 * 64 + 256 * b) / 256 = b := by omega
        simp only [littleEndian, hdiv, List.mem_cons, forall_eq_or_imp]
        refine ⟨?_, hb⟩
        simp only [UInt8.toNat_ofNat']
        omega

/-- The blanks that stand for an attribute and an empty field after it. -/
def Attribute.asDelimiter (a : Attribute) : String :=
  Text.ofCodePoints ((a.stream ++ field "").drop 8)

theorem Attribute.field_asDelimiter {a : Attribute}
    (hlength : (a.stream ++ field "").length = 105 + 256 * (Text.utf8 a.leading).length)
    (hsmall : ∀ byte ∈ (a.stream ++ field "").drop 8, byte.toNat < 128) :
    field a.asDelimiter = a.stream ++ field "" := by
  have hbytes : Text.utf8 a.asDelimiter = (a.stream ++ field "").drop 8 := Text.utf8_ofCodePoints hsmall
  have hcount : (Text.utf8 a.asDelimiter).length = 97 + 256 * (Text.utf8 a.leading).length := by
    rw [hbytes, List.length_drop, hlength]
    omega
  have htake : (a.stream ++ field "").take 8 = littleEndian 8 (Text.utf8 a.asDelimiter).length := by
    have hseven : littleEndian 8 (Text.utf8 a.leading).length =
        littleEndian 7 (Text.utf8 a.leading).length ++ littleEndian 1 ((Text.utf8 a.leading).length / 256 ^ 7) :=
      littleEndian_add 7 1 _
    have hdiv : (97 + 256 * (Text.utf8 a.leading).length) / 256 = (Text.utf8 a.leading).length := by omega
    have hmod : UInt8.ofNat (97 + 256 * (Text.utf8 a.leading).length) = 97 := by
      apply UInt8.toNat_inj.mp
      rw [UInt8.toNat_ofNat', Nat.add_mul_mod_self_left]
      rfl
    rw [hcount, littleEndian, hdiv, hmod]
    simp only [stream, field, hseven, List.append_assoc, marker_append, List.cons_append, List.take_succ_cons]
    rw [List.take_left' (by simp)]
    rfl
  have hfield : field a.asDelimiter = littleEndian 8 (Text.utf8 a.asDelimiter).length ++ Text.utf8 a.asDelimiter := rfl
  rw [hfield, ← htake, hbytes, List.take_append_drop]

/-! ### Blanks of every length -/

def Text.row (count : Nat) (byte : UInt8) : String :=
  Text.ofCodePoints (List.replicate count byte)

theorem Text.utf8_row (count : Nat) {byte : UInt8} (h : byte.toNat < 128) :
    Text.utf8 (Text.row count byte) = List.replicate count byte :=
  Text.utf8_ofCodePoints fun _ hmem => (List.eq_of_mem_replicate hmem).symm ▸ h

def Attribute.ofLengths (leading key blanks : Nat) : Attribute :=
  ⟨.blank, Text.row leading 32, Text.row key 120, Text.row blanks 32, ⟨.blank, Text.row blanks 32, .none, ""⟩⟩

theorem Attribute.stream_ofLengths (leading key blanks : Nat) :
    (ofLengths leading key blanks).stream ++ field "" =
      97 :: (littleEndian 8 leading ++ (List.replicate leading 32 ++ (littleEndian 8 key ++
        (List.replicate key 120 ++ (littleEndian 8 blanks ++ (List.replicate blanks 32 ++
          (littleEndian 8 blanks ++ (List.replicate blanks 32 ++ List.replicate 24 0)))))))) := by
  have hblank : (32 : UInt8).toNat < 128 := by decide
  have hkey : (120 : UInt8).toNat < 128 := by decide
  have hempty : field Quote.none.text ++ (field "" ++ field "") = List.replicate 24 0 := by decide
  simp only [stream, ofLengths, field, Text.utf8_row _ hblank, Text.utf8_row _ hkey, List.length_replicate,
    List.append_assoc, marker_append, List.cons_append] at hempty ⊢
  rw [hempty]
  rfl

theorem Attribute.length_stream_ofLengths (leading key blanks : Nat) :
    ((ofLengths leading key blanks).stream ++ field "").length = 57 + leading + (key + blanks + blanks) := by
  simp only [stream_ofLengths, List.length_cons, List.length_append, length_littleEndian, List.length_replicate]
  omega

theorem Attribute.small_stream_ofLengths {leading key blanks : Nat} (hleading : leading < 256 ^ 7)
    (hkey : ∀ byte ∈ littleEndian 8 key, byte.toNat < 128)
    (hblanks : ∀ byte ∈ littleEndian 8 blanks, byte.toNat < 128) :
    ∀ byte ∈ ((ofLengths leading key blanks).stream ++ field "").drop 8, byte.toNat < 128 := by
  have hrow : ∀ (count : Nat) {byte : UInt8}, byte.toNat < 128 →
      ∀ b ∈ List.replicate count byte, b.toNat < 128 := by
    intro count byte hbyte b hb
    rwa [List.eq_of_mem_replicate hb]
  have hseven : littleEndian 8 leading = littleEndian 7 leading ++ [0] := by
    rw [littleEndian_add 7 1, Nat.div_eq_of_lt hleading]
    rfl
  rw [stream_ofLengths, hseven, List.drop_succ_cons, List.append_assoc, List.drop_left' (by simp)]
  simp only [List.forall_mem_append, List.forall_mem_singleton]
  exact ⟨by decide, hrow _ (by decide), hkey, hrow _ (by decide), hblanks, hrow _ (by decide), hblanks,
    hrow _ (by decide), hrow _ (by decide)⟩

/-- For every length that leaves the code of `a` there are blanks of that length which stand for an attribute. -/
theorem exists_attribute_as_delimiter {n : Nat} (hn : n < 2 ^ 64) (hmod : n % 256 = 97) :
    ∃ a : Attribute, (∀ t ∈ a.texts, Fits t) ∧ (Text.utf8 a.asDelimiter).length = n ∧
      field a.asDelimiter = a.stream ++ field "" := by
  obtain ⟨key, blanks, hsum, hkey, hblanks⟩ := exists_small_bytes 8 (48 + 255 * (n / 256))
  have hsum' : key + blanks + blanks = 48 + 255 * (n / 256) := by
    rw [hsum, Nat.mod_eq_of_lt]
    omega
  have hlength : (Text.utf8 (Attribute.ofLengths (n / 256) key blanks).leading).length = n / 256 := by
    simp [Attribute.ofLengths, Text.utf8_row]
  have hfield : field (Attribute.ofLengths (n / 256) key blanks).asDelimiter =
      (Attribute.ofLengths (n / 256) key blanks).stream ++ field "" := by
    refine Attribute.field_asDelimiter ?_ (Attribute.small_stream_ofLengths (by omega) hkey hblanks)
    rw [Attribute.length_stream_ofLengths, hlength, hsum']
    omega
  refine ⟨Attribute.ofLengths (n / 256) key blanks, ?_, ?_, hfield⟩
  · have hblank : (32 : UInt8).toNat < 128 := by decide
    have hletter : (120 : UInt8).toNat < 128 := by decide
    simp only [Attribute.texts, Attribute.ofLengths, List.mem_cons, forall_eq_or_imp, List.not_mem_nil,
      false_implies, implies_true, and_true, Fits, Text.utf8_row _ hblank, Text.utf8_row _ hletter, List.length_replicate]
    refine ⟨by omega, by omega, by omega, by omega, by decide⟩
  · have htotal := congrArg List.length hfield
    rw [Attribute.length_stream_ofLengths, field, List.length_append, length_littleEndian] at htotal
    omega

end SourceRecipes
