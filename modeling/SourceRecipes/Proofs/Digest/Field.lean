import Mathlib.Algebra.Group.Nat.Defs
import SourceRecipes.Digest.ByteStream
import SourceRecipes.Proofs.Text.Utf8

/-!
# Reading fields back

The eight length bytes of a field say where it ends, so a field at the front of a stream can be cut off in one way only.
This holds of texts whose length fits eight bytes; all texts that fit into a memory do.
-/

namespace SourceRecipes.ByteStream

/-- The length of a text fits the length bytes of a field. -/
def Fits (text : String) : Prop :=
  (Text.utf8 text).length < 2 ^ 64

instance (text : String) : Decidable (Fits text) :=
  inferInstanceAs (Decidable (_ < _))

@[simp]
theorem length_littleEndian (count n : Nat) : (littleEndian count n).length = count := by
  induction count generalizing n with
  | zero => rfl
  | succ count ih => simp [littleEndian, ih]

theorem littleEndian_inj {count a b : Nat} (ha : a < 256 ^ count) (hb : b < 256 ^ count)
    (h : littleEndian count a = littleEndian count b) : a = b := by
  induction count generalizing a b with
  | zero =>
      simp only [Nat.pow_zero] at ha hb
      omega
  | succ count ih =>
      rw [Nat.pow_succ] at ha hb
      simp only [littleEndian, List.cons.injEq] at h
      have hlow : a % 256 = b % 256 := by
        simpa using congrArg UInt8.toNat h.1
      have hhigh : a / 256 = b / 256 := ih (by omega) (by omega) h.2
      omega

theorem field_eq_cons (text : String) :
    field text = UInt8.ofNat (Text.utf8 text).length ::
      (littleEndian 7 ((Text.utf8 text).length / 256) ++ Text.utf8 text) := rfl

theorem field_append_inj {s t : String} {x y : ByteStream} (hs : Fits s) (ht : Fits t)
    (h : field s ++ x = field t ++ y) : s = t ∧ x = y := by
  simp only [field, List.append_assoc] at h
  obtain ⟨hlength, hrest⟩ := List.append_inj h (by simp)
  have hs' : (Text.utf8 s).length < 256 ^ 8 := hs
  have ht' : (Text.utf8 t).length < 256 ^ 8 := ht
  have hbytes : (Text.utf8 s).length = (Text.utf8 t).length := littleEndian_inj hs' ht' hlength
  obtain ⟨htext, htail⟩ := List.append_inj hrest hbytes
  exact ⟨Text.utf8_injective htext, htail⟩

end SourceRecipes.ByteStream
