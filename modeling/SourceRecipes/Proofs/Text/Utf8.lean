import SourceRecipes.Text.Hex

/-!
# UTF-8 bytes of texts

A text is determined by its bytes, and every row of bytes below `128` is the bytes of a text: the one with these
code points.
-/

namespace SourceRecipes.Text

theorem utf8_injective : Function.Injective utf8 := by
  intro s t h
  simp only [utf8, String.toUTF8_eq_toByteArray] at h
  exact String.toByteArray_inj.mp (ByteArray.ext (Array.toList_inj.mp h))

theorem utf8_ofList (text : List Char) : utf8 (String.ofList text) = text.flatMap String.utf8EncodeChar := by
  simp [utf8, List.utf8Encode, List.data_toByteArray]

theorem utf8_eq_flatMap (text : String) : utf8 text = text.toList.flatMap String.utf8EncodeChar := by
  rw [← utf8_ofList, String.ofList_toList]

def ofCodePoints (bytes : List UInt8) : String :=
  String.ofList (bytes.map fun byte => Char.ofNat byte.toNat)

theorem utf8EncodeChar_ofNat : ∀ n < 128, String.utf8EncodeChar (Char.ofNat n) = [UInt8.ofNat n] := by
  decide +kernel

theorem utf8_ofCodePoints {bytes : List UInt8} (h : ∀ byte ∈ bytes, byte.toNat < 128) :
    utf8 (ofCodePoints bytes) = bytes := by
  rw [ofCodePoints, utf8_ofList]
  induction bytes with
  | nil => rfl
  | cons byte rest ih =>
      simp only [List.mem_cons, forall_eq_or_imp] at h
      rw [List.map_cons, List.flatMap_cons, utf8EncodeChar_ofNat _ h.1, ih h.2]
      simp

/-! ### Texts of one byte a character -/

theorem toNat_ofNat_toNat (byte : UInt8) : (Char.ofNat byte.toNat).toNat = byte.toNat := by
  have hlt := byte.toNat_lt
  have hvalid : byte.toNat.isValidChar := Or.inl (by omega)
  rw [Char.ofNat, dif_pos hvalid]
  rfl

theorem utf8_eq_map {text : String} (h : ∀ c ∈ text.toList, c.toNat < 128) :
    utf8 text = text.toList.map fun c => UInt8.ofNat c.toNat := by
  have hcharacter : ∀ c ∈ text.toList, String.utf8EncodeChar c = [UInt8.ofNat c.toNat] := by
    intro c hc
    have hbytes := utf8EncodeChar_ofNat c.toNat (h c hc)
    rwa [Char.ofNat_toNat] at hbytes
  rw [utf8_eq_flatMap, List.map_eq_flatMap, List.flatMap_def, List.flatMap_def, List.map_congr_left hcharacter]

theorem toList_eq_map {text : String} (h : ∀ byte ∈ utf8 text, byte.toNat < 128) :
    text.toList = (utf8 text).map fun byte => Char.ofNat byte.toNat := by
  have hsame : text = ofCodePoints (utf8 text) := (utf8_injective (utf8_ofCodePoints h)).symm
  simpa only [ofCodePoints, String.toList_ofList] using congrArg String.toList hsame

theorem forall_utf8_lt_iff {text : String} :
    (∀ byte ∈ utf8 text, byte.toNat < 128) ↔ ∀ c ∈ text.toList, c.toNat < 128 := by
  constructor
  · intro h c hc
    rw [toList_eq_map h] at hc
    obtain ⟨byte, hbyte, rfl⟩ := List.mem_map.mp hc
    rw [toNat_ofNat_toNat]
    exact h byte hbyte
  · intro h byte hbyte
    rw [utf8_eq_map h] at hbyte
    obtain ⟨c, hc, rfl⟩ := List.mem_map.mp hbyte
    have hlt := h c hc
    rw [UInt8.toNat_ofNat']
    omega

end SourceRecipes.Text
