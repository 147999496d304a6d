import SourceRecipes.Digest.ContentHash
import SourceRecipes.Proofs.Text.Hex

/-!
# Hashes as texts

The texts of hashes are the rows of 64 small hexadecimal digits. Each of them stands for one hash, is read as this hash in any case of
its letters, and comes before another text just when its hash comes before the other hash.
-/

namespace SourceRecipes.ContentHash

open Text (IsHexDigit utf8)
open Text.Hex (IsDigit decode)

variable {s : String}

/-! ### Reading -/

/-- Why a text is not a hash. -/
inductive IsRefused (text : String) : Error → Prop
  | hex {cause : Text.Hex.Error} (hcause : Text.Hex.IsRefused text cause) : IsRefused text (.hex cause)
  | invalidLength (heven : (utf8 text).length % 2 = 0) (hdigits : ∀ byte ∈ utf8 text, IsDigit byte)
      (hlength : (utf8 text).length ≠ 64) : IsRefused text (.invalidLength ((utf8 text).length / 2))

theorem parse_of_decode_error {cause : Text.Hex.Error} (h : decode s = .error cause) : parse s = .error (.hex cause) := by
  rw [parse, h]

theorem parse_of_decode_ok {bytes : List UInt8} (h : decode s = .ok bytes) :
    parse s = if hlength : bytes.length = 32 then .ok ⟨bytes, hlength⟩ else .error (.invalidLength bytes.length) := by
  rw [parse, h]

theorem parse_eq_ok_iff_decode {h : ContentHash} : parse s = .ok h ↔ decode s = .ok h.bytes := by
  constructor
  · intro hparse
    cases hdecode : decode s with
    | error cause =>
        rw [parse_of_decode_error hdecode] at hparse
        nomatch hparse
    | ok bytes =>
        rw [parse_of_decode_ok hdecode] at hparse
        split_ifs at hparse with hlength
        cases hparse
        rfl
  · intro hdecode
    rw [parse_of_decode_ok hdecode, dif_pos h.length_bytes]

theorem parse_eq_ok_iff {h : ContentHash} : parse s = .ok h ↔ h.text = s.toLower := by
  rw [parse_eq_ok_iff_decode, Text.Hex.decode_eq_ok_iff, text]

theorem exists_parse_iff : (∃ h, parse s = .ok h) ↔ s.toList.length = 64 ∧ ∀ c ∈ s.toList, IsHexDigit c := by
  constructor
  · rintro ⟨h, hparse⟩
    have hdecode := parse_eq_ok_iff_decode.mp hparse
    have hdigits := Text.Hex.forall_isDigit_utf8_iff.mp (Text.Hex.isDigit_of_decode hdecode)
    rw [← Text.Hex.length_utf8_of_isHexDigit hdigits, Text.Hex.length_of_decode hdecode, h.length_bytes]
    exact ⟨rfl, hdigits⟩
  · rintro ⟨hlength, hdigits⟩
    rw [← Text.Hex.length_utf8_of_isHexDigit hdigits] at hlength
    obtain ⟨bytes, hdecode⟩ := Text.Hex.exists_decode (by omega) (Text.Hex.forall_isDigit_utf8_iff.mpr hdigits)
    have hbytes : bytes.length = 32 := by
      have := Text.Hex.length_of_decode hdecode
      omega
    exact ⟨⟨bytes, hbytes⟩, parse_eq_ok_iff_decode.mpr hdecode⟩

theorem parse_eq_error_iff {e : Error} : parse s = .error e ↔ IsRefused s e := by
  constructor
  · intro h
    cases hdecode : decode s with
    | error cause =>
        rw [parse_of_decode_error hdecode] at h
        cases h
        exact .hex (Text.Hex.decode_eq_error_iff.mp hdecode)
    | ok bytes =>
        rw [parse_of_decode_ok hdecode] at h
        split_ifs at h with hbytes
        cases h
        have hlength := Text.Hex.length_of_decode hdecode
        have hhalf : bytes.length = (utf8 s).length / 2 := by omega
        rw [hhalf]
        exact .invalidLength (by omega) (Text.Hex.isDigit_of_decode hdecode) (by omega)
  · rintro (hcause | ⟨heven, hdigits, hne⟩)
    · exact parse_of_decode_error (Text.Hex.decode_eq_error_iff.mpr hcause)
    · obtain ⟨bytes, hdecode⟩ := Text.Hex.exists_decode heven hdigits
      have hlength := Text.Hex.length_of_decode hdecode
      have hhalf : (utf8 s).length / 2 = bytes.length := by omega
      rw [parse_of_decode_ok hdecode, dif_neg (by omega), hhalf]

/-! ### Writing and comparing -/

theorem toList_text (h : ContentHash) : h.text.toList = Text.Hex.encodeList h.bytes := by
  rw [text, Text.Hex.encode, String.toList_ofList]

theorem toList_short (h : ContentHash) : h.short.toList = h.text.toList.take 16 := by
  rw [toList_text, short, Text.Hex.encode, String.toList_ofList]
  exact (Text.Hex.take_encodeList 8 h.bytes).symm

theorem parse_text (h : ContentHash) : parse h.text = .ok h := by
  rw [parse_eq_ok_iff, text, Text.Hex.toLower_encode]

theorem compareBytes_eq_gt_iff {as bs : List UInt8} : compareBytes as bs = .gt ↔ bs < as := by
  induction as generalizing bs with
  | nil => cases bs <;> simp [compareBytes]
  | cons a as ih =>
      cases bs with
      | nil => simp [compareBytes]
      | cons b bs =>
          rw [compareBytes, Ordering.then_eq_gt, Std.compare_eq_gt, Std.compare_eq_iff_eq, ih, List.cons_lt_cons_iff,
            eq_comm]

theorem isLE_compare_iff {g h : ContentHash} : (compare g h).isLE = true ↔ g.text ≤ h.text := by
  have hcompare : compare g h = compareBytes g.bytes h.bytes := rfl
  rw [Ordering.isLE_iff_ne_gt, hcompare, compareBytes_eq_gt_iff, ← Text.Hex.encode_lt_iff]
  exact not_lt

/-! ### Main statement -/

/-- Every hash is read back from its text, of which the first 16 digits are its short form. The texts that are read are those of 64
digits, in either case, as the hash with this text in small letters. All others are refused: for an odd number of bytes, or else for
the first byte that is no digit, or else for their length. Hashes are in order just as their texts are. -/
theorem texts_of_hashes :
    (∀ h : ContentHash, parse h.text = .ok h ∧ h.short.toList = h.text.toList.take 16) ∧
    (∀ s : String,
      ((∃ h, parse s = .ok h) ↔ s.toList.length = 64 ∧ ∀ c ∈ s.toList, IsHexDigit c) ∧
      (∀ h, parse s = .ok h ↔ h.text = s.toLower) ∧
      ∀ e, parse s = .error e ↔ IsRefused s e) ∧
    ∀ g h : ContentHash, (compare g h).isLE = true ↔ g.text ≤ h.text := by
  refine ⟨fun h => ⟨parse_text h, toList_short h⟩, fun s => ⟨exists_parse_iff, ?_, ?_⟩, fun _ _ => isLE_compare_iff⟩
  · exact fun _ => parse_eq_ok_iff
  · exact fun _ => parse_eq_error_iff

/-- A letter of two bytes is met at its first byte. -/
example : parse "0é1" = .error (.hex (.invalidCharacter 0xc3 1)) := by decide

end SourceRecipes.ContentHash
