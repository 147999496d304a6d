import SourceRecipes.Proofs.Data.Outcome
import SourceRecipes.Proofs.Text.Digits
import SourceRecipes.Proofs.Text.Order

/-!
# Bytes as hexadecimal text

A text is read as some bytes just when these bytes are written as its small form, and rows of bytes are in order just when their
texts are. Any other text is refused: for an odd number of bytes, or else for the first byte that is no digit.
-/

namespace SourceRecipes.Text.Hex

/-- A byte that is a digit by itself; no byte of a character of several bytes is one. -/
def IsDigit (byte : UInt8) : Prop :=
  IsHexDigit (Char.ofNat byte.toNat)

instance : DecidablePred IsDigit :=
  fun byte => inferInstanceAs (Decidable (IsHexDigit (Char.ofNat byte.toNat)))

/-- The small form of the character with the code of a byte. -/
def lowered (byte : UInt8) : Char :=
  (Char.ofNat byte.toNat).toLower

theorem digitValue?_eq_some_iff {byte : UInt8} {value : Nat} :
    digitValue? byte = some value ↔ value < 16 ∧ lowered byte = hexDigit value :=
  hexValue?_eq_some_iff

theorem isDigit_iff {byte : UInt8} : IsDigit byte ↔ ∃ value, digitValue? byte = some value :=
  isHexDigit_iff

theorem digitValue?_eq_none_iff {byte : UInt8} : digitValue? byte = none ↔ ¬ IsDigit byte := by
  rw [isDigit_iff, Option.eq_none_iff_forall_ne_some, not_exists]

theorem isDigit_of_digitValue? {byte : UInt8} {value : Nat} (h : digitValue? byte = some value) : IsDigit byte :=
  isDigit_iff.mpr ⟨value, h⟩

theorem IsDigit.toNat_lt {byte : UInt8} (h : IsDigit byte) : byte.toNat < 128 := by
  rw [← toNat_ofNat_toNat]
  exact IsHexDigit.toNat_lt h

theorem forall_isDigit_utf8_iff {text : String} :
    (∀ byte ∈ utf8 text, IsDigit byte) ↔ ∀ c ∈ text.toList, IsHexDigit c := by
  have hcharacters (hascii : ∀ byte ∈ utf8 text, byte.toNat < 128) :
      (∀ byte ∈ utf8 text, IsDigit byte) ↔ ∀ c ∈ text.toList, IsHexDigit c := by
    rw [toList_eq_map hascii, List.forall_mem_map]
    exact Iff.rfl
  constructor
  · intro h
    exact (hcharacters fun byte hbyte => (h byte hbyte).toNat_lt).mp h
  · intro h
    exact (hcharacters (forall_utf8_lt_iff.mpr fun c hc => (h c hc).toNat_lt)).mpr h

theorem length_utf8_of_isHexDigit {text : String} (h : ∀ c ∈ text.toList, IsHexDigit c) :
    (utf8 text).length = text.toList.length := by
  rw [utf8_eq_map fun c hc => (h c hc).toNat_lt, List.length_map]

/-! ### Writing -/

theorem length_encodeList (bytes : List UInt8) : (encodeList bytes).length = 2 * bytes.length := by
  induction bytes with
  | nil => rfl
  | cons byte rest ih =>
      rw [encodeList, List.flatMap_cons, List.length_append, ← encodeList, ih, List.length_cons, Nat.mul_succ]
      exact Nat.add_comm _ _

theorem take_encodeList (n : Nat) (bytes : List UInt8) :
    (encodeList bytes).take (2 * n) = encodeList (bytes.take n) := by
  induction n generalizing bytes with
  | zero => rfl
  | succ n ih =>
      cases bytes with
      | nil => rfl
      | cons byte rest => exact congrArg (byteDigits byte ++ ·) (ih rest)

theorem exists_hexDigit_of_mem_encodeList {c : Char} {bytes : List UInt8} (h : c ∈ encodeList bytes) :
    ∃ value < 16, c = hexDigit value := by
  obtain ⟨byte, -, hdigit⟩ := List.mem_flatMap.mp h
  have hbyte := byte.toNat_lt
  rcases List.mem_pair.mp hdigit with rfl | rfl
  · exact ⟨_, by omega, rfl⟩
  · exact ⟨_, by omega, rfl⟩

theorem toList_toLower (text : String) : text.toLower.toList = text.toList.map Char.toLower :=
  String.toList_map

theorem toLower_encode (bytes : List UInt8) : (encode bytes).toLower = encode bytes := by
  have hsmall : ∀ c ∈ encodeList bytes, c.toLower = id c := by
    intro c hc
    obtain ⟨value, hvalue, rfl⟩ := exists_hexDigit_of_mem_encodeList hc
    exact (hexValue?_eq_some_iff.mp (hexValue?_hexDigit value hvalue)).2
  rw [← String.toList_inj, toList_toLower, encode, String.toList_ofList, List.map_congr_left hsmall, List.map_id]

theorem byteDigits_append_lt {a b : UInt8} (h : a < b) (x y : List Char) : byteDigits a ++ x < byteDigits b ++ y := by
  have ha := a.toNat_lt
  have hb := b.toNat_lt
  rw [UInt8.lt_iff_toNat_lt] at h
  simp only [byteDigits, List.cons_append, List.nil_append, List.cons_lt_cons_iff]
  rcases Nat.lt_or_ge (a.toNat / 16) (b.toNat / 16) with hhigh | hhigh
  · exact Or.inl (hexDigit_lt_hexDigit _ (by omega) _ (by omega) hhigh)
  · have hsame : a.toNat / 16 = b.toNat / 16 := by omega
    exact Or.inr ⟨by rw [hsame], Or.inl (hexDigit_lt_hexDigit _ (by omega) _ (by omega) (by omega))⟩

theorem encodeList_lt_iff {as bs : List UInt8} : encodeList as < encodeList bs ↔ as < bs :=
  flatMap_lt_flatMap_iff (fun _ => List.cons_ne_nil _ _) byteDigits_append_lt

theorem encode_lt_iff {as bs : List UInt8} : encode as < encode bs ↔ as < bs := by
  rw [encode, encode, String.lt_iff_toList_lt, String.toList_ofList, String.toList_ofList, encodeList_lt_iff]

/-! ### Refused texts -/

/-- The byte at a place is no digit, and those before it are. -/
structure IsFirstStray (bytes : List UInt8) (byte : UInt8) (position : Nat) : Prop where
  at_position : bytes[position]? = some byte
  not_isDigit : ¬ IsDigit byte
  isDigit_before : ∀ b ∈ bytes.take position, IsDigit b

/-- Why a text is not a row of bytes. -/
inductive IsRefused (text : String) : Error → Prop
  | oddLength (hodd : (utf8 text).length % 2 = 1) : IsRefused text .oddLength
  | invalidCharacter {byte : UInt8} {position : Nat} (heven : (utf8 text).length % 2 = 0)
      (hstray : IsFirstStray (utf8 text) byte position) : IsRefused text (.invalidCharacter byte position)

theorem not_isFirstStray_nil {byte : UInt8} {position : Nat} : ¬ IsFirstStray [] byte position :=
  fun h => nomatch h.at_position

theorem isFirstStray_cons_of_not_isDigit {b byte : UInt8} {rest : List UInt8} {position : Nat} (h : ¬ IsDigit b) :
    IsFirstStray (b :: rest) byte position ↔ byte = b ∧ position = 0 := by
  constructor
  · rintro ⟨hat, -, hbefore⟩
    cases position with
    | zero => exact ⟨(Option.some.inj hat).symm, rfl⟩
    | succ position => exact absurd (hbefore b List.mem_cons_self) h
  · rintro ⟨rfl, rfl⟩
    exact ⟨rfl, h, List.forall_mem_nil _⟩

theorem isFirstStray_cons_of_isDigit {b byte : UInt8} {rest : List UInt8} {position : Nat} (h : IsDigit b) :
    IsFirstStray (b :: rest) byte position ↔ ∃ before, position = before + 1 ∧ IsFirstStray rest byte before := by
  constructor
  · rintro ⟨hat, hstray, hbefore⟩
    cases position with
    | zero => exact absurd (Option.some.inj hat ▸ h) hstray
    | succ before => exact ⟨before, rfl, hat, hstray, (List.forall_mem_cons.mp hbefore).2⟩
  · rintro ⟨before, rfl, hat, hstray, hbefore⟩
    exact ⟨hat, hstray, List.forall_mem_cons.mpr ⟨h, hbefore⟩⟩

/-! ### Reading -/

theorem byteDigits_eq_iff {high low byte : UInt8} {h l : Nat} (hhigh : digitValue? high = some h)
    (hlow : digitValue? low = some l) :
    byteDigits byte = [lowered high, lowered low] ↔ byte = UInt8.ofNat (16 * h + l) := by
  obtain ⟨hh, hhigh⟩ := digitValue?_eq_some_iff.mp hhigh
  obtain ⟨hl, hlow⟩ := digitValue?_eq_some_iff.mp hlow
  have hbyte := byte.toNat_lt
  rw [hhigh, hlow, byteDigits, List.cons.injEq, List.cons.injEq, and_iff_left rfl, ← UInt8.toNat_inj, UInt8.toNat_ofNat']
  constructor
  · rintro ⟨hfirst, hsecond⟩
    have hquotient : byte.toNat / 16 = h := hexDigit_inj (by omega) hh hfirst
    have hremainder : byte.toNat % 16 = l := hexDigit_inj (by omega) hl hsecond
    omega
  · intro heq
    have hquotient : byte.toNat / 16 = h := by omega
    have hremainder : byte.toNat % 16 = l := by omega
    rw [hquotient, hremainder]
    exact ⟨rfl, rfl⟩

theorem isHexDigit_of_toLower_mem {c : Char} {bytes : List UInt8} (h : c.toLower ∈ encodeList bytes) :
    IsHexDigit c := by
  obtain ⟨value, hvalue, hdigit⟩ := exists_hexDigit_of_mem_encodeList h
  exact isHexDigit_iff.mpr ⟨value, hexValue?_eq_some_iff.mpr ⟨hvalue, hdigit⟩⟩

theorem isDigit_of_map_lowered_eq {bytes decoded : List UInt8} (h : bytes.map lowered = encodeList decoded) :
    ∀ b ∈ bytes, IsDigit b :=
  fun _ hb => isHexDigit_of_toLower_mem (h ▸ List.mem_map_of_mem hb)

theorem eq_nil_of_not_pair {bytes : List UInt8} (heven : bytes.length % 2 = 0)
    (hshort : ∀ high low rest, bytes = high :: low :: rest → False) : bytes = [] := by
  cases bytes with
  | nil => rfl
  | cons high rest =>
      cases rest with
      | nil => nomatch heven
      | cons low rest => exact (hshort high low rest rfl).elim

theorem length_rest_of_pair {high low : UInt8} {rest : List UInt8} (h : (high :: low :: rest).length % 2 = 0) :
    rest.length % 2 = 0 := by
  simp only [List.length_cons] at h
  omega

theorem decodePairs_eq_ok_iff {position : Nat} {bytes decoded : List UInt8} (heven : bytes.length % 2 = 0) :
    decodePairs position bytes = .ok decoded ↔ bytes.map lowered = encodeList decoded := by
  -- A pair is refused at its first byte, at its second one, or read. As the length is even, only the empty row holds no pair.
  fun_induction decodePairs position bytes generalizing decoded with
  | case1 position high low rest hhigh =>
      refine iff_of_false nofun fun h => digitValue?_eq_none_iff.mp hhigh ?_
      exact isDigit_of_map_lowered_eq h high List.mem_cons_self
  | case2 position high low rest h hhigh hlow =>
      refine iff_of_false nofun fun h => digitValue?_eq_none_iff.mp hlow ?_
      exact isDigit_of_map_lowered_eq h low (List.mem_cons_of_mem high List.mem_cons_self)
  | case3 position high low rest h hhigh l hlow ih =>
      rw [map_eq_ok_iff]
      simp only [ih (length_rest_of_pair heven)]
      constructor
      · rintro ⟨tail, htail, rfl⟩
        have hpair := (byteDigits_eq_iff hhigh hlow).mpr rfl
        rw [encodeList, List.flatMap_cons, hpair, ← encodeList, ← htail]
        rfl
      · intro hall
        cases decoded with
        | nil => nomatch hall
        | cons byte tail =>
            have happend : byteDigits byte ++ encodeList tail = [lowered high, lowered low] ++ rest.map lowered := hall.symm
            obtain ⟨hpair, htail⟩ := List.append_inj happend rfl
            exact ⟨tail, htail.symm, congrArg (· :: tail) ((byteDigits_eq_iff hhigh hlow).mp hpair).symm⟩
  | case4 bytes position hshort =>
      obtain rfl := eq_nil_of_not_pair heven hshort
      cases decoded with
      | nil => exact iff_of_true rfl rfl
      | cons byte tail => exact iff_of_false nofun nofun

theorem decodePairs_eq_error_iff {position : Nat} {bytes : List UInt8} {e : Error} (heven : bytes.length % 2 = 0) :
    decodePairs position bytes = .error e ↔
      ∃ byte before, IsFirstStray bytes byte before ∧ e = .invalidCharacter byte (position + before) := by
  fun_induction decodePairs position bytes with
  | case1 position high low rest hhigh =>
      simp [isFirstStray_cons_of_not_isDigit (digitValue?_eq_none_iff.mp hhigh), eq_comm]
  | case2 position high low rest h hhigh hlow =>
      simp [isFirstStray_cons_of_isDigit (isDigit_of_digitValue? hhigh),
        isFirstStray_cons_of_not_isDigit (digitValue?_eq_none_iff.mp hlow), eq_comm]
  | case3 position high low rest h hhigh l hlow ih =>
      have hplace (before : Nat) : position + 2 + before = position + (before + 1 + 1) := by omega
      rw [map_eq_error_iff]
      simp only [ih (length_rest_of_pair heven), isFirstStray_cons_of_isDigit (isDigit_of_digitValue? hhigh),
        isFirstStray_cons_of_isDigit (isDigit_of_digitValue? hlow), hplace]
      constructor
      · rintro ⟨byte, before, hstray, rfl⟩
        exact ⟨byte, _, ⟨_, rfl, before, rfl, hstray⟩, rfl⟩
      · rintro ⟨byte, _, ⟨_, rfl, before, rfl, hstray⟩, rfl⟩
        exact ⟨byte, before, hstray, rfl⟩
  | case4 bytes position hshort =>
      obtain rfl := eq_nil_of_not_pair heven hshort
      refine iff_of_false nofun ?_
      rintro ⟨byte, before, hstray, -⟩
      exact not_isFirstStray_nil hstray

theorem decode_eq_error_iff {text : String} {e : Error} : decode text = .error e ↔ IsRefused text e := by
  rw [decode]
  split_ifs with hodd
  · constructor
    · intro h
      cases h
      exact .oddLength hodd
    · rintro (- | ⟨heven, -⟩)
      · rfl
      · omega
  · have heven : (utf8 text).length % 2 = 0 := by omega
    rw [decodePairs_eq_error_iff heven]
    simp only [Nat.zero_add]
    constructor
    · rintro ⟨byte, position, hstray, rfl⟩
      exact .invalidCharacter heven hstray
    · rintro (hodd' | ⟨-, hstray⟩)
      · exact absurd hodd' hodd
      · exact ⟨_, _, hstray, rfl⟩

theorem decode_eq_ok_iff_map_lowered {text : String} {bytes : List UInt8} :
    decode text = .ok bytes ↔ (utf8 text).map lowered = encodeList bytes := by
  constructor
  · intro h
    rw [decode] at h
    split_ifs at h with hodd
    exact (decodePairs_eq_ok_iff (by omega)).mp h
  · intro h
    have hlength : (utf8 text).length = 2 * bytes.length := by
      rw [← length_encodeList, ← h, List.length_map]
    rw [decode, if_neg (by omega)]
    exact (decodePairs_eq_ok_iff (by omega)).mpr h

theorem isDigit_of_decode {text : String} {bytes : List UInt8} (h : decode text = .ok bytes) :
    ∀ byte ∈ utf8 text, IsDigit byte :=
  isDigit_of_map_lowered_eq (decode_eq_ok_iff_map_lowered.mp h)

theorem length_of_decode {text : String} {bytes : List UInt8} (h : decode text = .ok bytes) :
    (utf8 text).length = 2 * bytes.length := by
  calc (utf8 text).length = ((utf8 text).map lowered).length := (List.length_map lowered).symm
    _ = (encodeList bytes).length := congrArg List.length (decode_eq_ok_iff_map_lowered.mp h)
    _ = 2 * bytes.length := length_encodeList bytes

theorem exists_decode {text : String} (heven : (utf8 text).length % 2 = 0)
    (hdigits : ∀ byte ∈ utf8 text, IsDigit byte) : ∃ bytes, decode text = .ok bytes := by
  cases hdecode : decode text with
  | ok bytes => exact ⟨bytes, rfl⟩
  | error e =>
      rcases decode_eq_error_iff.mp hdecode with hodd | ⟨-, hat, hstray, -⟩
      · omega
      · exact absurd (hdigits _ (List.mem_of_getElem? hat)) hstray

theorem map_lowered_utf8 {text : String} (h : ∀ c ∈ text.toList, IsHexDigit c) :
    (utf8 text).map lowered = text.toList.map Char.toLower := by
  rw [toList_eq_map fun byte hbyte => (forall_isDigit_utf8_iff.mpr h byte hbyte).toNat_lt, List.map_map]
  rfl

/-- A text is read as the bytes that are written as its small form. -/
theorem decode_eq_ok_iff {text : String} {bytes : List UInt8} :
    decode text = .ok bytes ↔ encode bytes = text.toLower := by
  rw [← String.toList_inj, toList_toLower, encode, String.toList_ofList]
  constructor
  · intro h
    have hdigits := forall_isDigit_utf8_iff.mp (isDigit_of_decode h)
    calc encodeList bytes = (utf8 text).map lowered := (decode_eq_ok_iff_map_lowered.mp h).symm
      _ = text.toList.map Char.toLower := map_lowered_utf8 hdigits
  · intro h
    have hdigits : ∀ c ∈ text.toList, IsHexDigit c :=
      fun c hc => isHexDigit_of_toLower_mem (h ▸ List.mem_map_of_mem hc)
    rw [decode_eq_ok_iff_map_lowered, map_lowered_utf8 hdigits, h]

end SourceRecipes.Text.Hex
