import SourceRecipes.Json.Number
import SourceRecipes.Json.Print
import SourceRecipes.Proofs.Data.Outcome
import Mathlib.Algebra.Group.Int.Defs
import Mathlib.Algebra.Group.Nat.Defs

/-!
# Numbers read, skipped and written

A written whole number is read back when what follows does not continue it. A number that can be read can be skipped,
with the same rest.
-/

namespace SourceRecipes.Json

theorem digitValue?_eq_none_iff {c : Char} : Text.digitValue? 10 c = none ↔ Text.isDigit c = false := by
  simp [Text.isDigit]

/-- That a text does not continue the whole number in front of it. -/
def EndsNumber (text : List Char) : Prop :=
  ∀ c ∈ text.head?, Text.isDigit c = false ∧ c ≠ '.' ∧ c ≠ 'e' ∧ c ≠ 'E'

theorem EndsNumber.startsWithDigit {text : List Char} (h : EndsNumber text) : startsWithDigit text = false := by
  cases text with
  | nil => rfl
  | cons c rest => exact (h c rfl).1

/-- The characters that a number may begin with. -/
def StartsNumber (c : Char) : Prop :=
  c = '-' ∨ Text.isDigit c = true

instance : DecidablePred StartsNumber := fun c => inferInstanceAs (Decidable (c = '-' ∨ Text.isDigit c = true))

theorem StartsNumber.ne {c d : Char} (hc : StartsNumber c) (hd : ¬ StartsNumber d) : c ≠ d := by
  rintro rfl
  exact hd hc

/-! ### Written numbers -/

theorem digitValue?_digitChar : ∀ digit < 10, Text.digitValue? 10 (Nat.digitChar digit) = some digit := by
  decide

theorem wholeDigits_of_startsWithDigit_eq_false (significand : Nat) {rest : List Char}
    (h : startsWithDigit rest = false) : wholeDigits significand rest = (significand, none, rest) := by
  cases rest with
  | nil => rfl
  | cons c rest =>
    have hc : Text.digitValue? 10 c = none := digitValue?_eq_none_iff.mpr h
    simp [wholeDigits, hc]

theorem wholeDigits_digitChar {significand digit : Nat} (hdigit : digit < 10)
    (hfits : significand * 10 + digit < 2 ^ 64) (rest : List Char) :
    wholeDigits significand (Nat.digitChar digit :: rest) = wholeDigits (significand * 10 + digit) rest := by
  have hfits' : fits significand digit = true := decide_eq_true hfits
  simp [wholeDigits, digitValue?_digitChar digit hdigit, hfits']

/-- The digits of a number that fits are taken in one by one. -/
theorem wholeDigits_toDigits {n : Nat} (h : n < 2 ^ 64) (rest : List Char) :
    wholeDigits 0 (Nat.toDigits 10 n ++ rest) = wholeDigits n rest := by
  induction n using Nat.strongRecOn generalizing rest with
  | ind n ih =>
    by_cases hsmall : n < 10
    · rw [Nat.toDigits_of_lt_base hsmall, List.singleton_append, wholeDigits_digitChar hsmall (by omega)]
      simp
    · have hdigits : Nat.toDigits 10 n = Nat.toDigits 10 (n / 10) ++ [Nat.digitChar (n % 10)] := by
        rw [← Nat.toDigits_of_lt_base (Nat.mod_lt n (by decide)),
          Nat.toDigits_append_toDigits (by decide) (by omega) (Nat.mod_lt n (by decide)), Nat.div_add_mod]
      calc wholeDigits 0 (Nat.toDigits 10 n ++ rest)
          = wholeDigits 0 (Nat.toDigits 10 (n / 10) ++ Nat.digitChar (n % 10) :: rest) := by simp [hdigits]
        _ = wholeDigits (n / 10) (Nat.digitChar (n % 10) :: rest) := ih (n / 10) (by omega) (by omega) _
        _ = wholeDigits n rest := by
            rw [wholeDigits_digitChar (Nat.mod_lt n (by decide)) (by omega)]
            congr 1
            omega

/-- The first digit of a number is no zero, unless the number is. -/
theorem exists_toDigits_eq_cons (n : Nat) :
    ∃ digit rest, digit < 10 ∧ (0 < n → 0 < digit) ∧ Nat.toDigits 10 n = Nat.digitChar digit :: rest := by
  induction n using Nat.strongRecOn with
  | ind n ih =>
    by_cases hsmall : n < 10
    · exact ⟨n, [], hsmall, id, Nat.toDigits_of_lt_base hsmall⟩
    · obtain ⟨digit, rest, hlt, hpos, hdigits⟩ := ih (n / 10) (by omega)
      refine ⟨digit, rest ++ Nat.toDigits 10 (n % 10), hlt, fun _ => hpos (by omega), ?_⟩
      rw [← List.cons_append, ← hdigits,
        Nat.toDigits_append_toDigits (by decide) (by omega) (Nat.mod_lt n (by decide)), Nat.div_add_mod]

theorem readTail_of_endsNumber (negative : Bool) (significand : Nat) {rest : List Char} (h : EndsNumber rest) :
    readTail negative significand none rest = .ok (wholeNumber negative significand, rest) := by
  unfold readTail
  cases rest with
  | nil => rfl
  | cons c rest =>
    obtain ⟨-, hpoint, hsmall, hlarge⟩ := h c rfl
    split <;> simp_all

theorem readUnsigned_toDigits (negative : Bool) {n : Nat} (h : n < 2 ^ 64) {rest : List Char} (hrest : EndsNumber rest) :
    readUnsigned negative (Nat.toDigits 10 n ++ rest) = .ok (wholeNumber negative n, rest) := by
  by_cases hzero : n = 0
  · subst hzero
    have hvalue : Text.digitValue? 10 '0' = some 0 := by decide
    simp [readUnsigned, hvalue, hrest.startsWithDigit, readTail_of_endsNumber negative 0 hrest]
  · have hwhole := wholeDigits_toDigits h rest
    obtain ⟨digit, tail, hlt, hpos, hdigits⟩ := exists_toDigits_eq_cons n
    rw [wholeDigits_of_startsWithDigit_eq_false n hrest.startsWithDigit, hdigits, List.cons_append,
      wholeDigits_digitChar hlt (by omega)] at hwhole
    rw [hdigits, List.cons_append, readUnsigned, digitValue?_digitChar digit hlt]
    obtain ⟨less, rfl⟩ := Nat.exists_eq_add_one.mpr (hpos (Nat.pos_of_ne_zero hzero))
    simp only [Nat.zero_mul, Nat.zero_add] at hwhole
    simp [hwhole, readTail_of_endsNumber negative n hrest]

theorem readNumber_of_isDigit {c : Char} (h : Text.isDigit c = true) (rest : List Char) :
    readNumber (c :: rest) = readUnsigned false (c :: rest) := by
  have hminus : c ≠ '-' := by
    rintro rfl
    exact absurd h (by decide)
  unfold readNumber
  split
  · simp_all
  · rfl

theorem isDigit_digitChar {digit : Nat} (h : digit < 10) : Text.isDigit (Nat.digitChar digit) = true := by
  rw [Text.isDigit, digitValue?_digitChar digit h]
  rfl

theorem readNumber_writeInteger {n : Int} (hlow : -2 ^ 63 ≤ n) (hhigh : n < 2 ^ 64) {rest : List Char}
    (hrest : EndsNumber rest) : readNumber (Value.writeInteger n ++ rest) = .ok (.integer n, rest) := by
  unfold Value.writeInteger
  split_ifs with hnegative
  · have hsize : 1 ≤ n.natAbs ∧ n.natAbs ≤ Nat.pow 2 63 := by
      have hpow : Nat.pow 2 63 = 9223372036854775808 := rfl
      omega
    rw [List.cons_append, readNumber, readUnsigned_toDigits true (by omega) hrest, wholeNumber, if_pos rfl, if_pos hsize]
    rw [show (-(n.natAbs : Int)) = n by omega]
  · have hunsigned := readUnsigned_toDigits false (n := n.natAbs) (by omega) hrest
    obtain ⟨digit, tail, hlt, -, hdigits⟩ := exists_toDigits_eq_cons n.natAbs
    rw [hdigits, List.cons_append] at hunsigned ⊢
    rw [readNumber_of_isDigit (isDigit_digitChar hlt), hunsigned, wholeNumber, if_neg (by decide)]
    rw [show (n.natAbs : Int) = n by omega]

/-! ### Skipping -/

theorem rest_wholeDigits (significand : Nat) (text : List Char) :
    (wholeDigits significand text).2.2 = dropDigits text := by
  fun_induction wholeDigits significand text <;> simp_all [dropDigits, Text.isDigit]

theorem rest_fractionDigits (significand count : Nat) (text : List Char) :
    (fractionDigits significand count text).2.2 = dropDigits text := by
  fun_induction fractionDigits significand count text <;> simp_all [dropDigits, Text.isDigit]

theorem rest_exponentDigits (exponent : Nat) (text : List Char) :
    (exponentDigits exponent text).2 = dropDigits text := by
  fun_induction exponentDigits exponent text <;> simp_all [dropDigits, Text.isDigit]

theorem skipDigits_of_digitValue? {c : Char} {digit : Nat} (h : Text.digitValue? 10 c = some digit) (rest : List Char) :
    skipDigits (c :: rest) = .ok (dropDigits rest) := by
  have hdigit : Text.isDigit c = true := by simp [Text.isDigit, h]
  simp [skipDigits, startsWithDigit, dropDigits, hdigit]

/-- Reads an exponent from after its sign. -/
def readPower (negative : Bool) (significand : Nat) (exponent : Int) (down : Bool) (text : List Char) :
    Except Error (Double × List Char) :=
  match text with
  | [] => .error .truncated
  | c :: rest =>
    match Text.digitValue? 10 c with
    | none => .error .malformed
    | some digit =>
      match exponentDigits digit rest with
      | (some read, rest) =>
        (assemble negative significand (if down then exponent - read else exponent + read)).map (·, rest)
      | (none, rest) => if significand ≠ 0 ∧ !down then .error .malformed else .ok (Double.zero negative, rest)

section

variable {negative : Bool} {significand : Nat} {exponent : Int} {text rest : List Char} {x : Double}

theorem skipDigits_of_readPower (down : Bool) (h : readPower negative significand exponent down text = .ok (x, rest)) :
    skipDigits text = .ok rest := by
  cases text with
  | nil => simp [readPower] at h
  | cons c tail =>
    cases hvalue : Text.digitValue? 10 c with
    | none => simp [readPower, hvalue] at h
    | some digit =>
      rw [skipDigits_of_digitValue? hvalue, ← rest_exponentDigits digit tail]
      simp only [readPower, hvalue] at h
      split at h
      · next read after hread =>
        obtain ⟨_, -, hpair⟩ := map_eq_ok_iff.mp h
        rw [hread, (Prod.mk.inj hpair).2]
      · next after hread =>
        split_ifs at h
        rw [hread, (Prod.mk.inj (Except.ok.inj h)).2]

/-- The sign of an exponent, positive if there is none, and what comes after it. -/
def splitSign (text : List Char) : Bool × List Char :=
  match text with
  | '+' :: rest => (false, rest)
  | '-' :: rest => (true, rest)
  | text => (false, text)

theorem readExponent_eq (negative : Bool) (significand : Nat) (exponent : Int) (text : List Char) :
    readExponent negative significand exponent text =
      readPower negative significand exponent (splitSign text).1 (splitSign text).2 := rfl

theorem skipExponent_eq (text : List Char) : skipExponent text = skipDigits (splitSign text).2 := by
  cases text with
  | nil => rfl
  | cons c tail =>
    by_cases hplus : c = '+'
    · subst hplus
      rfl
    by_cases hminus : c = '-'
    · subst hminus
      rfl
    simp [skipExponent, splitSign, hplus, hminus]

theorem skipExponent_of_readExponent (h : readExponent negative significand exponent text = .ok (x, rest)) :
    skipExponent text = .ok rest := by
  rw [readExponent_eq] at h
  rw [skipExponent_eq]
  exact skipDigits_of_readPower _ h

end

/-- Skips an exponent if there is one. -/
def skipMark (text : List Char) : Except Error (List Char) :=
  match text with
  | 'e' :: rest | 'E' :: rest => skipExponent rest
  | rest => return rest

theorem skipMark_of_ne {text : List Char} (hsmall : ∀ rest, text ≠ 'e' :: rest) (hlarge : ∀ rest, text ≠ 'E' :: rest) :
    skipMark text = .ok text := by
  unfold skipMark
  split
  · exact absurd rfl (hsmall _)
  · exact absurd rfl (hlarge _)
  · rfl

/-- Skips what comes after the digits in front of a point or an exponent. -/
def skipTail (text : List Char) : Except Error (List Char) :=
  match text with
  | '.' :: rest => do
    match ← skipDigits rest with
    | 'e' :: rest | 'E' :: rest => skipExponent rest
    | rest => return rest
  | 'e' :: rest | 'E' :: rest => skipExponent rest
  | rest => return rest

theorem skipTail_of_readFraction {negative : Bool} {significand : Nat} {exponent : Int} {text rest : List Char} {x : Double}
    (h : readFraction negative significand exponent text = .ok (x, rest)) : skipTail ('.' :: text) = .ok rest := by
  have hrest := rest_fractionDigits significand 0 text
  unfold readFraction at h
  generalize fractionDigits significand 0 text = digits at h hrest
  obtain ⟨significand', count, after⟩ := digits
  simp only at h hrest
  subst hrest
  split_ifs at h with hstarts
  simp only [skipTail, skipDigits, hstarts, if_true]
  change skipMark (dropDigits text) = _
  split at h
  · next hsmall =>
    rw [hsmall]
    exact skipExponent_of_readExponent h
  · next hlarge =>
    rw [hlarge]
    exact skipExponent_of_readExponent h
  · next hsmall hlarge =>
    obtain ⟨_, -, hpair⟩ := map_eq_ok_iff.mp h
    rw [skipMark_of_ne hsmall hlarge, (Prod.mk.inj hpair).2]

theorem skipTail_of_readTail {negative : Bool} {significand : Nat} {leftOut : Option Nat} {text rest : List Char}
    {number : Number} (h : readTail negative significand leftOut text = .ok (number, rest)) :
    skipTail text = .ok rest := by
  unfold readTail at h
  split at h
  · obtain ⟨⟨x, after⟩, hfraction, hpair⟩ := map_eq_ok_iff.mp h
    obtain ⟨-, rfl⟩ := Prod.mk.inj hpair
    exact skipTail_of_readFraction hfraction
  · obtain ⟨⟨x, after⟩, hexponent, hpair⟩ := map_eq_ok_iff.mp h
    obtain ⟨-, rfl⟩ := Prod.mk.inj hpair
    exact skipExponent_of_readExponent hexponent
  · obtain ⟨⟨x, after⟩, hexponent, hpair⟩ := map_eq_ok_iff.mp h
    obtain ⟨-, rfl⟩ := Prod.mk.inj hpair
    exact skipExponent_of_readExponent hexponent
  · next hpoint hsmall hlarge =>
    have hskip : skipTail text = .ok text := by
      unfold skipTail
      split
      · simp_all
      · simp_all
      · simp_all
      · rfl
    rw [hskip]
    cases leftOut with
    | none =>
      simp only [Except.ok.injEq, Prod.mk.injEq] at h
      rw [h.2]
    | some count =>
      obtain ⟨_, -, hpair⟩ := map_eq_ok_iff.mp h
      rw [(Prod.mk.inj hpair).2]

theorem skipUnsigned_zero {rest : List Char} (h : startsWithDigit rest = false) :
    skipUnsigned ('0' :: rest) = skipTail rest := by
  simp [skipUnsigned, h]
  rfl

theorem skipUnsigned_of_digitValue? {c : Char} {digit : Nat} (h : Text.digitValue? 10 c = some (digit + 1))
    (rest : List Char) : skipUnsigned (c :: rest) = skipTail (dropDigits rest) := by
  have hzero : c ≠ '0' := by
    rintro rfl
    have hvalue : Text.digitValue? 10 '0' = some 0 := by decide
    simp [hvalue] at h
  unfold skipUnsigned
  split
  · simp_all
  · rw [skipDigits_of_digitValue? h]
    rfl

theorem eq_zero_of_digitValue?_eq_zero {c : Char} (h : Text.digitValue? 10 c = some 0) : c = '0' := by
  have hvalue : Text.hexValue? c = some 0 := (Option.filter_eq_some_iff.mp h).1
  unfold Text.hexValue? at hvalue
  split_ifs at hvalue with hdigit hsmall hlarge
  · have hle : c.toNat ≤ '0'.toNat := Nat.sub_eq_zero_iff_le.mp (Option.some.inj hvalue)
    exact Char.le_antisymm hle hdigit.1
  · simp at hvalue
  · simp at hvalue

theorem skipUnsigned_of_readUnsigned {negative : Bool} {text rest : List Char} {number : Number}
    (h : readUnsigned negative text = .ok (number, rest)) : skipUnsigned text = .ok rest := by
  cases text with
  | nil => simp [readUnsigned] at h
  | cons c tail =>
    match hvalue : Text.digitValue? 10 c with
    | none => simp [readUnsigned, hvalue] at h
    | some 0 =>
      obtain rfl := eq_zero_of_digitValue?_eq_zero hvalue
      simp only [readUnsigned, hvalue] at h
      split_ifs at h with hstarts
      rw [skipUnsigned_zero (Bool.eq_false_iff.mpr hstarts)]
      exact skipTail_of_readTail h
    | some (digit + 1) =>
      simp only [readUnsigned, hvalue] at h
      rw [skipUnsigned_of_digitValue? hvalue, ← rest_wholeDigits (digit + 1) tail]
      exact skipTail_of_readTail h

theorem skipNumber_of_readNumber {text rest : List Char} {number : Number} (h : readNumber text = .ok (number, rest)) :
    skipNumber text = .ok rest := by
  unfold readNumber at h
  unfold skipNumber
  split at h
  · exact skipUnsigned_of_readUnsigned h
  · exact skipUnsigned_of_readUnsigned h

/-! ### Lengths -/

theorem length_dropDigits_le (text : List Char) : (dropDigits text).length ≤ text.length :=
  (List.dropWhile_sublist _).length_le

theorem length_of_skipDigits {text rest : List Char} (h : skipDigits text = .ok rest) : rest.length < text.length := by
  unfold skipDigits at h
  split_ifs at h with hstarts
  obtain rfl := Except.ok.inj h
  cases text with
  | nil => simp [startsWithDigit] at hstarts
  | cons c tail =>
    have hc : Text.isDigit c = true := hstarts
    have hle := length_dropDigits_le tail
    simp only [dropDigits, List.dropWhile_cons_of_pos hc, List.length_cons] at hle ⊢
    omega

theorem length_of_skipExponent {text rest : List Char} (h : skipExponent text = .ok rest) :
    rest.length < text.length := by
  unfold skipExponent at h
  split at h
  · exact Nat.lt_succ_of_lt (length_of_skipDigits h)
  · exact Nat.lt_succ_of_lt (length_of_skipDigits h)
  · exact length_of_skipDigits h

theorem length_of_skipTail {text rest : List Char} (h : skipTail text = .ok rest) : rest.length ≤ text.length := by
  unfold skipTail at h
  split at h
  · obtain ⟨after, hdigits, h⟩ := bind_eq_ok_iff.mp h
    have hlt := length_of_skipDigits hdigits
    have hle : rest.length ≤ after.length := by
      split at h
      · exact Nat.le_succ_of_le (Nat.le_of_lt (length_of_skipExponent h))
      · exact Nat.le_succ_of_le (Nat.le_of_lt (length_of_skipExponent h))
      · exact Nat.le_of_eq (congrArg List.length (Except.ok.inj h).symm)
    rw [List.length_cons]
    omega
  · exact Nat.le_succ_of_le (Nat.le_of_lt (length_of_skipExponent h))
  · exact Nat.le_succ_of_le (Nat.le_of_lt (length_of_skipExponent h))
  · exact Nat.le_of_eq (congrArg List.length (Except.ok.inj h).symm)

theorem length_of_skipUnsigned {text rest : List Char} (h : skipUnsigned text = .ok rest) :
    rest.length < text.length := by
  unfold skipUnsigned at h
  split at h
  · split_ifs at h
    · contradiction
    · exact Nat.lt_succ_of_le (length_of_skipTail h)
  · obtain ⟨after, hdigits, htail⟩ := bind_eq_ok_iff.mp h
    exact Nat.lt_of_le_of_lt (length_of_skipTail htail) (length_of_skipDigits hdigits)

theorem length_of_readNumber {text rest : List Char} {number : Number} (h : readNumber text = .ok (number, rest)) :
    rest.length < text.length := by
  have hskip := skipNumber_of_readNumber h
  unfold skipNumber at hskip
  split at hskip
  · exact Nat.lt_succ_of_lt (length_of_skipUnsigned hskip)
  · exact length_of_skipUnsigned hskip

theorem startsNumber_of_readNumber {text rest : List Char} {number : Number} (h : readNumber text = .ok (number, rest)) :
    ∃ c tail, text = c :: tail ∧ StartsNumber c := by
  unfold readNumber at h
  split at h
  · exact ⟨'-', _, rfl, .inl rfl⟩
  · cases text with
    | nil => simp [readUnsigned] at h
    | cons c tail =>
      refine ⟨c, tail, rfl, .inr ?_⟩
      cases hvalue : Text.digitValue? 10 c with
      | none => simp [readUnsigned, hvalue] at h
      | some digit => simp [Text.isDigit, hvalue]

end SourceRecipes.Json
