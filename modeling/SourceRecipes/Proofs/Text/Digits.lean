import Mathlib.Data.List.Forall2
import Mathlib.Data.Nat.Digits.Defs
import SourceRecipes.Text.Digits

/-!
# Numerals

A row of digits stands for the number with these digits, the most significant one first. The digits to the base sixteen have two
forms, of which the small one is written.
-/

namespace SourceRecipes.Text

/-! ### Digits to the base sixteen -/

/-- A digit to the base sixteen, letters in either case. -/
def IsHexDigit (c : Char) : Prop :=
  ('0' ≤ c ∧ c ≤ '9') ∨ ('a' ≤ c ∧ c ≤ 'f') ∨ ('A' ≤ c ∧ c ≤ 'F')

instance : DecidablePred IsHexDigit :=
  fun _ => inferInstanceAs (Decidable (_ ∨ _))

theorem isHexDigit_iff {c : Char} : IsHexDigit c ↔ ∃ value, hexValue? c = some value := by
  rw [IsHexDigit, hexValue?]
  split_ifs with hdigit hlower hupper
  · simp [hdigit]
  · simp [hlower]
  · simp [hupper]
  · simp [hdigit, hlower, hupper]

theorem IsHexDigit.toNat_lt {c : Char} (h : IsHexDigit c) : c.toNat < 128 := by
  rcases h with ⟨-, h⟩ | ⟨-, h⟩ | ⟨-, h⟩
  all_goals exact Nat.lt_of_le_of_lt h (by decide)

theorem hexValue?_hexDigit : ∀ value < 16, hexValue? (hexDigit value) = some value := by
  decide

theorem hexDigit_inj {m n : Nat} (hm : m < 16) (hn : n < 16) (h : hexDigit m = hexDigit n) : m = n := by
  have hvalue : some m = some n := by rw [← hexValue?_hexDigit m hm, ← hexValue?_hexDigit n hn, h]
  exact Option.some.inj hvalue

theorem hexDigit_lt_hexDigit : ∀ m < 16, ∀ n < 16, m < n → hexDigit m < hexDigit n := by
  decide

theorem toNat_hexDigit_lt : ∀ value < 16, (hexDigit value).toNat < 128 := by
  decide

theorem hexValue?_lt {c : Char} {value : Nat} (h : hexValue? c = some value) : value < 16 := by
  rw [hexValue?] at h
  split_ifs at h with hdigit hlower hupper
  · have hle : c.toNat ≤ 57 := hdigit.2
    have hvalue : c.toNat - 48 = value := Option.some.inj h
    omega
  · have hle : c.toNat ≤ 102 := hlower.2
    have hvalue : c.toNat - 97 + 10 = value := Option.some.inj h
    omega
  · have hle : c.toNat ≤ 70 := hupper.2
    have hvalue : c.toNat - 65 + 10 = value := Option.some.inj h
    omega

theorem hexValue?_ofNat : ∀ n < 128, ∀ value < 16,
    (hexValue? (Char.ofNat n) = some value ↔ (Char.ofNat n).toLower = hexDigit value) := by
  decide +kernel

theorem toLower_of_not_lt {c : Char} (h : ¬ c.toNat < 128) : c.toLower = c := by
  have hupper : ¬ (c.val ≥ 'A'.val ∧ c.val ≤ 'Z'.val) := fun hle => h (Nat.lt_of_le_of_lt hle.2 (by decide))
  exact dif_neg hupper

/-- The digits of a value are those whose small form is written for it. -/
theorem hexValue?_eq_some_iff {c : Char} {value : Nat} :
    hexValue? c = some value ↔ value < 16 ∧ c.toLower = hexDigit value := by
  by_cases hascii : c.toNat < 128
  · have hvalues := hexValue?_ofNat c.toNat hascii
    rw [Char.ofNat_toNat] at hvalues
    constructor
    · intro h
      have hlt := hexValue?_lt h
      exact ⟨hlt, (hvalues value hlt).mp h⟩
    · rintro ⟨hlt, h⟩
      exact (hvalues value hlt).mpr h
  · constructor
    · intro h
      exact absurd (isHexDigit_iff.mpr ⟨value, h⟩).toNat_lt hascii
    · rintro ⟨hlt, h⟩
      rw [toLower_of_not_lt hascii] at h
      exact absurd (h ▸ toNat_hexDigit_lt value hlt) hascii

/-! ### Rows of digits -/

/-- The digits of the decimal system are those that are no letters. -/
theorem isDigit_iff (c : Char) : isDigit c = true ↔ '0' ≤ c ∧ c ≤ '9' := by
  rw [isDigit, digitValue?, hexValue?]
  split_ifs with hdigit hlower hupper
  · have hle : c.toNat ≤ 57 := hdigit.2
    have hlt : c.toNat - 48 < 10 := by omega
    simp [hlt, hdigit]
  · simp [hdigit]
  · simp [hdigit]
  · simp [hdigit]

/-- That digits to a base are those of a number. -/
def IsNumeral (base : Nat) (digits : List Char) (n : Nat) : Prop :=
  digits ≠ [] ∧ ∃ values, List.Forall₂ (fun c value => digitValue? base c = some value) digits values ∧
    n = Nat.ofDigits base values.reverse

theorem ofDigits_reverse_cons (base value : Nat) (values : List Nat) :
    Nat.ofDigits base (value :: values).reverse = Nat.ofDigits base values.reverse + base ^ values.length * value := by
  rw [List.reverse_cons, Nat.ofDigits_append, List.length_reverse, Nat.ofDigits_singleton]

/-- What was read before the digits counts once more for each of them. -/
theorem foldlM_digits_eq_some_iff {base : Nat} {digits : List Char} {start n : Nat} :
    digits.foldlM (fun n c => (digitValue? base c).map (base * n + ·)) start = some n ↔
      ∃ values, List.Forall₂ (fun c value => digitValue? base c = some value) digits values ∧
        n = Nat.ofDigits base values.reverse + base ^ values.length * start := by
  induction digits generalizing start with
  | nil => simp [eq_comm]
  | cons c rest ih =>
    have hstep : ∀ (value : Nat) (values : List Nat),
        Nat.ofDigits base values.reverse + base ^ values.length * (base * start + value) =
          Nat.ofDigits base (value :: values).reverse + base ^ (value :: values).length * start := by
      intro value values
      rw [ofDigits_reverse_cons, List.length_cons]
      ring
    rw [List.foldlM_cons, Option.bind_eq_bind, Option.bind_eq_some_iff]
    simp only [Option.map_eq_some_iff, ih, List.forall₂_cons_left_iff]
    constructor
    · rintro ⟨_, ⟨value, hvalue, rfl⟩, values, hvalues, rfl⟩
      exact ⟨value :: values, ⟨value, values, hvalue, hvalues, rfl⟩, hstep value values⟩
    · rintro ⟨_, ⟨value, values, hvalue, hvalues, rfl⟩, rfl⟩
      exact ⟨_, ⟨value, hvalue, rfl⟩, values, hvalues, (hstep value values).symm⟩

theorem number?_eq_some_iff {base : Nat} {digits : List Char} {n : Nat} :
    number? base digits = some n ↔ IsNumeral base digits n := by
  rw [number?, IsNumeral]
  split_ifs with hempty
  · simp [List.isEmpty_iff.mp hempty]
  · rw [foldlM_digits_eq_some_iff]
    simp only [Nat.mul_zero, Nat.add_zero]
    exact (and_iff_right (by simpa using hempty)).symm

theorem IsNumeral.forall_isSome {base : Nat} {digits : List Char} {n : Nat} (h : IsNumeral base digits n) :
    ∀ c ∈ digits, (digitValue? base c).isSome = true := by
  obtain ⟨-, values, hvalues, -⟩ := h
  induction hvalues with
  | nil => exact List.forall_mem_nil _
  | cons hvalue _ ih =>
    rw [List.forall_mem_cons, hvalue]
    exact ⟨rfl, ih⟩

end SourceRecipes.Text
