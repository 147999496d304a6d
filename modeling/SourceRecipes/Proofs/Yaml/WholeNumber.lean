import SourceRecipes.Proofs.Text.Digits
import SourceRecipes.Yaml.Scalar

/-!
# How whole numbers are written

A whole number is written with an optional sign and with digits to one of four bases. A text of this form stands for a number
of any size, but one that fits 128 bits and not 64 is not kept. Every other plain text is.
-/

namespace SourceRecipes.Yaml

open Text (IsNumeral)

/-- Digits without a sign: to the base ten without needless zeros, or to another base after a mark that names it. -/
inductive Magnitude : List Char → Nat → Prop
  | decimal {digits : List Char} {n : Nat} (h : IsNumeral 10 digits n) (hzero : digits = ['0'] ∨ digits.head? ≠ some '0') :
      Magnitude digits n
  | hexadecimal {digits : List Char} {n : Nat} (h : IsNumeral 16 digits n) : Magnitude ('0' :: 'x' :: digits) n
  | octal {digits : List Char} {n : Nat} (h : IsNumeral 8 digits n) : Magnitude ('0' :: 'o' :: digits) n
  | binary {digits : List Char} {n : Nat} (h : IsNumeral 2 digits n) : Magnitude ('0' :: 'b' :: digits) n

/-- That a text is a whole number, written with or without a sign. -/
inductive WholeNumber : List Char → Int → Prop
  | unsigned {digits : List Char} {n : Nat} (h : Magnitude digits n) : WholeNumber digits n
  | positive {digits : List Char} {n : Nat} (h : Magnitude digits n) : WholeNumber ('+' :: digits) n
  | negative {digits : List Char} {n : Nat} (h : Magnitude digits n) : WholeNumber ('-' :: digits) (-n)

theorem ne_of_isDigit {c d : Char} (hc : Text.isDigit c = true) (hd : Text.isDigit d = false) : c ≠ d := by
  rintro rfl
  rw [hc] at hd
  contradiction

theorem Magnitude.exists_cons {digits : List Char} {n : Nat} (h : Magnitude digits n) :
    ∃ c rest, digits = c :: rest ∧ Text.isDigit c = true := by
  cases h with
  | decimal h _ =>
    obtain ⟨c, rest, rfl⟩ := List.exists_cons_of_ne_nil h.1
    exact ⟨c, rest, rfl, h.forall_isSome c List.mem_cons_self⟩
  | hexadecimal => exact ⟨'0', _, rfl, by decide⟩
  | octal => exact ⟨'0', _, rfl, by decide⟩
  | binary => exact ⟨'0', _, rfl, by decide⟩

theorem dropPlus_cons_of_isDigit {c : Char} (hc : Text.isDigit c = true) (rest : List Char) :
    dropPlus (c :: rest) = c :: rest := by
  have hplus : c ≠ '+' := ne_of_isDigit hc (by decide)
  unfold dropPlus
  split <;> simp_all

theorem dropSign_cons_of_isDigit {c : Char} (hc : Text.isDigit c = true) (rest : List Char) :
    dropSign (c :: rest) = c :: rest := by
  have hplus : c ≠ '+' := ne_of_isDigit hc (by decide)
  have hminus : c ≠ '-' := ne_of_isDigit hc (by decide)
  unfold dropSign
  split <;> simp_all

/-- Among digits the needless zeros are those that come first and not alone. -/
theorem hasIdleZero_eq_false_iff {digits : List Char} (hdigits : ∀ c ∈ digits, Text.isDigit c = true) :
    hasIdleZero digits = false ↔ digits = ['0'] ∨ digits.head? ≠ some '0' := by
  rw [hasIdleZero]
  cases digits with
  | nil => simp [dropSign]
  | cons c rest =>
    rw [dropSign_cons_of_isDigit (hdigits c List.mem_cons_self)]
    by_cases hc : c = '0'
    · subst hc
      cases rest with
      | nil => simp
      | cons d rest =>
        have hall : (d :: rest).all Text.isDigit = true := List.all_eq_true.mpr fun e he => hdigits e (.tail _ he)
        simpa using hall
    · simp [hc]

theorem magnitude?_of_isNumeral {digits : List Char} {n : Nat} (h : IsNumeral 10 digits n)
    (hzero : digits = ['0'] ∨ digits.head? ≠ some '0') : magnitude? digits = some n := by
  -- The mark of another base is no digit.
  have hmark : ∀ mark rest, Text.isDigit mark = false → digits ≠ '0' :: mark :: rest := by
    rintro mark rest hmark rfl
    have hdigit : Text.isDigit mark = true := h.forall_isSome mark (by simp)
    rw [hmark] at hdigit
    contradiction
  unfold magnitude?
  split
  · next rest => exact absurd rfl (hmark 'x' rest (by decide))
  · next rest => exact absurd rfl (hmark 'o' rest (by decide))
  · next rest => exact absurd rfl (hmark 'b' rest (by decide))
  · rw [(hasIdleZero_eq_false_iff h.forall_isSome).mpr hzero]
    exact Text.number?_eq_some_iff.mpr h

theorem magnitude?_eq_some_iff {digits : List Char} {n : Nat} : magnitude? digits = some n ↔ Magnitude digits n := by
  constructor
  · intro h
    unfold magnitude? at h
    split at h
    · exact .hexadecimal (Text.number?_eq_some_iff.mp h)
    · exact .octal (Text.number?_eq_some_iff.mp h)
    · exact .binary (Text.number?_eq_some_iff.mp h)
    · split_ifs at h with hzero
      have hnumeral := Text.number?_eq_some_iff.mp h
      refine .decimal hnumeral ((hasIdleZero_eq_false_iff hnumeral.forall_isSome).mp ?_)
      simpa using hzero
  · intro h
    cases h with
    | decimal h hzero => exact magnitude?_of_isNumeral h hzero
    | hexadecimal h => exact Text.number?_eq_some_iff.mpr h
    | octal h => exact Text.number?_eq_some_iff.mpr h
    | binary h => exact Text.number?_eq_some_iff.mpr h

theorem integerOf?_eq_some_iff {text : String} {n : Int} : integerOf? text = some n ↔ WholeNumber text.toList n := by
  rw [integerOf?]
  constructor
  · intro h
    split at h
    · next rest htext =>
      simp only [Option.map_eq_some_iff, Option.bind_eq_bind, Option.bind_eq_some_iff, Option.pure_def] at h
      obtain ⟨_, ⟨m, hm, hcast⟩, rfl⟩ := h
      obtain rfl := Option.some.inj hcast
      rw [htext]
      exact .negative (magnitude?_eq_some_iff.mp hm)
    · obtain ⟨m, hm, rfl⟩ := Option.map_eq_some_iff.mp h
      rw [magnitude?_eq_some_iff] at hm
      generalize text.toList = digits at *
      unfold dropPlus at hm
      split at hm
      · exact .positive hm
      · exact .unsigned hm
  · intro h
    generalize text.toList = digits at *
    cases h with
    | positive h =>
      exact Option.map_eq_some_iff.mpr ⟨_, magnitude?_eq_some_iff.mpr h, rfl⟩
    | negative h =>
      simp [magnitude?_eq_some_iff.mpr h]
    | unsigned h =>
      obtain ⟨c, rest, rfl, hc⟩ := h.exists_cons
      have hminus : c ≠ '-' := ne_of_isDigit hc (by decide)
      split
      · next htext => exact absurd (List.cons.inj htext).1 hminus
      · rw [dropPlus_cons_of_isDigit hc]
        exact Option.map_eq_some_iff.mpr ⟨_, magnitude?_eq_some_iff.mpr h, rfl⟩

/-! ### Numbers that are not kept -/

/-- That a number fits 128 bits but not 64, with a sign if it has one. -/
def IsWide (n : Int) : Prop :=
  2 ^ 64 ≤ n ∧ n < 2 ^ 128 ∨ -2 ^ 127 ≤ n ∧ n < -2 ^ 63

theorem isWide_iff {n : Int} {type : IntegerType} (h : IntegerType.of? n = some type) :
    IsWide n ↔ type = .unsigned128 ∨ type = .signed128 := by
  rw [IntegerType.of?] at h
  rw [IsWide]
  split_ifs at h
  all_goals
    obtain rfl := Option.some.inj h
    simp
    omega

theorem exists_of?_of_isWide {n : Int} (h : IsWide n) : ∃ type, IntegerType.of? n = some type := by
  rw [IsWide] at h
  rw [IntegerType.of?]
  split_ifs
  all_goals first | exact ⟨_, rfl⟩ | omega

/-- That a text is a whole number which fits 128 bits but not 64. -/
def SpellsWideNumber (text : String) : Prop :=
  ∃ n, WholeNumber text.toList n ∧ IsWide n

/-- That a datum is a whole number which is handed over but not kept. -/
def IsWideDatum (datum : Datum) : Prop :=
  ∃ type n, datum = .integer type n ∧ (type = .unsigned128 ∨ type = .signed128)

theorem IsWideDatum.value?_eq_none {datum : Datum} (h : IsWideDatum datum) : datum.value? = none := by
  obtain ⟨_, _, rfl, rfl | rfl⟩ := h <;> rfl

theorem integerDatum?_of_spellsWideNumber {text : String} (h : SpellsWideNumber text) :
    ∃ datum, integerDatum? text = some datum ∧ IsWideDatum datum := by
  obtain ⟨n, hn, hwide⟩ := h
  have hne : n ≠ 0 := by
    rw [IsWide] at hwide
    omega
  obtain ⟨type, htype⟩ := exists_of?_of_isWide hwide
  refine ⟨.integer type n, ?_, type, n, rfl, (isWide_iff htype).mp hwide⟩
  rw [integerDatum?, integerOf?_eq_some_iff.mpr hn]
  simp only [hne, decide_false, Bool.false_and, Bool.false_eq_true, if_false, htype, Option.map_some]

/-- A text that is no wide number is no number, or one too large for a whole number, or is kept as a number. -/
theorem integerDatum?_of_not_spellsWideNumber {text : String} (h : ¬ SpellsWideNumber text) :
    integerDatum? text = none ∨
      ∃ n datum v, WholeNumber text.toList n ∧ integerDatum? text = some datum ∧ datum.value? = some v ∧
        (v = .integer n ∨ v = .real (.zero true)) := by
  rw [integerDatum?]
  cases hinteger : integerOf? text with
  | none => exact Or.inl rfl
  | some n =>
    have hn := integerOf?_eq_some_iff.mp hinteger
    have hnarrow : ¬ IsWide n := fun hwide => h ⟨n, hn, hwide⟩
    dsimp only
    split_ifs
    · exact Or.inr ⟨n, _, _, hn, rfl, rfl, Or.inr rfl⟩
    · cases htype : IntegerType.of? n with
      | none => exact Or.inl rfl
      | some type =>
        rw [isWide_iff htype] at hnarrow
        refine Or.inr ⟨n, .integer type n, .integer n, hn, rfl, ?_, Or.inl rfl⟩
        cases type with
        | unsigned64 | signed64 => rfl
        | unsigned128 | signed128 => simp at hnarrow

end SourceRecipes.Yaml
