import SourceRecipes.Proofs.Data.Outcome
import SourceRecipes.Proofs.Yaml.WholeNumber

/-!
# Plain scalars

A plain scalar is a null or a truth value only if it is one of a few words, and a number only if it begins as one. All other
plain scalars are texts, and only whole numbers of a certain size are not kept.
-/

namespace SourceRecipes.Yaml

/-- Whether a text begins as numbers may begin. -/
def startsNumber (text : List Char) : Bool :=
  text.head?.any fun c => Text.isDigit c || c == '+' || c == '-' || c == '.'

theorem WholeNumber.startsNumber {text : List Char} {n : Int} (h : WholeNumber text n) : startsNumber text = true := by
  cases h with
  | unsigned h =>
    obtain ⟨c, rest, rfl, hc⟩ := h.exists_cons
    simp [Yaml.startsNumber, hc]
  | positive => rfl
  | negative => rfl

theorem startsNumber_of_decimalOf? {negative : Bool} {text : List Char} {x : Double}
    (h : decimalOf? negative text = some x) : startsNumber text = true := by
  cases text with
  | nil => nomatch h
  | cons c rest =>
    cases hc : Text.isDigit c with
    | true => simp [startsNumber, hc]
    | false =>
      -- Without a digit in front there are digits only after a point.
      by_cases hpoint : c = '.'
      · simp [startsNumber, hpoint]
      · simp [decimalOf?, hc, hpoint, Text.number?] at h

theorem startsNumber_of_dropPlus {text : List Char} (h : startsNumber (dropPlus text) = true) : startsNumber text = true := by
  unfold dropPlus at h
  split at h
  · rfl
  · exact h

/-- What `realOf?` makes of the digits after a sign. -/
theorem startsNumber_of_digits {negative : Bool} {digits : List Char} {x : Double}
    (h : (if digits == ".inf".toList || digits == ".Inf".toList || digits == ".INF".toList then some (.infinite negative)
      else (decimalOf? negative digits).filter Double.isFinite) = some x) : startsNumber digits = true := by
  split_ifs at h with hinfinite
  · simp only [Bool.or_eq_true, beq_iff_eq] at hinfinite
    rcases hinfinite with (rfl | rfl) | rfl <;> decide
  · exact startsNumber_of_decimalOf? (Option.filter_eq_some_iff.mp h).1

theorem startsNumber_of_realOf? {text : String} {x : Double} (h : realOf? text = some x) :
    startsNumber text.toList = true := by
  rw [realOf?] at h
  split_ifs at h with hnan
  · simp only [Bool.or_eq_true, beq_iff_eq] at hnan
    rcases hnan with (rfl | rfl) | rfl <;> decide
  · split at h
    next hsign =>
    have hdigits := startsNumber_of_digits h
    split at hsign
    · next htext => rw [htext]; rfl
    · obtain ⟨-, rfl⟩ := Prod.mk.inj hsign
      exact startsNumber_of_dropPlus hdigits

/-- The plain scalars that are nulls and truth values. -/
def typedWords : List String :=
  ["", "null", "Null", "NULL", "~", "true", "True", "TRUE", "false", "False", "FALSE"]

theorem startsNumber_of_mem_typedWords : ∀ word ∈ typedWords, startsNumber word.toList = false := by
  decide

theorem mem_typedWords_of_isNullText {text : String} (h : (text.isEmpty || isNullText text) = true) :
    text ∈ typedWords := by
  simp only [isNullText, Bool.or_eq_true, beq_iff_eq, String.isEmpty_iff] at h
  rcases h with rfl | ((rfl | rfl) | rfl) | rfl <;> decide

theorem mem_typedWords_of_boolOf? {text : String} {b : Bool} (h : boolOf? text = some b) : text ∈ typedWords := by
  rw [boolOf?] at h
  split_ifs at h with htrue hfalse
  · simp only [Bool.or_eq_true, beq_iff_eq] at htrue
    rcases htrue with (rfl | rfl) | rfl <;> decide
  · simp only [Bool.or_eq_true, beq_iff_eq] at hfalse
    rcases hfalse with (rfl | rfl) | rfl <;> decide

/-- That a text may be the plain scalar of something that is no text. -/
def MayBeTyped (text : String) : Prop :=
  text ∈ typedWords ∨ startsNumber text.toList = true

theorem not_mem_typedWords {text : String} (h : startsNumber text.toList = true) : text ∉ typedWords := by
  intro hmem
  rw [startsNumber_of_mem_typedWords text hmem] at h
  contradiction

theorem plainDatum_of_spellsWideNumber {text : String} (h : SpellsWideNumber text) : IsWideDatum (plainDatum text) := by
  obtain ⟨n, hn, -⟩ := id h
  have hword := not_mem_typedWords hn.startsNumber
  have hbool : boolOf? text = none := Option.eq_none_iff_forall_ne_some.mpr fun _ hbool =>
    hword (mem_typedWords_of_boolOf? hbool)
  obtain ⟨datum, hdatum, hwide⟩ := integerDatum?_of_spellsWideNumber h
  rw [plainDatum, if_neg fun hnull => hword (mem_typedWords_of_isNullText hnull), hbool]
  dsimp only
  rwa [hdatum]

/-- Every other plain scalar has a value, and one that is no text may be typed. -/
theorem exists_value?_plainDatum {text : String} (h : ¬ SpellsWideNumber text) :
    ∃ v, (plainDatum text).value? = some v ∧ (v = .string text ∨ (∀ raw, v ≠ .string raw) ∧ MayBeTyped text) := by
  rw [plainDatum]
  by_cases hnull : (text.isEmpty || isNullText text) = true
  · rw [if_pos hnull]
    exact ⟨.null, rfl, Or.inr ⟨by simp, Or.inl (mem_typedWords_of_isNullText hnull)⟩⟩
  · rw [if_neg hnull]
    cases hbool : boolOf? text with
    | some b => exact ⟨.bool b, rfl, Or.inr ⟨by simp, Or.inl (mem_typedWords_of_boolOf? hbool)⟩⟩
    | none =>
      rcases integerDatum?_of_not_spellsWideNumber h with hinteger | ⟨n, datum, v, hn, hinteger, hv, hnumber⟩
      · cases hreal : if hasIdleZero text.toList then none else realOf? text with
        | some x =>
          have hstarts : startsNumber text.toList = true := by
            split_ifs at hreal
            exact startsNumber_of_realOf? hreal
          exact ⟨.real x, by rw [hinteger]; rfl, Or.inr ⟨by simp, Or.inr hstarts⟩⟩
        | none => exact ⟨.string text, by rw [hinteger]; rfl, Or.inl rfl⟩
      · refine ⟨v, by rw [hinteger]; exact hv, Or.inr ⟨?_, Or.inr hn.startsNumber⟩⟩
        rcases hnumber with rfl | rfl <;> simp

end SourceRecipes.Yaml
