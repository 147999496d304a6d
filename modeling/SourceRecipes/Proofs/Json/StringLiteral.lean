import SourceRecipes.Json.StringLiteral
import SourceRecipes.Proofs.Data.Outcome
import SourceRecipes.Proofs.Text.Digits

/-!
# Strings read, skipped and written

A written string is read back, whatever follows it. A string that can be read can be skipped, with the same rest.
-/

namespace SourceRecipes.Json

/-- Adding the character that an escape stands for to what is read after it. -/
abbrev withChar (c : Char) (result : List Char × List Char) : List Char × List Char :=
  (c :: result.1, result.2)

theorem readString_shortEscape {c d : Char} (h : shortEscape? c = some d) (rest : List Char) :
    readString .plain ('\\' :: c :: rest) = (readString .plain rest).map (withChar d) := by
  simp [readString, h]

theorem readString_unicodeEscape {c : Char} (h : c.toNat < 0x20) (rest : List Char) :
    readString .plain ('\\' :: 'u' :: '0' :: '0' :: Text.hexDigit (c.toNat / 16) :: Text.hexDigit (c.toNat % 16) :: rest) =
      (readString .plain rest).map (withChar c) := by
  have hhigh : Text.hexValue? (Text.hexDigit (c.toNat / 16)) = some (c.toNat / 16) :=
    Text.hexValue?_hexDigit _ (by omega)
  have hlow : Text.hexValue? (Text.hexDigit (c.toNat % 16)) = some (c.toNat % 16) :=
    Text.hexValue?_hexDigit _ (by omega)
  have hzero : Text.hexValue? '0' = some 0 := by decide
  have hu : shortEscape? 'u' = none := by decide
  have hvalue : 16 * (c.toNat / 16) + c.toNat % 16 = c.toNat := by omega
  have hnotLow : isLowSurrogate c.toNat = false := by
    simp only [isLowSurrogate, Bool.and_eq_false_iff, decide_eq_false_iff_not]
    omega
  have hnotHigh : isHighSurrogate c.toNat = false := by
    simp only [isHighSurrogate, Bool.and_eq_false_iff, decide_eq_false_iff_not]
    omega
  simp [readString, hzero, hhigh, hlow, hu, hvalue, hnotLow, hnotHigh]

theorem readString_unescaped {c : Char} (hquote : c ≠ '"') (hbackslash : c ≠ '\\') (hcontrol : ¬ c.toNat < 0x20)
    (rest : List Char) : readString .plain (c :: rest) = (readString .plain rest).map (withChar c) := by
  rw [readString, if_neg hquote, if_neg hbackslash, if_neg hcontrol]

theorem readString_escaped (c : Char) (rest : List Char) :
    readString .plain (escaped c ++ rest) = (readString .plain rest).map (withChar c) := by
  unfold escaped
  split_ifs with hquote hbackslash hb hf hn hr ht hcontrol
  · subst hquote
    exact readString_shortEscape rfl rest
  · subst hbackslash
    exact readString_shortEscape rfl rest
  · subst hb
    exact readString_shortEscape rfl rest
  · subst hf
    exact readString_shortEscape rfl rest
  · subst hn
    exact readString_shortEscape rfl rest
  · subst hr
    exact readString_shortEscape rfl rest
  · subst ht
    exact readString_shortEscape rfl rest
  · exact readString_unicodeEscape hcontrol rest
  · exact readString_unescaped hquote hbackslash hcontrol rest

theorem readString_flatMap_escaped (text rest : List Char) :
    readString .plain (text.flatMap escaped ++ '"' :: rest) = .ok (text, rest) := by
  induction text with
  | nil => simp [readString]
  | cons c text ih =>
    rw [List.flatMap_cons, List.append_assoc, readString_escaped, ih]
    rfl

/-! ### Skipping -/

/-- Where the skipping of a string stands when its reading stands at a state. -/
def StringState.skim : StringState → StringState
  | digits _ count _ => digits none count 0
  | afterHigh _ => plain
  | escapeAfterHigh _ => escape
  | state => state

theorem exists_of_map_withChar {x : Except Error (List Char × List Char)} {c : Char} {s rest : List Char}
    (h : x.map (withChar c) = .ok (s, rest)) : ∃ s', x = .ok (s', rest) := by
  obtain ⟨⟨s', after⟩, hx, hpair⟩ := map_eq_ok_iff.mp h
  obtain ⟨-, rfl⟩ := Prod.mk.inj hpair
  exact ⟨s', hx⟩

theorem skipString_skim_of_readString {state : StringState} {text s rest : List Char}
    (h : readString state text = .ok (s, rest)) : skipString state.skim text = .ok rest := by
  induction text generalizing state s with
  | nil => simp [readString] at h
  | cons c text ih =>
    cases state with
    | plain =>
      simp only [readString] at h
      split_ifs at h with hquote hbackslash hcontrol
      · simp only [Except.ok.injEq, Prod.mk.injEq] at h
        simp [StringState.skim, skipString, hquote, h.2]
      · simpa [StringState.skim, skipString, hquote, hbackslash] using ih h
      · obtain ⟨s', hs'⟩ := exists_of_map_withChar h
        simpa [StringState.skim, skipString, hquote, hbackslash, hcontrol] using ih hs'
    | escape =>
      simp only [readString] at h
      split at h
      · next d hd =>
        obtain ⟨s', hs'⟩ := exists_of_map_withChar h
        simpa [StringState.skim, skipString, hd] using ih hs'
      · next hd =>
        split_ifs at h with hu
        subst hu
        simpa [StringState.skim, skipString, hd] using ih h
    | digits high count value =>
      simp only [readString] at h
      split at h
      · contradiction
      · next digit hdigit =>
        by_cases hcount : count < 3
        · rw [if_pos hcount] at h
          simpa [StringState.skim, skipString, hdigit, hcount] using ih h
        · rw [if_neg hcount] at h
          simp only [StringState.skim, skipString, hdigit, if_neg hcount]
          cases high with
          | none =>
            simp only at h
            split_ifs at h with hlow hhigh
            · exact ih h
            · obtain ⟨s', hs'⟩ := exists_of_map_withChar h
              exact ih hs'
          | some high =>
            simp only at h
            split_ifs at h with hlow
            obtain ⟨s', hs'⟩ := exists_of_map_withChar h
            exact ih hs'
    | afterHigh high =>
      simp only [readString] at h
      split_ifs at h with hbackslash
      simpa [StringState.skim, skipString, hbackslash] using ih h
    | escapeAfterHigh high =>
      simp only [readString] at h
      split_ifs at h with hu
      -- No other escape may follow the first half of a pair, while a skipped one may be any.
      have hnotShort : shortEscape? 'u' = none := by decide
      simpa [StringState.skim, skipString, hu, hnotShort] using ih h

theorem length_of_skipString {state : StringState} {text rest : List Char} (h : skipString state text = .ok rest) :
    rest.length < text.length := by
  fun_induction skipString state text <;> grind

theorem skipString_of_readString {text s rest : List Char} (h : readString .plain text = .ok (s, rest)) :
    skipString .plain text = .ok rest :=
  skipString_skim_of_readString h

theorem length_of_readString {text s rest : List Char} (h : readString .plain text = .ok (s, rest)) :
    rest.length < text.length :=
  length_of_skipString (skipString_of_readString h)

end SourceRecipes.Json
