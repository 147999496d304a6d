import SourceRecipes.Recipe.Strategy
import SourceRecipes.Proofs.Data.Entries
import Mathlib.Data.List.TakeWhile

/-!
# What asks for a strategy

A text asks for a strategy when there is nothing but blanks around its word, in letters of either case. Any other text asks
to leave the file.
-/

namespace SourceRecipes

namespace Text

theorem dropWhile_isBlank {text : List Char} (h : ∀ c ∈ text, isBlank c = false) : text.dropWhile isBlank = text := by
  cases text with
  | nil => rfl
  | cons c rest => simp [h c (.head rest)]

theorem trimList_append {before middle after : List Char} (hbefore : ∀ c ∈ before, isBlank c = true)
    (hmiddle : ∀ c ∈ middle, isBlank c = false) (hafter : ∀ c ∈ after, isBlank c = true) :
    trimList (before ++ middle ++ after) = middle := by
  rw [trimList, List.append_assoc, List.dropWhile_append_of_pos hbefore]
  cases middle with
  | nil =>
    have hnil : after.dropWhile isBlank = [] := List.dropWhile_eq_nil_iff.mpr hafter
    simp [hnil]
  | cons c middle =>
    have hkept : (c :: middle ++ after).dropWhile isBlank = c :: middle ++ after := by simp [hmiddle c (.head middle)]
    have hreverse : ∀ d ∈ (c :: middle).reverse, isBlank d = false := fun d hd => hmiddle d (List.mem_reverse.mp hd)
    rw [hkept, List.reverse_append, List.dropWhile_append_of_pos fun d hd => hafter d (List.mem_reverse.mp hd),
      dropWhile_isBlank hreverse, List.reverse_reverse]

theorem exists_trimList (text : List Char) :
    ∃ before after, text = before ++ trimList text ++ after ∧ (∀ c ∈ before, isBlank c = true) ∧
      ∀ c ∈ after, isBlank c = true := by
  refine ⟨text.takeWhile isBlank, ((text.dropWhile isBlank).reverse.takeWhile isBlank).reverse, ?_, ?_, ?_⟩
  · rw [trimList, List.append_assoc, ← List.reverse_append, List.takeWhile_append_dropWhile, List.reverse_reverse,
      List.takeWhile_append_dropWhile]
  · intro c hc
    exact List.mem_takeWhile_imp hc
  · intro c hc
    exact List.mem_takeWhile_imp (List.mem_reverse.mp hc)

theorem toLower_of_isBlank {c : Char} (h : isBlank c = true) : c.toLower = c := by
  have hrange : ¬ (65 ≤ c.toNat ∧ c.toNat ≤ 90) := by
    simp only [isBlank, blankRanges, List.any_cons, List.any_nil, Bool.or_eq_true, Bool.and_eq_true, decide_eq_true_eq,
      Bool.false_eq_true, or_false] at h
    omega
  have hletter : ¬ (c.val ≥ 'A'.val ∧ c.val ≤ 'Z'.val) := hrange
  exact dif_neg hletter

end Text

namespace ExistingFileStrategy

/-- That a text is a word with blanks around it, in letters of either case. -/
def Names (raw word : String) : Prop :=
  ∃ before middle after : List Char, raw.toList = before ++ middle ++ after ∧
    (∀ c ∈ before, Text.isBlank c = true) ∧ (∀ c ∈ after, Text.isBlank c = true) ∧
    middle.map Char.toLower = word.toList

theorem asciiLower_trim_eq_iff {raw word : String} (hword : ∀ c ∈ word.toList, Text.isBlank c = false) :
    Text.asciiLower (Text.trim raw) = word ↔ Names raw word := by
  have hlower : Text.asciiLower (Text.trim raw) = word ↔ (Text.trimList raw.toList).map Char.toLower = word.toList := by
    rw [Text.asciiLower, Text.trim, String.toList_ofList, ← String.toList_inj, String.toList_ofList]
  rw [hlower]
  constructor
  · intro h
    obtain ⟨before, after, htext, hbefore, hafter⟩ := Text.exists_trimList raw.toList
    exact ⟨before, _, after, htext, hbefore, hafter, h⟩
  · rintro ⟨before, middle, after, htext, hbefore, hafter, hmiddle⟩
    -- The word has no blanks, and a blank would still be one in lower case.
    have hkept : ∀ c ∈ middle, Text.isBlank c = false := by
      intro c hc
      by_contra hblank
      rw [Bool.not_eq_false] at hblank
      have hmem : c.toLower ∈ word.toList := hmiddle ▸ List.mem_map_of_mem hc
      rw [Text.toLower_of_isBlank hblank] at hmem
      exact absurd (hword c hmem) (by simp [hblank])
    rw [htext, Text.trimList_append hbefore hkept hafter, hmiddle]

theorem ofText_eq_extend_iff (raw : String) : ofText raw = extend ↔ Names raw "continue" := by
  rw [← asciiLower_trim_eq_iff (by simp [Text.isBlank, Text.blankRanges]), ofText]
  split_ifs with hextend hreplace <;> simp [hextend]

theorem ofText_eq_replace_iff (raw : String) : ofText raw = replace ↔ Names raw "replace" := by
  rw [← asciiLower_trim_eq_iff (by simp [Text.isBlank, Text.blankRanges]), ofText]
  split_ifs with hextend hreplace
  · simp [hextend]
  · simp [hreplace]
  · simp [hreplace]

theorem read_string (raw : String) :
    (ExistingFileStrategy.read : FromValue ExistingFileStrategy) (.string raw) = .ok (.ofText raw) := rfl

end ExistingFileStrategy

end SourceRecipes
