import SourceRecipes.Path
import Mathlib.Data.List.Basic

/-!
# Paths and their texts

The text of a path is a normal form: reading it gives the path back.
-/

namespace SourceRecipes

theorem pieces_of_no_separator {text : List Char} (h : ∀ c ∈ text, isSeparator c = false) : pieces text = [text] := by
  induction text with
  | nil => rfl
  | cons c rest ih =>
    simp only [List.mem_cons, forall_eq_or_imp] at h
    rw [pieces, ih h.2]
    simp [h.1]

theorem pieces_append_separator {text : List Char} (h : ∀ c ∈ text, isSeparator c = false) {separator : Char}
    (hseparator : isSeparator separator = true) (rest : List Char) :
    pieces (text ++ separator :: rest) = text :: pieces rest := by
  induction text with
  | nil =>
    rw [List.nil_append, pieces]
    simp [hseparator]
  | cons c text ih =>
    simp only [List.mem_cons, forall_eq_or_imp] at h
    rw [List.cons_append, pieces, ih h.2]
    simp [h.1]

namespace IsSegment

variable {segment : String}

theorem not_isSeparator (h : IsSegment segment) : ∀ c ∈ segment.toList, isSeparator c = false := by
  simpa using h.2

theorem toList_ne_nil (h : IsSegment segment) : segment.toList ≠ [] := by
  have hkept := h.1
  simp only [isKept, Bool.and_eq_true, bne_iff_ne] at hkept
  exact hkept.1

end IsSegment

namespace SourcePath

/-- The slashes that join segments fall between the pieces, one for each segment. -/
theorem filter_pieces_joined (segments : List String) (h : ∀ segment ∈ segments, IsSegment segment) :
    (pieces (joined segments)).filter isKept = segments.map String.toList := by
  induction segments with
  | nil => rfl
  | cons segment rest ih =>
    simp only [List.mem_cons, forall_eq_or_imp] at h
    have hrest := ih h.2
    cases rest with
    | nil =>
      rw [joined, pieces_of_no_separator h.1.not_isSeparator]
      simp [h.1.1]
    | cons next others =>
      rw [joined, pieces_append_separator h.1.not_isSeparator rfl, List.filter_cons_of_pos h.1.1, hrest]
      · rfl
      · simp

theorem keptPieces_text (p : SourcePath) : keptPieces p.text = p.segments := by
  have hjoined : (pieces p.text.toList).filter isKept = p.segments.map String.toList := by
    rw [← filter_pieces_joined p.segments p.isSegment]
    cases habsolute : p.absolute with
    | false => simp [text, habsolute]
    | true =>
      -- The slash in front adds an empty piece, which is not kept.
      simp [text, habsolute, pieces, isSeparator, isKept]
  rw [keptPieces, hjoined, List.map_map]
  simp [Function.comp_def]

theorem startsAtRoot_text (p : SourcePath) : startsAtRoot p.text = p.absolute := by
  cases habsolute : p.absolute with
  | true => simp [startsAtRoot, text, habsolute, isSeparator]
  | false =>
    obtain ⟨segment, rest, hsegments⟩ := List.exists_cons_of_ne_nil p.segments_ne_nil
    have hsegment : IsSegment segment := p.isSegment segment (by simp [hsegments])
    obtain ⟨c, others, hc⟩ := List.exists_cons_of_ne_nil hsegment.toList_ne_nil
    have hnot : isSeparator c = false := hsegment.not_isSeparator c (by simp [hc])
    have htext : ∃ tail, p.text.toList = c :: tail := by
      cases rest with
      | nil => exact ⟨others, by simp [text, habsolute, hsegments, joined, hc]⟩
      | cons next more => exact ⟨others ++ '/' :: joined (next :: more), by simp [text, habsolute, hsegments, joined, hc]⟩
    obtain ⟨tail, htail⟩ := htext
    simp [startsAtRoot, htail, hnot]

theorem parse_text (p : SourcePath) : parse p.text = .ok p := by
  have hkept : keptPieces p.text ≠ [] := by
    rw [keptPieces_text]
    exact p.segments_ne_nil
  rw [parse, dif_pos hkept]
  cases p
  simp [keptPieces_text, startsAtRoot_text]

end SourcePath

end SourceRecipes
