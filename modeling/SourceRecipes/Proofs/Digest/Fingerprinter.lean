import SourceRecipes.Digest.ContentHash
import SourceRecipes.Proofs.Digest.Field

/-!
# Rows of fields

A fingerprint in the making is fed with its kind and then with texts. Whatever bytes the texts hold, even those of lengths and
of whole fields, the stream can be cut into these fields only: one stream goes on as another one does just when its texts do.
-/

namespace SourceRecipes

open ByteStream

/-- A row of fields is the beginning of another one just if its texts are, since the front field can be cut off both. -/
theorem ByteStream.flatMap_field_isPrefix_iff {texts texts' : List String} (h : ∀ t ∈ texts, Fits t)
    (h' : ∀ t ∈ texts', Fits t) : texts.flatMap field <+: texts'.flatMap field ↔ texts <+: texts' := by
  induction texts generalizing texts' with
  | nil => simp
  | cons t rest ih =>
      cases texts' with
      | nil => simp [field_eq_cons]
      | cons t' rest' =>
          rw [List.forall_mem_cons] at h h'
          rw [List.flatMap_cons, List.flatMap_cons, List.cons_prefix_cons, ← ih h.2 h'.2]
          constructor
          · rintro ⟨tail, htail⟩
            rw [List.append_assoc] at htail
            obtain ⟨hfield, hrest⟩ := field_append_inj h.1 h'.1 htail
            exact ⟨hfield, tail, hrest⟩
          · rintro ⟨rfl, hrest⟩
            exact (List.prefix_append_right_inj _).mpr hrest

theorem ByteStream.flatMap_field_eq_iff {texts texts' : List String} (h : ∀ t ∈ texts, Fits t)
    (h' : ∀ t ∈ texts', Fits t) : texts.flatMap field = texts'.flatMap field ↔ texts = texts' := by
  constructor
  · intro heq
    have hprefix : texts <+: texts' := (flatMap_field_isPrefix_iff h h').mp (heq ▸ List.prefix_rfl)
    have hprefix' : texts' <+: texts := (flatMap_field_isPrefix_iff h' h).mp (heq ▸ List.prefix_rfl)
    exact hprefix.eq_of_length_le hprefix'.length_le
  · exact congrArg _

namespace Fingerprinter

theorem fed_foldl_field (texts : List String) (f : Fingerprinter) :
    (texts.foldl field f).fed = f.fed ++ texts.flatMap ByteStream.field := by
  induction texts generalizing f with
  | nil => exact (List.append_nil f.fed).symm
  | cons t rest ih => rw [List.foldl_cons, ih, field, List.append_assoc, List.flatMap_cons]

/-- The kind is fed like any other text. -/
theorem fed_foldl_field_new (kind : String) (texts : List String) :
    (texts.foldl field (new kind)).fed = (kind :: texts).flatMap ByteStream.field := by
  rw [fed_foldl_field, new, List.flatMap_cons]

/-- Fingerprints that are fed with texts have one stream only if their kinds and all their texts are the same, so neither an empty
text nor the place where one text ends and the next one begins can be mistaken. The stream of one is the beginning of the stream of the
other only if the other one is of this kind and was fed with further texts. -/
theorem fed_eq_iff_of_fits {kind kind' : String} {texts texts' : List String} (h : ∀ t ∈ kind :: texts, Fits t)
    (h' : ∀ t ∈ kind' :: texts', Fits t) :
    ((texts.foldl field (new kind)).fed = (texts'.foldl field (new kind')).fed ↔ kind = kind' ∧ texts = texts') ∧
      ((texts.foldl field (new kind)).fed <+: (texts'.foldl field (new kind')).fed ↔ kind = kind' ∧ texts <+: texts') := by
  rw [fed_foldl_field_new, fed_foldl_field_new, flatMap_field_eq_iff h h', flatMap_field_isPrefix_iff h h',
    List.cons.injEq, List.cons_prefix_cons]
  exact ⟨Iff.rfl, Iff.rfl⟩

/-- A text that spells an empty field is not mistaken for two empty texts, nor for a text that is cut in two. -/
theorem fed_ne_of_spelled_field :
    (∀ t ∈ ["text", "\x00\x00\x00\x00\x00\x00\x00\x00"], Fits t) ∧ (∀ t ∈ ["text", "", ""], Fits t) ∧
      (["\x00\x00\x00\x00\x00\x00\x00\x00"].foldl field (new "text")).fed ≠ (["", ""].foldl field (new "text")).fed := by
  refine ⟨by decide, by decide, fun heq => ?_⟩
  have hsame := (fed_eq_iff_of_fits (by decide) (by decide)).1.mp heq
  exact absurd hsame (by decide)

end Fingerprinter

end SourceRecipes
