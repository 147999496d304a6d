import SourceRecipes.Proofs.Data.Outcome
import SourceRecipes.Proofs.Path.NormalForm
import SourceRecipes.Proofs.Text.Order

/-!
# Parents and joins

Joining puts the parts of a text after the segments of a path, and the parent lacks the last segment. So both can be told from
the texts alone, undo each other, and a chain of parents is as long as there are segments.
-/

namespace SourceRecipes

theorem IsSegment.partsOf_eq {segment : String} (h : IsSegment segment) : SourcePath.partsOf segment = [segment] := by
  rw [← SourcePath.keptPieces_eq_partsOf, keptPieces, pieces_of_no_separator h.not_isSeparator]
  simp [h.1]

namespace SourcePath

variable {p q : SourcePath} {child : String}

theorem partsOf_append_slash (a b : String) : partsOf (a ++ "/" ++ b) = partsOf a ++ partsOf b := by
  have hlist : (a ++ "/" ++ b).toList = a.toList ++ '/' :: b.toList := by simp
  rw [partsOf, hlist, List.splitOnP_append_cons _ _ rfl, List.filter_append, List.map_append]
  rfl

theorem absolute_iff_head? : p.absolute = true ↔ p.text.toList.head? = some '/' := by
  constructor
  · intro h
    rw [text, String.toList_ofList, if_pos h]
    rfl
  · intro h
    rw [← startsAtRoot_text, startsAtRoot_iff]
    exact Or.inl h

/-! ### Comparing -/

theorem text_injective : Function.Injective text := by
  intro p q h
  have hparse : parse p.text = parse q.text := congrArg parse h
  rwa [parse_text, parse_text, Except.ok.injEq] at hparse

theorem eq_iff_utf8_eq : p = q ↔ Text.utf8 p.text = Text.utf8 q.text :=
  ⟨fun h => h ▸ rfl, fun h => text_injective (Text.utf8_injective h)⟩

/-- Paths with one text agree in being rooted, so this never decides. -/
theorem compare_eq (p q : SourcePath) : compare p q = compareOfLessAndEq p.text q.text := by
  change (compareOfLessAndEq p.text q.text).then (compare p.absolute q.absolute) = _
  by_cases h : p = q
  · subst h
    have hsame : compareOfLessAndEq p.text p.text = .eq := by simp [compareOfLessAndEq]
    have habsolute : compare p.absolute p.absolute = .eq := compare_eq_iff_eq.mpr rfl
    rw [hsame, habsolute]
    rfl
  · have hne : p.text ≠ q.text := fun htext => h (text_injective htext)
    unfold compareOfLessAndEq
    split_ifs <;> rfl

theorem compare_eq_lt_iff : compare p q = .lt ↔ Text.utf8 p.text < Text.utf8 q.text := by
  rw [compare_eq, compareOfLessAndEq_eq_lt, Text.utf8_lt_iff]

theorem compare_eq_eq_iff : compare p q = .eq ↔ p = q := by
  rw [compare_eq, compareOfLessAndEq_eq_eq le_refl not_le, text_injective.eq_iff]

theorem compare_eq_gt_iff : compare p q = .gt ↔ Text.utf8 q.text < Text.utf8 p.text := by
  rw [compare_eq, compareOfLessAndEq_eq_gt le_antisymm le_total not_le, Text.utf8_lt_iff]

/-! ### Joining -/

theorem join_of_partsOf_eq_nil (p : SourcePath) (h : partsOf child = []) : p.join child = .error (.empty child) := by
  rw [join, parse_of_partsOf_eq_nil h]
  rfl

theorem join_eq_ok_iff :
    p.join child = .ok q ↔ partsOf child ≠ [] ∧ q.absolute = p.absolute ∧ q.segments = p.segments ++ partsOf child := by
  rw [join, map_eq_ok_iff]
  constructor
  · rintro ⟨path, hparse, rfl⟩
    obtain ⟨hsegments, -⟩ := parse_eq_ok_iff.mp hparse
    exact ⟨hsegments ▸ path.segments_ne_nil, rfl, hsegments ▸ rfl⟩
  · rintro ⟨hparts, habsolute, hsegments⟩
    obtain ⟨path, hparse⟩ := exists_parse_of_partsOf_ne_nil hparts
    obtain ⟨hpath, -⟩ := parse_eq_ok_iff.mp hparse
    refine ⟨path, hparse, ext_iff.mpr ⟨habsolute.symm, ?_⟩⟩
    rw [hsegments, ← hpath]
    rfl

theorem exists_join (p : SourcePath) (h : partsOf child ≠ []) : ∃ q, p.join child = .ok q := by
  obtain ⟨path, hparse⟩ := exists_parse_of_partsOf_ne_nil h
  exact ⟨p.append path, map_eq_ok_iff.mpr ⟨path, hparse, rfl⟩⟩

theorem text_join (h : p.join child = .ok q) : q.text = p.text ++ "/" ++ "/".intercalate (partsOf child) := by
  obtain ⟨hparts, habsolute, hsegments⟩ := join_eq_ok_iff.mp h
  rw [text_eq_intercalate, text_eq_intercalate, habsolute, hsegments,
    String.intercalate_append_of_ne_nil p.segments_ne_nil hparts]
  simp only [String.append_assoc]

theorem join_append_slash {a b : String} {r : SourcePath} (ha : p.join a = .ok q) (hb : q.join b = .ok r) :
    p.join (a ++ "/" ++ b) = .ok r := by
  obtain ⟨hparts, habsolute, hsegments⟩ := join_eq_ok_iff.mp ha
  obtain ⟨-, habsolute', hsegments'⟩ := join_eq_ok_iff.mp hb
  rw [join_eq_ok_iff, partsOf_append_slash]
  refine ⟨List.append_ne_nil_of_left_ne_nil hparts _, habsolute'.trans habsolute, ?_⟩
  rw [hsegments', hsegments, List.append_assoc]

/-! ### Parents -/

theorem parent_eq_none_iff : p.parent = none ↔ p.segments.length = 1 := by
  have hpos : 0 < p.segments.length := List.length_pos_iff.mpr p.segments_ne_nil
  have hdropLast : p.segments.dropLast = [] ↔ p.segments.length = 1 := by
    rw [← List.length_eq_zero_iff, List.length_dropLast]
    omega
  rw [parent, ← hdropLast]
  split_ifs with h
  · simpa using h
  · simpa using h

theorem parent_eq_some_iff :
    p.parent = some q ↔ q.absolute = p.absolute ∧ q.segments = p.segments.dropLast := by
  rw [parent]
  split_ifs with h
  · rw [Option.some_inj, ext_iff]
    exact and_congr eq_comm eq_comm
  · constructor
    · intro hnone
      contradiction
    · rintro ⟨-, hsegments⟩
      exact absurd (hsegments ▸ q.segments_ne_nil) h

theorem join_fileName (h : p.parent = some q) : q.join p.fileName = .ok p := by
  obtain ⟨habsolute, hsegments⟩ := parent_eq_some_iff.mp h
  have hname : partsOf p.fileName = [p.fileName] := (p.isSegment _ (List.getLast_mem p.segments_ne_nil)).partsOf_eq
  rw [join_eq_ok_iff, hname, hsegments]
  exact ⟨List.cons_ne_nil _ _, habsolute.symm, (List.dropLast_append_getLast p.segments_ne_nil).symm⟩

theorem text_parent (h : p.parent = some q) : p.text = q.text ++ "/" ++ p.fileName := by
  have hname : partsOf p.fileName = [p.fileName] := (p.isSegment _ (List.getLast_mem p.segments_ne_nil)).partsOf_eq
  rw [text_join (join_fileName h), hname, String.intercalate_singleton]

theorem parent_join (h : p.join child = .ok q) (hone : (partsOf child).length = 1) : q.parent = some p := by
  obtain ⟨-, habsolute, hsegments⟩ := join_eq_ok_iff.mp h
  obtain ⟨part, hpart⟩ := List.length_eq_one_iff.mp hone
  rw [parent_eq_some_iff, hsegments, hpart, List.dropLast_concat]
  exact ⟨habsolute.symm, rfl⟩

theorem isSome_iterate_parent (n : Nat) (p : SourcePath) :
    ((Option.bind · parent)^[n] (some p)).isSome = true ↔ n < p.segments.length := by
  induction n generalizing p with
  | zero => simpa using List.length_pos_iff.mpr p.segments_ne_nil
  | succ n ih =>
    rw [Function.iterate_succ_apply, Option.bind_some]
    cases hparent : p.parent with
    | none =>
      have hnone : (Option.bind · parent)^[n] none = none := Function.iterate_fixed rfl n
      have hone := parent_eq_none_iff.mp hparent
      simp [hnone, hone]
    | some q =>
      have hlength := length_segments_parent hparent
      rw [ih]
      omega

end SourcePath

end SourceRecipes
