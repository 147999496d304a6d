import SourceRecipes.Proofs.Path

/-!
# What a text says as a path

A path keeps two things of a text: the parts between separators that are neither empty nor a single dot, and whether a
separator comes first. Its own text consists of the same parts with slashes between them, so it is cut into them again.
-/

namespace SourceRecipes

theorem pieces_eq_splitOnP (text : List Char) : pieces text = text.splitOnP isSeparator := by
  induction text with
  | nil => rfl
  | cons c rest ih =>
    rw [pieces, List.splitOnP_cons_eq_if_modifyHead, ← ih]
    split_ifs with hc
    · rfl
    · have hne : pieces rest ≠ [] := ih ▸ List.splitOnP_ne_nil _ _
      obtain ⟨piece, others, hpieces⟩ := List.exists_cons_of_ne_nil hne
      rw [hpieces]
      rfl

namespace SourcePath

/-- The parts of a text between its slashes and backslashes that are neither empty nor a single dot. -/
def partsOf (raw : String) : List String :=
  ((raw.toList.splitOnP fun c => c = '/' ∨ c = '\\').filter fun part => part ≠ [] ∧ part ≠ ['.']).map String.ofList

/-- That a text begins with a slash or a backslash. -/
def IsRooted (raw : String) : Prop :=
  raw.toList.head? = some '/' ∨ raw.toList.head? = some '\\'

theorem keptPieces_eq_partsOf (raw : String) : keptPieces raw = partsOf raw := by
  have hseparator : isSeparator = fun c => decide (c = '/' ∨ c = '\\') := by
    funext c
    rw [isSeparator, Bool.decide_or]
    rfl
  have hkept : isKept = fun part => decide (part ≠ [] ∧ part ≠ ['.']) := by
    funext part
    rw [Bool.eq_iff_iff]
    simp [isKept]
  rw [keptPieces, pieces_eq_splitOnP, hseparator, hkept, partsOf]

theorem startsAtRoot_iff (raw : String) : startsAtRoot raw = true ↔ IsRooted raw := by
  rw [startsAtRoot, IsRooted]
  cases raw.toList with
  | nil => simp
  | cons c rest => simp [isSeparator]

theorem ext_iff {p q : SourcePath} : p = q ↔ p.absolute = q.absolute ∧ p.segments = q.segments := by
  cases p
  cases q
  simp

theorem parse_of_partsOf_eq_nil {raw : String} (h : partsOf raw = []) : parse raw = .error (.empty raw) := by
  rw [← keptPieces_eq_partsOf] at h
  exact dif_neg (not_not_intro h)

theorem exists_parse_of_partsOf_ne_nil {raw : String} (h : partsOf raw ≠ []) : ∃ p, parse raw = .ok p := by
  rw [← keptPieces_eq_partsOf] at h
  exact ⟨_, dif_pos h⟩

theorem parse_eq_ok_iff {raw : String} {p : SourcePath} :
    parse raw = .ok p ↔ p.segments = partsOf raw ∧ (p.absolute = true ↔ IsRooted raw) := by
  rw [← keptPieces_eq_partsOf, ← startsAtRoot_iff, ← Bool.eq_iff_iff, parse]
  split_ifs with hkept
  · cases p
    simp [eq_comm, and_comm]
  · constructor
    · intro hparse
      contradiction
    · rintro ⟨hsegments, -⟩
      exact absurd (hsegments ▸ p.segments_ne_nil) hkept

/-! ### The text of a path -/

theorem joined_eq_intercalate (segments : List String) :
    joined segments = ['/'].intercalate (segments.map String.toList) := by
  induction segments with
  | nil => rfl
  | cons segment rest ih =>
    cases rest with
    | nil => simp [joined]
    | cons next others =>
      rw [joined, ih]
      · simp [List.intercalate_cons_cons]
      · simp

theorem text_eq_intercalate (p : SourcePath) :
    p.text = (if p.absolute then "/" else "") ++ "/".intercalate p.segments := by
  apply String.toList_inj.mp
  rw [text, String.toList_ofList, String.toList_append, String.toList_intercalate, joined_eq_intercalate]
  split_ifs <;> rfl

/-- After the slash of the root the slashes of a text stand between the segments and nowhere else. -/
theorem splitOn_text (p : SourcePath) :
    (p.text.toList.drop (if p.absolute then 1 else 0)).splitOn '/' = p.segments.map String.toList := by
  have hrelative : p.text.toList.drop (if p.absolute then 1 else 0) = ['/'].intercalate (p.segments.map String.toList) := by
    rw [text, String.toList_ofList, ← joined_eq_intercalate]
    split_ifs <;> rfl
  rw [hrelative]
  apply List.splitOn_intercalate
  · simp only [List.forall_mem_map]
    intro segment hsegment hslash
    exact absurd ((p.isSegment segment hsegment).not_isSeparator '/' hslash) (by decide)
  · simpa using p.segments_ne_nil

/-- A text without parts is refused, with that text. Any other denotes a path with exactly its parts as segments, rooted just
when the text is. The path is written with a slash before each part but the first, and before that one if it is rooted, and it
can be read back from this, by cutting at the slashes as well as by parsing. Two texts denote one path just when they
agree in being rooted and in their parts. -/
theorem parse_normal_form (raw : String) :
    (partsOf raw = [] → parse raw = .error (.empty raw)) ∧
    (partsOf raw ≠ [] → ∃ p, parse raw = .ok p ∧
      p.segments = partsOf raw ∧
      (p.absolute = true ↔ IsRooted raw) ∧
      p.text = (if p.absolute then "/" else "") ++ "/".intercalate (partsOf raw) ∧
      (p.text.toList.drop (if p.absolute then 1 else 0)).splitOn '/' = (partsOf raw).map String.toList ∧
      parse p.text = .ok p ∧
      ∀ raw' p', parse raw' = .ok p' → (p = p' ↔ (IsRooted raw ↔ IsRooted raw') ∧ partsOf raw = partsOf raw')) := by
  refine ⟨parse_of_partsOf_eq_nil, fun hparts => ?_⟩
  obtain ⟨p, hparse⟩ := exists_parse_of_partsOf_ne_nil hparts
  obtain ⟨hsegments, habsolute⟩ := parse_eq_ok_iff.mp hparse
  refine ⟨p, hparse, hsegments, habsolute, ?_, ?_, parse_text p, ?_⟩
  · rw [text_eq_intercalate, hsegments]
  · rw [splitOn_text, hsegments]
  · intro raw' p' hparse'
    obtain ⟨hsegments', habsolute'⟩ := parse_eq_ok_iff.mp hparse'
    rw [← hsegments, ← hsegments', ← habsolute, ← habsolute', ← Bool.eq_iff_iff, ext_iff]

end SourcePath

end SourceRecipes
