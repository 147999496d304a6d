import SourceRecipes.Proofs.Path.Algebra

/-!
# Paths as they are stored

A path can be kept as one text, with a flag beside it that says whether it is rooted. Its parent is cut off that text at the last
slash and a join writes on after it, while the flag is copied and nothing is brought into normal form again. What comes of this are
the texts of paths all the same, each with the right flag: to store a path commutes with everything that is done to it.
-/

namespace SourceRecipes

/-! ### The last occurrence of a character -/

theorem SourcePath.splitAtLast_append {separator : Char} {before after : List Char} (h : separator ∉ after) :
    splitAtLast separator (before ++ separator :: after) = some (before, after) := by
  have hreverse : (before ++ separator :: after).reverse = after.reverse ++ separator :: before.reverse := by simp
  have hother : ∀ c ∈ after.reverse, (c != separator) = true := by
    intro c hc
    rw [bne_iff_ne]
    rintro rfl
    exact h (List.mem_reverse.mp hc)
  have htake : (after.reverse ++ separator :: before.reverse).takeWhile (· != separator) = after.reverse := by
    rw [List.takeWhile_append_of_pos hother]
    simp
  have hdrop : (after.reverse ++ separator :: before.reverse).drop (after.length + 1) = before.reverse := by
    rw [← List.length_reverse, List.drop_append]
    simp
  simp only [splitAtLast, hreverse, htake, List.length_reverse, hdrop]
  simp

theorem SourcePath.splitAtLast_of_not_mem {separator : Char} {text : List Char} (h : separator ∉ text) :
    splitAtLast separator text = none := by
  simp [splitAtLast, h]

/-! ### Stored paths -/

/-- A path as its text, beside it whether it is rooted. Nothing ties the flag to the text. -/
structure StoredPath where
  normalized : String
  absolute : Bool
  deriving DecidableEq

namespace StoredPath

open SourcePath (partsOf startsAtRoot splitAtLast)

def parse (raw : String) : Except PathError StoredPath :=
  let segments := partsOf raw
  if segments.isEmpty then .error (.empty raw)
  else
    let joined := "/".intercalate segments
    .ok ⟨if startsAtRoot raw then "/" ++ joined else joined, startsAtRoot raw⟩

/-- The text after the slash of the root. Only the flag tells whether there is one. -/
def relativePart (s : StoredPath) : String :=
  if s.absolute then String.ofList (s.normalized.toList.drop 1) else s.normalized

def segments (s : StoredPath) : List String :=
  (s.relativePart.toList.splitOn '/').map String.ofList

def fileName (s : StoredPath) : String :=
  match splitAtLast '/' s.relativePart.toList with
  | some (_, name) => String.ofList name
  | none => s.relativePart

/-- The text before the last slash, unless it is empty. -/
def parent (s : StoredPath) : Option StoredPath :=
  match splitAtLast '/' s.normalized.toList with
  | some (directory, _) => if directory.isEmpty then none else some ⟨String.ofList directory, s.absolute⟩
  | none => none

def join (s : StoredPath) (child : String) : Except PathError StoredPath := do
  let child ← parse child
  return ⟨s.normalized ++ "/" ++ child.relativePart, s.absolute⟩

/-- Paths are in the order of their texts, and the flag decides between equal ones. -/
instance : Ord StoredPath where
  compare s t := (compareOfLessAndEq s.normalized t.normalized).then (compare s.absolute t.absolute)

/-- What comes of a text that is parsed, by any number of parents and joins. -/
inductive IsReachable : StoredPath → Prop
  | parse {raw : String} {s : StoredPath} (h : parse raw = .ok s) : IsReachable s
  | parent {s t : StoredPath} (hs : IsReachable s) (h : s.parent = some t) : IsReachable t
  | join {s t : StoredPath} {child : String} (hs : IsReachable s) (h : s.join child = .ok t) : IsReachable t

end StoredPath

def SourcePath.stored (p : SourcePath) : StoredPath :=
  ⟨p.text, p.absolute⟩

/-! ### What is done to stored paths -/

namespace StoredPath

open SourcePath (partsOf startsAtRoot splitAtLast stored)

variable (p : SourcePath)

theorem relativePart_stored : p.stored.relativePart = "/".intercalate p.segments := by
  have htext := SourcePath.text_eq_intercalate p
  rw [relativePart, stored]
  cases habsolute : p.absolute with
  | false => simpa [habsolute] using htext
  | true =>
      have hdrop : p.text.toList.drop 1 = ("/".intercalate p.segments).toList := by
        rw [htext, habsolute, if_pos rfl, String.toList_append]
        rfl
      rw [if_pos rfl, hdrop, String.ofList_toList]

theorem parse_eq_map (raw : String) : parse raw = (SourcePath.parse raw).map stored := by
  rw [parse]
  by_cases hparts : partsOf raw = []
  · rw [SourcePath.parse_of_partsOf_eq_nil hparts, hparts]
    rfl
  · obtain ⟨p, hparse⟩ := SourcePath.exists_parse_of_partsOf_ne_nil hparts
    obtain ⟨hsegments, habsolute⟩ := SourcePath.parse_eq_ok_iff.mp hparse
    rw [← SourcePath.startsAtRoot_iff, ← Bool.eq_iff_iff] at habsolute
    have hstored : p.stored = ⟨if p.absolute then "/" ++ "/".intercalate p.segments else "/".intercalate p.segments,
        p.absolute⟩ := by
      rw [stored, SourcePath.text_eq_intercalate]
      cases p.absolute <;> simp
    have hempty : (partsOf raw).isEmpty = false := List.isEmpty_eq_false_iff.mpr hparts
    rw [hparse, hempty, ← hsegments, ← habsolute]
    exact congrArg Except.ok hstored.symm

theorem segments_stored : p.stored.segments = p.segments := by
  have hrelative : p.stored.relativePart.toList = p.text.toList.drop (if p.absolute then 1 else 0) := by
    rw [relativePart, stored]
    cases p.absolute <;> simp
  rw [segments, hrelative, SourcePath.splitOn_text, List.map_map]
  simp [Function.comp_def]

theorem slash_not_mem_fileName : '/' ∉ p.fileName.toList := by
  intro hslash
  have hsegment := p.isSegment _ (List.getLast_mem p.segments_ne_nil)
  exact absurd (hsegment.not_isSeparator '/' hslash) (by decide)

theorem splitAtLast_append_fileName (front : String) :
    splitAtLast '/' (front ++ "/" ++ p.fileName).toList = some (front.toList, p.fileName.toList) := by
  have hlist : (front ++ "/" ++ p.fileName).toList = front.toList ++ '/' :: p.fileName.toList := by simp
  rw [hlist, SourcePath.splitAtLast_append (slash_not_mem_fileName p)]

variable {p} in
/-- A path of one segment consists of its file name. -/
theorem segments_of_parent_eq_none (h : p.parent = none) : p.segments = [p.fileName] := by
  obtain ⟨segment, hsegments⟩ := List.length_eq_one_iff.mp (SourcePath.parent_eq_none_iff.mp h)
  simp [SourcePath.fileName, hsegments]

theorem fileName_stored : p.stored.fileName = p.fileName := by
  rw [fileName, relativePart_stored]
  cases hparent : p.parent with
  | none =>
      rw [segments_of_parent_eq_none hparent, String.intercalate_singleton,
        SourcePath.splitAtLast_of_not_mem (slash_not_mem_fileName p)]
  | some q =>
      obtain ⟨-, hsegments⟩ := SourcePath.parent_eq_some_iff.mp hparent
      have hsplit : p.segments = q.segments ++ [p.fileName] := by
        rw [hsegments]
        exact (List.dropLast_append_getLast p.segments_ne_nil).symm
      rw [hsplit, String.intercalate_append_of_ne_nil q.segments_ne_nil (List.cons_ne_nil _ _),
        String.intercalate_singleton, splitAtLast_append_fileName]
      exact String.ofList_toList

theorem parent_stored : p.stored.parent = p.parent.map stored := by
  rw [parent]
  cases hparent : p.parent with
  | none =>
      have htext := SourcePath.text_eq_intercalate p
      rw [segments_of_parent_eq_none hparent, String.intercalate_singleton] at htext
      cases habsolute : p.absolute with
      | false =>
          have hname : p.stored.normalized = p.fileName := by simpa [stored, habsolute] using htext
          rw [hname, SourcePath.splitAtLast_of_not_mem (slash_not_mem_fileName p)]
          rfl
      | true =>
          -- The root stands in front of the slash, and it is no path.
          have hname : p.stored.normalized = "" ++ "/" ++ p.fileName := by simpa [stored, habsolute] using htext
          rw [hname, splitAtLast_append_fileName]
          rfl
  | some q =>
      obtain ⟨habsolute, -⟩ := SourcePath.parent_eq_some_iff.mp hparent
      have hname : p.stored.normalized = q.text ++ "/" ++ p.fileName := SourcePath.text_parent hparent
      have hne : q.text.toList.isEmpty = false := by
        rw [List.isEmpty_eq_false_iff]
        intro hempty
        have hparse := SourcePath.parse_text q
        rw [String.toList_eq_nil_iff.mp hempty] at hparse
        nomatch hparse
      rw [hname, splitAtLast_append_fileName]
      simp only [hne, Bool.false_eq_true, if_false, String.ofList_toList, Option.map_some, stored, habsolute]

theorem join_stored (child : String) : p.stored.join child = (p.join child).map stored := by
  rw [join, parse_eq_map]
  by_cases hparts : partsOf child = []
  · rw [SourcePath.parse_of_partsOf_eq_nil hparts, SourcePath.join_of_partsOf_eq_nil p hparts]
    rfl
  · obtain ⟨c, hparse⟩ := SourcePath.exists_parse_of_partsOf_ne_nil hparts
    obtain ⟨q, hjoin⟩ := SourcePath.exists_join p hparts
    obtain ⟨hsegments, -⟩ := SourcePath.parse_eq_ok_iff.mp hparse
    obtain ⟨-, habsolute, -⟩ := SourcePath.join_eq_ok_iff.mp hjoin
    have hstored : q.stored = ⟨p.text ++ "/" ++ c.stored.relativePart, p.absolute⟩ := by
      rw [stored, SourcePath.text_join hjoin, relativePart_stored, hsegments, habsolute]
    rw [hparse, hjoin]
    exact congrArg Except.ok hstored.symm

theorem compare_stored (q : SourcePath) : compare p.stored q.stored = compare p q := rfl

theorem stored_injective : Function.Injective stored := fun _ _ h =>
  SourcePath.text_injective (congrArg normalized h)

theorem parse_normalized : parse p.stored.normalized = .ok p.stored := by
  rw [stored, parse_eq_map, SourcePath.parse_text]
  rfl

/-- Nothing is stored but the texts of paths, each with the right flag. -/
theorem isReachable_iff {s : StoredPath} : s.IsReachable ↔ ∃ p : SourcePath, p.stored = s := by
  constructor
  · intro h
    induction h with
    | parse h =>
        rw [parse_eq_map, map_eq_ok_iff] at h
        obtain ⟨p, -, hp⟩ := h
        exact ⟨p, hp⟩
    | parent _ h ih =>
        obtain ⟨p, rfl⟩ := ih
        rw [parent_stored, Option.map_eq_some_iff] at h
        obtain ⟨q, -, hq⟩ := h
        exact ⟨q, hq⟩
    | join _ h ih =>
        obtain ⟨p, rfl⟩ := ih
        rw [join_stored, map_eq_ok_iff] at h
        obtain ⟨q, -, hq⟩ := h
        exact ⟨q, hq⟩
  · rintro ⟨p, rfl⟩
    exact .parse (parse_normalized p)

/-! ### Main statement -/

variable {p}

theorem join_of_partsOf_eq_nil {child : String} (h : partsOf child = []) :
    p.stored.join child = .error (.empty child) := by
  rw [join_stored, SourcePath.join_of_partsOf_eq_nil p h]
  rfl

theorem join_eq_ok_iff {child : String} {t : StoredPath} :
    p.stored.join child = .ok t ↔ ∃ q, p.join child = .ok q ∧ q.stored = t := by
  rw [join_stored, map_eq_ok_iff]

theorem parent_eq_some_iff {t : StoredPath} : p.stored.parent = some t ↔ ∃ q, p.parent = some q ∧ q.stored = t := by
  rw [parent_stored, Option.map_eq_some_iff]

theorem parent_eq_none_iff : p.stored.parent = none ↔ p.segments.length = 1 := by
  rw [parent_stored, Option.map_eq_none_iff, SourcePath.parent_eq_none_iff]

theorem join_append_slash {a b : String} {t u : StoredPath} (ha : p.stored.join a = .ok t) (hb : t.join b = .ok u) :
    p.stored.join (a ++ "/" ++ b) = .ok u := by
  obtain ⟨q, hq, rfl⟩ := join_eq_ok_iff.mp ha
  obtain ⟨r, hr, rfl⟩ := join_eq_ok_iff.mp hb
  exact join_eq_ok_iff.mpr ⟨r, SourcePath.join_append_slash hq hr, rfl⟩

theorem isSome_iterate_parent (n : Nat) :
    ((Option.bind · parent)^[n] (some p.stored)).isSome = true ↔ n < p.segments.length := by
  have hstep : Function.Semiconj (Option.map stored) (Option.bind · SourcePath.parent) (Option.bind · parent) := by
    intro p?
    cases p? with
    | none => rfl
    | some p => exact (parent_stored p).symm
  have hiterate := hstep.iterate_right n (some p)
  rw [Option.map_some] at hiterate
  rw [← hiterate, Option.isSome_map, SourcePath.isSome_iterate_parent]

/-- Every stored path is the text of a path, and parsing, parents, joins, segments and file names are the same of both. So it is read
back from its text, which begins with a slash just when the flag says that it is rooted, and stored paths are equal and in order just as
the bytes of their texts are. A join fails on a text without parts only. It appends all parts to the segments, whether or not the
text is rooted, so two joins are one with a slash between their texts, and one part is taken off again by the parent. Only a path of
a single segment has no parent. Any other has one that lacks the last segment and is joined with that to the path again. There are as
many paths on the way up as there are segments. -/
theorem parents_and_joins {s : StoredPath} (h : s.IsReachable) :
    (∀ raw, (SourcePath.parse raw).map stored = parse raw) ∧
    (∃ p : SourcePath, p.stored = s ∧ p.segments = s.segments ∧ p.fileName = s.fileName ∧
      p.parent.map stored = s.parent ∧ ∀ child, (p.join child).map stored = s.join child) ∧
    parse s.normalized = .ok s ∧
    (s.absolute = true ↔ s.normalized.toList.head? = some '/') ∧
    (∀ t : StoredPath, t.IsReachable →
      (s = t ↔ Text.utf8 s.normalized = Text.utf8 t.normalized) ∧
      (compare s t = .lt ↔ Text.utf8 s.normalized < Text.utf8 t.normalized) ∧
      (compare s t = .eq ↔ s = t) ∧
      (compare s t = .gt ↔ Text.utf8 t.normalized < Text.utf8 s.normalized)) ∧
    (∀ child, partsOf child = [] → s.join child = .error (.empty child)) ∧
    (∀ child, partsOf child ≠ [] → ∃ t, s.join child = .ok t ∧
      t.absolute = s.absolute ∧
      t.segments = s.segments ++ partsOf child ∧
      t.normalized = s.normalized ++ "/" ++ "/".intercalate (partsOf child) ∧
      (∀ more u, t.join more = .ok u → s.join (child ++ "/" ++ more) = .ok u) ∧
      ((partsOf child).length = 1 → t.parent = some s)) ∧
    (s.parent = none ↔ s.segments.length = 1) ∧
    (∀ t, s.parent = some t →
      t.absolute = s.absolute ∧
      t.segments = s.segments.dropLast ∧
      s.normalized = t.normalized ++ "/" ++ s.fileName ∧
      t.join s.fileName = .ok s) ∧
    ∀ n, ((Option.bind · parent)^[n] (some s)).isSome = true ↔ n < s.segments.length := by
  obtain ⟨p, rfl⟩ := isReachable_iff.mp h
  rw [segments_stored, fileName_stored]
  refine ⟨fun raw => (parse_eq_map raw).symm,
    ⟨p, rfl, rfl, rfl, (parent_stored p).symm, fun child => (join_stored p child).symm⟩, parse_normalized p,
    SourcePath.absolute_iff_head?, ?_, fun _ => join_of_partsOf_eq_nil, ?_, parent_eq_none_iff, ?_, isSome_iterate_parent⟩
  · intro t ht
    obtain ⟨q, rfl⟩ := isReachable_iff.mp ht
    rw [stored_injective.eq_iff, compare_stored]
    exact ⟨SourcePath.eq_iff_utf8_eq, SourcePath.compare_eq_lt_iff, SourcePath.compare_eq_eq_iff,
      SourcePath.compare_eq_gt_iff⟩
  · intro child hparts
    obtain ⟨q, hjoin⟩ := SourcePath.exists_join p hparts
    obtain ⟨-, habsolute, hsegments⟩ := SourcePath.join_eq_ok_iff.mp hjoin
    have hstored : p.stored.join child = .ok q.stored := join_eq_ok_iff.mpr ⟨q, hjoin, rfl⟩
    refine ⟨q.stored, hstored, habsolute, ?_, SourcePath.text_join hjoin, fun _ _ => join_append_slash hstored, ?_⟩
    · rw [segments_stored, hsegments]
    · intro hone
      exact parent_eq_some_iff.mpr ⟨p, SourcePath.parent_join hjoin hone, rfl⟩
  · intro t hparent
    obtain ⟨q, hq, rfl⟩ := parent_eq_some_iff.mp hparent
    obtain ⟨habsolute, hsegments⟩ := SourcePath.parent_eq_some_iff.mp hq
    refine ⟨habsolute, ?_, SourcePath.text_parent hq, join_eq_ok_iff.mpr ⟨p, SourcePath.join_fileName hq, rfl⟩⟩
    rw [segments_stored, hsegments]

theorem parents_and_joins_of_rooted :
    parse "\\a//./b/" = .ok ⟨"/a/b", true⟩ ∧ (⟨"/a/b", true⟩ : StoredPath).parent = some ⟨"/a", true⟩ ∧
      (⟨"/a", true⟩ : StoredPath).join "b" = .ok ⟨"/a/b", true⟩ := by
  have hparse : parse "\\a//./b/" = .ok ⟨"/a/b", true⟩ := by decide
  have hparent : (⟨"/a/b", true⟩ : StoredPath).parent = some ⟨"/a", true⟩ := by decide
  obtain ⟨-, -, -, -, -, -, -, -, hparents, -⟩ := parents_and_joins (.parse hparse)
  obtain ⟨-, -, -, hjoin⟩ := hparents _ hparent
  exact ⟨hparse, hparent, hjoin⟩

end StoredPath

end SourceRecipes
