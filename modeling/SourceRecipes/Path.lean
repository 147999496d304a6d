/-!
# Source paths

A source path is kept in normal form: whether it is rooted, and its segments from the first directory to the file
name. Slash and backslash both separate, and the pieces between separators count unless they are empty or a single
dot, so `a//b`, `./a/b/` and `a\b` are one path while `/a/b` is another. Segments `..` stay as they are.
-/

namespace SourceRecipes

def isSeparator (c : Char) : Bool :=
  c == '/' || c == '\\'

/-- The pieces of a text between its separators, one more than there are separators. -/
def pieces : List Char → List (List Char)
  | [] => [[]]
  | c :: rest =>
    if isSeparator c then [] :: pieces rest
    else
      match pieces rest with
      | [] => [[c]]
      | piece :: others => (c :: piece) :: others

def isKept (piece : List Char) : Bool :=
  piece != [] && piece != ['.']

def keptPieces (text : String) : List String :=
  ((pieces text.toList).filter isKept).map String.ofList

/-- What every segment of a path is: not empty, no single dot, and without separators. -/
def IsSegment (segment : String) : Prop :=
  isKept segment.toList = true ∧ segment.toList.all (fun c => !isSeparator c) = true

theorem not_isSeparator_of_mem_pieces (text : List Char) :
    ∀ piece ∈ pieces text, ∀ c ∈ piece, isSeparator c = false := by
  induction text with
  | nil => simp [pieces]
  | cons c rest ih =>
    rw [pieces]
    split
    · simpa using ih
    · next hc =>
      split
      · simpa using hc
      · next piece others hpieces =>
        rw [hpieces] at ih
        simp only [List.mem_cons, forall_eq_or_imp] at ih ⊢
        exact ⟨⟨by simpa using hc, ih.1⟩, ih.2⟩

theorem isSegment_of_mem_keptPieces (text : String) : ∀ segment ∈ keptPieces text, IsSegment segment := by
  intro segment hmem
  simp only [keptPieces, List.mem_map, List.mem_filter] at hmem
  obtain ⟨piece, ⟨hpiece, hkept⟩, rfl⟩ := hmem
  refine ⟨by simpa using hkept, ?_⟩
  simpa using not_isSeparator_of_mem_pieces text.toList piece hpiece

/-- The normal form of a path. -/
structure SourcePath where
  absolute : Bool
  segments : List String
  segments_ne_nil : segments ≠ []
  isSegment : ∀ segment ∈ segments, IsSegment segment
  deriving DecidableEq

/-- Why a text is no path: nothing is left of it in normal form. -/
inductive PathError where
  | empty (raw : String)
  deriving DecidableEq, Repr

def PathError.message : PathError → String
  | .empty raw => s!"path '{raw}' is empty after normalization"

namespace SourcePath

def startsAtRoot (text : String) : Bool :=
  match text.toList with
  | c :: _ => isSeparator c
  | [] => false

/-- The path a text denotes. -/
def parse (raw : String) : Except PathError SourcePath :=
  if h : keptPieces raw ≠ [] then
    .ok ⟨startsAtRoot raw, keptPieces raw, h, isSegment_of_mem_keptPieces raw⟩
  else .error (.empty raw)

/-- The segments with a slash between neighbours. -/
def joined : List String → List Char
  | [] => []
  | [segment] => segment.toList
  | segment :: rest => segment.toList ++ '/' :: joined rest

/-- The path as it is shown: its segments between slashes, after a slash if it is rooted. -/
def text (p : SourcePath) : String :=
  String.ofList (if p.absolute then '/' :: joined p.segments else joined p.segments)

instance : ToString SourcePath := ⟨text⟩

def fileName (p : SourcePath) : String :=
  p.segments.getLast p.segments_ne_nil

/-- The texts before and after the last occurrence of a character, if there is one. -/
def splitAtLast (separator : Char) (text : List Char) : Option (List Char × List Char) :=
  let reversed := text.reverse
  if reversed.contains separator then
    let after := reversed.takeWhile (· != separator)
    some ((reversed.drop (after.length + 1)).reverse, after.reverse)
  else none

/-- What follows the last dot of the file name, unless the name begins with that dot. -/
def extension (p : SourcePath) : Option String :=
  match splitAtLast '.' p.fileName.toList with
  | some (stem, ending) => if stem.isEmpty then none else some (String.ofList ending)
  | none => none

/-- The path without its last segment, if it has more than one. -/
def parent (p : SourcePath) : Option SourcePath :=
  if h : p.segments.dropLast ≠ [] then
    some ⟨p.absolute, p.segments.dropLast, h, fun segment hmem => p.isSegment segment ((List.dropLast_sublist _).mem hmem)⟩
  else none

theorem length_segments_parent {p q : SourcePath} (h : p.parent = some q) :
    q.segments.length + 1 = p.segments.length := by
  unfold parent at h
  split at h
  · next hne =>
    obtain rfl := Option.some.inj h
    have hpos : 0 < p.segments.length := List.length_pos_iff.mpr p.segments_ne_nil
    simp only [List.length_dropLast]
    omega
  · simp at h

/-- The parent of a path, the parent of that, and so on. -/
def ancestors (p : SourcePath) : List SourcePath :=
  match _hparent : p.parent with
  | some q => q :: ancestors q
  | none => []
termination_by p.segments.length
decreasing_by
  have := length_segments_parent _hparent
  omega

/-- The path that continues `p` by the segments of `child`, whether or not that is rooted. -/
def append (p child : SourcePath) : SourcePath where
  absolute := p.absolute
  segments := p.segments ++ child.segments
  segments_ne_nil := by simp [p.segments_ne_nil]
  isSegment := by
    intro segment hmem
    rcases List.mem_append.mp hmem with h | h
    · exact p.isSegment segment h
    · exact child.isSegment segment h

/-- The path that a text denotes below `p`. -/
def join (p : SourcePath) (child : String) : Except PathError SourcePath :=
  (parse child).map p.append

/-- Paths are in the order of their texts, code point by code point. -/
instance : Ord SourcePath where
  compare p q := (compareOfLessAndEq p.text q.text).then (compare p.absolute q.absolute)

end SourcePath

end SourceRecipes
