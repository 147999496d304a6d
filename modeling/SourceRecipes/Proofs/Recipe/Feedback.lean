import Mathlib.Data.Set.Finite.Lattice
import Mathlib.Logic.Function.Iterate
import Mathlib.Order.Lattice.Nat
import SourceRecipes.Proofs.Recipe.Rewriting

/-!
# Rewrites that feed themselves

If the new value begins with the old one, a rewritten text begins with the old value again and grows with every rewrite. If the
old value begins with the new one, a rewrite takes a piece away, and after as many rewrites as there are such pieces
at the front of the rest nothing is left to take. Both are told by the number of copies of that piece.
-/

namespace SourceRecipes

namespace Text

/-- So many copies of a text, one after the other. -/
def copies (text : String) : Nat → String
  | 0 => ""
  | count + 1 => text ++ copies text count

variable {extra rest rest' : String} {count count' : Nat}

theorem length_copies (extra : String) (count : Nat) : (copies extra count).length = count * extra.length := by
  induction count with
  | zero => simp [copies]
  | succ count ih =>
      rw [copies, String.length_append, ih, Nat.succ_mul]
      omega

theorem length_pos_of_ne_empty (h : extra ≠ "") : 0 < extra.length := by
  apply Nat.pos_of_ne_zero
  intro hlength
  exact h (String.length_eq_zero_iff.mp hlength)

theorem le_length_copies_append (h : extra ≠ "") (count : Nat) (rest : String) :
    count ≤ (copies extra count ++ rest).length := by
  have hpos := length_pos_of_ne_empty h
  calc
    count ≤ count * extra.length := Nat.le_mul_of_pos_right count hpos
    _ ≤ (copies extra count ++ rest).length := by
      rw [String.length_append, length_copies]
      omega

/-- Different numbers of copies make texts of different lengths. -/
theorem append_copies_append_inj {start : String} (h : extra ≠ "")
    (hsame : start ++ copies extra count ++ rest = start ++ copies extra count' ++ rest) : count = count' := by
  have hpos := length_pos_of_ne_empty h
  have hlength := congrArg String.length hsame
  simp only [String.length_append, length_copies] at hlength
  have hproduct : count * extra.length = count' * extra.length := by omega
  exact Nat.eq_of_mul_eq_mul_right hpos hproduct

/-- Every text begins with a longest row of copies. -/
theorem exists_eq_copies_append (h : extra ≠ "") (text : String) :
    ∃ count rest, text = copies extra count ++ rest ∧ ∀ tail, rest ≠ extra ++ tail := by
  by_cases hstart : ∃ tail, text = extra ++ tail
  · obtain ⟨tail, rfl⟩ := hstart
    obtain ⟨count, rest, htail, hrest⟩ := exists_eq_copies_append h tail
    refine ⟨count + 1, rest, ?_, hrest⟩
    rw [copies, String.append_assoc, ← htail]
  · exact ⟨0, text, (String.empty_append).symm, not_exists.mp hstart⟩
termination_by text.length
decreasing_by
  have hpos := length_pos_of_ne_empty h
  subst_vars
  rw [String.length_append]
  omega

/-- No other row of copies at the front of a text is longer than one behind which no copy follows. -/
theorem le_of_copies_append_eq (hrest : ∀ tail, rest ≠ extra ++ tail)
    (h : copies extra count' ++ rest' = copies extra count ++ rest) : count' ≤ count := by
  induction count' generalizing count with
  | zero => exact Nat.zero_le count
  | succ count' ih =>
      rw [copies, String.append_assoc] at h
      cases count with
      | zero =>
          rw [copies, String.empty_append] at h
          exact absurd h.symm (hrest _)
      | succ count =>
          rw [copies, String.append_assoc, String.append_right_inj] at h
          exact Nat.succ_le_succ (ih h)

/-- A text begins with one longest row of copies only. -/
theorem copies_append_unique (hrest : ∀ tail, rest ≠ extra ++ tail) (hrest' : ∀ tail, rest' ≠ extra ++ tail)
    (h : copies extra count ++ rest = copies extra count' ++ rest') : count = count' ∧ rest = rest' := by
  have hcount : count = count' := Nat.le_antisymm (le_of_copies_append_eq hrest' h) (le_of_copies_append_eq hrest h.symm)
  subst hcount
  exact ⟨rfl, String.append_right_inj _ |>.mp h⟩

end Text

namespace ChangeXmlAttribute

open Text

variable {r : ChangeXmlAttribute} {old extra rest : String} {o : Occurrence}

/-! ### Rewriting a text again and again -/

theorem iterate_newText_of_not_append (hold : r.oldValue = some old) {text : String} (h : ∀ rest, text ≠ old ++ rest)
    (count : Nat) : r.newText^[count] text = text :=
  Function.iterate_fixed (newText_of_not_append hold h) count

theorem iterate_newText_of_growing (hold : r.oldValue = some old) (hnew : r.newValue = old ++ extra) (count : Nat)
    (rest : String) : r.newText^[count] (old ++ rest) = old ++ copies extra count ++ rest := by
  induction count with
  | zero => simp [copies]
  | succ count ih =>
      calc
        r.newText^[count + 1] (old ++ rest) = r.newText (old ++ (copies extra count ++ rest)) := by
          rw [Function.iterate_succ_apply', ih, String.append_assoc]
        _ = old ++ extra ++ (copies extra count ++ rest) := by rw [newText_append hold, hnew]
        _ = old ++ copies extra (count + 1) ++ rest := by simp only [copies, String.append_assoc]

/-- Every rewrite takes one copy away, as long as there is one. -/
theorem iterate_newText_of_shrinking (hold : r.oldValue = some old) (hnew : old = r.newValue ++ extra)
    (hrest : ∀ tail, rest ≠ extra ++ tail) (count found : Nat) :
    r.newText^[count] (r.newValue ++ copies extra found ++ rest) =
      r.newValue ++ copies extra (found - count) ++ rest := by
  induction count with
  | zero => rfl
  | succ count ih =>
      rw [Function.iterate_succ_apply', ih]
      cases hleft : found - count with
      | zero =>
          have hnone : found - (count + 1) = 0 := by omega
          rw [hnone, copies, String.append_empty]
          apply newText_of_not_append hold
          intro tail heq
          rw [hnew, String.append_assoc, String.append_right_inj] at heq
          exact hrest tail heq
      | succ left =>
          have hsucc : found - (count + 1) = left := by omega
          have hfront : r.newValue ++ copies extra (left + 1) ++ rest = old ++ (copies extra left ++ rest) := by
            simp only [hnew, copies, String.append_assoc]
          rw [hsucc, hfront, newText_append hold, String.append_assoc]

/-! ### Attributes after many rewrites -/

/-- The text of an attribute after the recipe was applied so many times. -/
def textAfterTimes (r : ChangeXmlAttribute) (count : Nat) (o : Occurrence) : String :=
  if r.IsEligible o then r.newText^[count] o.text else o.text

theorem textAfterTimes_zero (r : ChangeXmlAttribute) : r.textAfterTimes 0 = Occurrence.text := by
  funext o
  exact ite_self _

theorem textAt_withText_textAfterTimes (r : ChangeXmlAttribute) (count : Nat) (o : Occurrence) :
    r.textAt (o.withText (r.textAfterTimes count o)) = r.textAfterTimes (count + 1) o := by
  by_cases heligible : r.IsEligible o
  · have hagain : r.IsEligible (o.withText (r.textAfterTimes count o)) := heligible
    rw [textAt, if_pos hagain, textAfterTimes, if_pos heligible, textAfterTimes, if_pos heligible,
      Function.iterate_succ_apply']
    rfl
  · have hagain : ¬ r.IsEligible (o.withText (r.textAfterTimes count o)) := heligible
    rw [textAt, if_neg hagain, textAfterTimes, if_neg heligible, textAfterTimes, if_neg heligible]
    rfl

theorem textAfterTimes_of_not_append (hold : r.oldValue = some old)
    (h : ¬ (r.IsEligible o ∧ ∃ rest, o.text = old ++ rest)) (count : Nat) : r.textAfterTimes count o = o.text := by
  by_cases heligible : r.IsEligible o
  · rw [textAfterTimes, if_pos heligible]
    apply iterate_newText_of_not_append hold
    intro rest hrest
    exact h ⟨heligible, rest, hrest⟩
  · rw [textAfterTimes, if_neg heligible]

theorem textAfterTimes_of_growing (hold : r.oldValue = some old) (hnew : r.newValue = old ++ extra)
    (heligible : r.IsEligible o) (htext : o.text = old ++ rest) (count : Nat) :
    r.textAfterTimes count o = old ++ copies extra count ++ rest := by
  rw [textAfterTimes, if_pos heligible, htext, iterate_newText_of_growing hold hnew]

theorem textAfterTimes_of_shrinking (hold : r.oldValue = some old) (hnew : old = r.newValue ++ extra)
    (heligible : r.IsEligible o) {found : Nat} (htext : o.text = r.newValue ++ copies extra found ++ rest)
    (hrest : ∀ tail, rest ≠ extra ++ tail) (count : Nat) :
    r.textAfterTimes count o = r.newValue ++ copies extra (found - count) ++ rest := by
  rw [textAfterTimes, if_pos heligible, htext, iterate_newText_of_shrinking hold hnew hrest]

/-! ### When a text stays -/

/-- The text of an eligible attribute begins with the new value and so many copies of the piece. -/
def BeginsWithCopies (r : ChangeXmlAttribute) (extra : String) (o : Occurrence) (count : Nat) : Prop :=
  r.IsEligible o ∧ ∃ rest, o.text = r.newValue ++ copies extra count ++ rest

theorem textAfterTimes_succ_ne_of_growing (hold : r.oldValue = some old) (hnew : r.newValue = old ++ extra)
    (hextra : extra ≠ "") (heligible : r.IsEligible o) (htext : o.text = old ++ rest) (count : Nat) :
    r.textAfterTimes (count + 1) o ≠ r.textAfterTimes count o := by
  rw [textAfterTimes_of_growing hold hnew heligible htext, textAfterTimes_of_growing hold hnew heligible htext]
  intro hsame
  have hcount : count + 1 = count := append_copies_append_inj hextra hsame
  omega

/-- A text stays from that rewrite on before which all copies were taken away. -/
theorem textAfterTimes_succ_eq_iff_of_shrinking (hold : r.oldValue = some old) (hnew : old = r.newValue ++ extra)
    (hextra : extra ≠ "") (count : Nat) :
    r.textAfterTimes (count + 1) o = r.textAfterTimes count o ↔ ∀ found, r.BeginsWithCopies extra o found → found ≤ count := by
  by_cases hstart : r.IsEligible o ∧ ∃ rest, o.text = r.newValue ++ rest
  · obtain ⟨heligible, behind, hbehind⟩ := hstart
    obtain ⟨longest, rest, rfl, hrest⟩ := exists_eq_copies_append hextra behind
    rw [← String.append_assoc] at hbehind
    rw [textAfterTimes_of_shrinking hold hnew heligible hbehind hrest,
      textAfterTimes_of_shrinking hold hnew heligible hbehind hrest]
    constructor
    · rintro hsame found ⟨-, rest', htext⟩
      have hleft : longest - (count + 1) = longest - count := append_copies_append_inj hextra hsame
      rw [hbehind, String.append_assoc, String.append_assoc, String.append_right_inj] at htext
      have hle : found ≤ longest := le_of_copies_append_eq hrest htext.symm
      omega
    · intro hbound
      have hle : longest ≤ count := hbound longest ⟨heligible, rest, hbehind⟩
      have hleft : longest - (count + 1) = longest - count := by omega
      rw [hleft]
  · have hnot : ¬ (r.IsEligible o ∧ ∃ rest, o.text = old ++ rest) := by
      rintro ⟨heligible, rest, htext⟩
      rw [hnew, String.append_assoc] at htext
      exact hstart ⟨heligible, extra ++ rest, htext⟩
    rw [textAfterTimes_of_not_append hold hnot, textAfterTimes_of_not_append hold hnot]
    constructor
    · rintro - found ⟨heligible, rest, htext⟩
      rw [String.append_assoc] at htext
      exact absurd ⟨heligible, copies extra found ++ rest, htext⟩ hstart
    · intro
      rfl

/-- Among finitely many attributes there is a largest number of copies, zero if there are none. -/
theorem exists_isGreatest_copies (hextra : extra ≠ "") (r : ChangeXmlAttribute) (occurrences : List Occurrence) :
    ∃ most, IsGreatest (insert 0 {count | ∃ o ∈ occurrences, r.BeginsWithCopies extra o count}) most := by
  have hbounded : BddAbove (⋃ o ∈ {o | o ∈ occurrences}, {count | r.BeginsWithCopies extra o count}) := by
    rw [occurrences.finite_toSet.bddAbove_biUnion]
    rintro o -
    refine ⟨o.text.length, ?_⟩
    rintro count ⟨-, rest, htext⟩
    have hle := le_length_copies_append hextra count rest
    rw [htext, String.append_assoc, String.length_append]
    omega
  have hset : {count | ∃ o ∈ occurrences, r.BeginsWithCopies extra o count} =
      ⋃ o ∈ {o | o ∈ occurrences}, {count | r.BeginsWithCopies extra o count} := by
    ext count
    simp
  rw [← hset] at hbounded
  have hall := hbounded.insert 0
  exact ⟨_, Nat.sSup_mem (Set.insert_nonempty _ _) hall, fun count hcount => le_csSup hall hcount⟩

end ChangeXmlAttribute

end SourceRecipes
