import Mathlib.Algebra.GroupWithZero.Nat
import Mathlib.Algebra.Order.BigOperators.Group.List
import Mathlib.Algebra.Order.Group.Nat
import SourceRecipes.Proofs.Recipe.Rewriting

/-!
# What a visitor counts

A visitor of a rewrite may be shown many trees one after the other. At each of them its count rises by the number of attributes
whose text is another one in the answer, whatever the visitor was shown before.
-/

namespace SourceRecipes

/-- What a visitor can be shown. -/
inductive Shown where
  | element (e : Element)
  | document (d : Document)
  deriving DecidableEq

namespace Shown

def occurrences : Shown → List Occurrence
  | element e => Element.occurrences [] e
  | document d => Element.occurrences [] d.root

/-- The number of attributes that have another text in the second tree than at the same place in the first one. -/
def differences (before after : Shown) : Nat :=
  (before.occurrences.zip after.occurrences).countP fun places => places.1.text != places.2.text

end Shown

def Visitor.visitShown {σ : Type} (v : Visitor σ) : Shown → StateM σ (Option Shown)
  | .element e => do return (← v.visitElement e).map .element
  | .document d => do return (← v.visitDocument d).map .document

/-- Visits that add to the count whatever it is give the same answers in a row as each of them alone, and add up. -/
theorem run_mapM_counting {α β : Type} {visit : α → StateM Nat β} {answer : α → β} {amount : α → Nat}
    (h : ∀ a n, (visit a).run n = (answer a, n + amount a)) (items : List α) (n : Nat) :
    (items.mapM visit).run n = (items.map answer, n + (items.map amount).sum) := by
  induction items generalizing n with
  | nil => rfl
  | cons a rest ih =>
      rw [run_mapM_cons, h, ih, List.map_cons, List.map_cons, List.sum_cons, Nat.add_assoc]

namespace ChangeXmlAttribute

variable (r : ChangeXmlAttribute)

def editShown : Shown → Shown
  | .element e => .element (r.edit e)
  | .document d => .document (r.editDocument d)

theorem run_visitShown (t : Shown) (n : Nat) :
    (r.visitor.visitShown t).run n = (differing t (r.editShown t), n + t.occurrences.countP r.changes) := by
  cases t with
  | element e =>
      have hvisit : (r.visitor.visitShown (.element e)).run n =
          (((r.visitor.visitElement e).run n).1.map Shown.element, ((r.visitor.visitElement e).run n).2) := rfl
      have hinjective : Function.Injective Shown.element := fun _ _ h => Shown.element.inj h
      rw [hvisit, run_visitElement, map_differing hinjective, editShown, edit_eq_mapTexts]
      rfl
  | document d =>
      have hvisit : (r.visitor.visitShown (.document d)).run n =
          (((r.visitor.visitDocument d).run n).1.map Shown.document, ((r.visitor.visitDocument d).run n).2) := rfl
      have hinjective : Function.Injective Shown.document := fun _ _ h => Shown.document.inj h
      rw [hvisit, run_visitDocument, map_differing hinjective, editShown, editDocument_eq, edit_eq_mapTexts]
      rfl

theorem occurrences_editShown (t : Shown) :
    (r.editShown t).occurrences = t.occurrences.map fun o => o.withText (r.textAt o) := by
  cases t with
  | element e => rw [editShown, edit_eq_mapTexts, Shown.occurrences, Element.occurrences_mapTexts, Shown.occurrences]
  | document d =>
      rw [editShown, editDocument_eq, edit_eq_mapTexts, Shown.occurrences, Element.occurrences_mapTexts,
        Shown.occurrences]

/-- The changes a visitor counts are the differences that its edit makes. -/
theorem differences_editShown (t : Shown) : t.differences (r.editShown t) = t.occurrences.countP r.changes := by
  rw [Shown.differences, occurrences_editShown, ← List.map_prod_left_eq_zip, List.countP_map]
  apply List.countP_congr
  intro o _
  simp only [Function.comp_apply, changes, bne_iff_ne, ne_eq]
  exact not_congr eq_comm

theorem editShown_eq_self_iff {t : Shown} : r.editShown t = t ↔ t.differences (r.editShown t) = 0 := by
  rw [differences_editShown]
  cases t with
  | element e => rw [editShown, Shown.element.injEq, edit_eq_self_iff, Shown.occurrences]
  | document d =>
      rw [editShown, Shown.document.injEq, editDocument_eq_self_iff, edit_eq_self_iff, Shown.occurrences]

/-- The count of a visitor that was shown some trees one after the other. -/
def countAfter (shown : List Shown) : Nat :=
  ((shown.mapM r.visitor.visitShown).run 0).2

/-- What a visitor that was shown some trees answers to another one. -/
def answerAfter (shown : List Shown) (t : Shown) : Option Shown :=
  ((r.visitor.visitShown t).run (r.countAfter shown)).1

theorem run_mapM_visitShown (shown : List Shown) (n : Nat) :
    (shown.mapM r.visitor.visitShown).run n =
      (shown.map fun t => differing t (r.editShown t), n + (shown.map fun t => t.differences (r.editShown t)).sum) := by
  apply run_mapM_counting
  intro t n
  rw [run_visitShown, differences_editShown]

theorem countAfter_eq (shown : List Shown) :
    r.countAfter shown = (shown.map fun t => t.differences (r.editShown t)).sum := by
  rw [countAfter, run_mapM_visitShown, Nat.zero_add]

/-- A visitor counts no more attributes than it was shown. -/
theorem countAfter_le (shown : List Shown) :
    r.countAfter shown ≤ (shown.map fun t => t.occurrences.length).sum := by
  rw [countAfter_eq]
  apply List.sum_le_sum
  intro t _
  rw [differences_editShown]
  exact List.countP_le_length

theorem countAfter_append_singleton (shown : List Shown) (t : Shown) :
    r.countAfter (shown ++ [t]) = r.countAfter shown + t.differences (r.editShown t) := by
  rw [countAfter_eq, countAfter_eq, List.map_append, List.sum_append, List.map_singleton, List.sum_singleton]

theorem answerAfter_eq (shown : List Shown) (t : Shown) : r.answerAfter shown t = differing t (r.editShown t) := by
  rw [answerAfter, run_visitShown]

/-- Whatever a visitor was shown before, it answers to a tree in the same way, and its count rises by the number of attributes
that have another text in the tree it answers with, by none if it answers with none. So the count rises exactly if
there is an answer, and by the same number whenever the tree is shown again. Over all trees shown these numbers add up. -/
theorem visits_count_differences :
    ∃ answer : Shown → Option Shown,
      (∀ t, ((answer t).getD t).occurrences.length = t.occurrences.length) ∧
      (∀ shown t, r.answerAfter shown t = answer t ∧
        r.countAfter (shown ++ [t]) = r.countAfter shown + t.differences ((answer t).getD t) ∧
        ((answer t).isSome = true ↔ r.countAfter shown < r.countAfter (shown ++ [t]))) ∧
      ∀ shown, ((shown.mapM r.visitor.visitShown).run 0).1 = shown.map answer ∧
        r.countAfter shown = (shown.map fun t => t.differences ((answer t).getD t)).sum := by
  refine ⟨fun t => differing t (r.editShown t), fun t => ?_, fun shown t => ⟨r.answerAfter_eq shown t, ?_, ?_⟩,
    fun shown => ⟨?_, ?_⟩⟩
  · rw [getD_differing, occurrences_editShown, List.length_map]
  · rw [getD_differing, countAfter_append_singleton]
  · have hsome : (differing t (r.editShown t)).isSome = true ↔ r.editShown t ≠ t := by
      rw [Option.isSome_iff_ne_none, ne_eq, differing_eq_none_iff]
    rw [hsome, countAfter_append_singleton, ne_eq, editShown_eq_self_iff]
    omega
  · rw [run_mapM_visitShown]
  · simp only [getD_differing, countAfter_eq]

end ChangeXmlAttribute

end SourceRecipes
