import SourceRecipes.Proofs.Recipe.Stability

/-!
# Rewriting a tree twice

A rewrite is idempotent exactly if it is stable. If the new value begins with the old one, a text that is the old value grows
again; if the old value begins with the new one, a text that repeats what the old value has more is rewritten twice. One
element with such a text shows it. A stable rewrite finds nothing to do in a tree that it has rewritten.
-/

namespace SourceRecipes.ChangeXmlAttribute

variable {r : ChangeXmlAttribute}

/-! ### Texts -/

theorem newText_self {old : String} (hold : r.oldValue = some old) : r.newText old = r.newValue := by
  have happend := newText_append hold ""
  rwa [String.append_empty, String.append_empty] at happend

theorem not_startsWith_newValue (h : ∀ text, r.newText (r.newText text) = r.newText text) {old : String}
    (hold : r.oldValue = some old) (hne : old ≠ r.newValue) : Text.startsWith r.newValue old = false := by
  rw [Bool.eq_false_iff, ne_eq, Text.startsWith_iff]
  rintro ⟨extra, hnew⟩
  -- The old value alone becomes the new one, and that grows once more.
  have hsecond : r.newText r.newValue = r.newValue ++ extra := by
    conv_lhs => rw [hnew, newText_append hold]
  have hgrown := h old
  rw [newText_self hold, hsecond] at hgrown
  have hextra : extra = "" := String.append_eq_left_iff.mp hgrown
  rw [hextra, String.append_empty] at hnew
  exact hne hnew.symm

theorem not_startsWith_oldValue (h : ∀ text, r.newText (r.newText text) = r.newText text) {old : String}
    (hold : r.oldValue = some old) (hne : old ≠ r.newValue) : Text.startsWith old r.newValue = false := by
  rw [Bool.eq_false_iff, ne_eq, Text.startsWith_iff]
  rintro ⟨extra, hextra⟩
  -- What the first rewrite makes of this text is the old value.
  have hfirst : r.newText (old ++ extra) = old := by rw [newText_append hold, ← hextra]
  have hagain := h (old ++ extra)
  rw [hfirst, newText_self hold] at hagain
  exact hne hagain.symm

theorem newText_newText_iff : (∀ text, r.newText (r.newText text) = r.newText text) ↔ r.IsStable := by
  constructor
  · intro h old hold
    by_cases hsame : old = r.newValue
    · exact Or.inl hsame
    · exact Or.inr ⟨not_startsWith_newValue h hold hsame, not_startsWith_oldValue h hold hsame⟩
  · exact fun h text => newText_newText h text

/-- Every text begins with an empty old value, so the new value is put before it again and again. -/
example : ¬ IsStable ⟨"bean", "class", some "", "x"⟩ := by decide

/-! ### Trees -/

/-- An element whose only attribute is eligible. -/
def eligibleElement (r : ChangeXmlAttribute) (text : String) : Element :=
  (Element.new .blank r.elementName).pushAttribute (Attribute.new .blank .blank r.attributeName text)

theorem occurrences_eligibleElement (r : ChangeXmlAttribute) (text : String) :
    Element.occurrences [] (r.eligibleElement text) =
      [⟨[], r.elementName, Attribute.new .blank .blank r.attributeName text⟩] := rfl

theorem edit_eligibleElement (r : ChangeXmlAttribute) (text : String) :
    r.edit (r.eligibleElement text) = r.eligibleElement (r.newText text) := by
  have htext : r.textAt ⟨[], r.elementName, Attribute.new .blank .blank r.attributeName text⟩ = r.newText text :=
    if_pos ⟨rfl, rfl, List.not_mem_nil⟩
  rw [edit_eq_mapTexts, eligibleElement, eligibleElement, ← htext]
  rfl

theorem eligibleElement_injective (r : ChangeXmlAttribute) : Function.Injective r.eligibleElement := by
  intro text text' h
  have hoccurrences := congrArg (Element.occurrences []) h
  rw [occurrences_eligibleElement, occurrences_eligibleElement] at hoccurrences
  exact congrArg Occurrence.text (List.cons.inj hoccurrences).1

theorem edit_edit (h : r.IsStable) (e : Element) : r.edit (r.edit e) = r.edit e := by
  simp only [edit_eq_mapTexts, Element.mapTexts_mapTexts]
  exact Element.mapTexts_congr fun o _ => textAt_withText_textAt h o

/-- A visitor finds nothing to change in a tree exactly if the tree stays as it is. -/
theorem run_visitElement_eq_none_iff {e : Element} {n : Nat} :
    (r.visitor.visitElement e).run n = (none, n) ↔ r.edit e = e := by
  rw [run_visitElement, ← edit_eq_mapTexts, Prod.mk.injEq, differing_eq_none_iff, Nat.add_eq_left,
    ← edit_eq_self_iff, and_self]

theorem run_visitDocument_eq_none_iff {d : Document} {n : Nat} :
    (r.visitor.visitDocument d).run n = (none, n) ↔ r.edit d.root = d.root := by
  rw [run_visitDocument, ← edit_eq_mapTexts, ← editDocument_eq, Prod.mk.injEq, differing_eq_none_iff, Nat.add_eq_left,
    ← edit_eq_self_iff, editDocument_eq_self_iff, and_self]

/-- A second rewrite changes nothing in any tree exactly if there is no old value, or it is the new one, or neither of the two
begins with the other; and exactly then a visit of a rewritten tree, or of a rewritten document, answers `none` and leaves the
count as it is. -/
theorem edit_edit_eq_iff_isStable (r : ChangeXmlAttribute) :
    ((∀ e, r.edit (r.edit e) = r.edit e) ↔ r.IsStable) ∧
    (r.IsStable ↔ ∀ e n, (r.visitor.visitElement (r.edit e)).run n = (none, n)) ∧
    (r.IsStable ↔ ∀ d n, (r.visitor.visitDocument (r.editDocument d)).run n = (none, n)) := by
  have htrees : (∀ e, r.edit (r.edit e) = r.edit e) ↔ r.IsStable := by
    constructor
    · intro h
      apply newText_newText_iff.mp
      intro text
      have hagain := h (r.eligibleElement text)
      simp only [edit_eligibleElement] at hagain
      exact r.eligibleElement_injective hagain
    · exact fun h e => edit_edit h e
  refine ⟨htrees, ?_, ?_⟩
  · simp only [run_visitElement_eq_none_iff, forall_const]
    exact htrees.symm
  · simp only [run_visitDocument_eq_none_iff, editDocument_eq, forall_const, ← htrees]
    constructor
    · exact fun h d => h d.root
    · exact fun h e => h ⟨.blank, AppendToTextFile.blankPath, none, e⟩

end SourceRecipes.ChangeXmlAttribute
