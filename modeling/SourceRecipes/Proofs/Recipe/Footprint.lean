import SourceRecipes.Proofs.Digest.Edits
import SourceRecipes.Proofs.Recipe.Meaning

/-!
# What recipes may edit

Whatever recipes make of a file is an edit of it: a new text if one of them merges into a plain text at its path, new texts
of attributes that one of them rewrites. All else of the file is as it was, identities included. So an edit is known by
the texts that it changes, and it shows in the stream of the file.
-/

namespace SourceRecipes

/-- The texts that recipes may change: the one of a plain text, those of all attributes of a markup file. -/
def SourceFile.values : SourceFile → List String
  | plainText t => [t.text]
  | markup d => (Element.occurrences [] d.root).map Occurrence.text

namespace RecipeSpec

variable {specs : List RecipeSpec} {before middle after : SourceFile}

/-- A file and one that differs from it at most in the texts that some of the recipes ask to change. -/
inductive IsEdit (specs : List RecipeSpec) : SourceFile → SourceFile → Prop where
  | plainText (t : PlainText) (text : String)
      (allowed : text ≠ t.text → ∃ r, appendToTextFile r ∈ specs ∧ r.relativeFileName = t.path ∧
        (r.strategy = .extend ∨ r.strategy = .replace)) :
      IsEdit specs (.plainText t) (.plainText { t with text })
  | markup (d : Document) (texts : Occurrence → String)
      (allowed : ∀ o ∈ Element.occurrences [] d.root, texts o ≠ o.text →
        ∃ r, changeXmlAttribute r ∈ specs ∧ r.IsEligible o) :
      IsEdit specs (.markup d) (.markup { d with root := Element.mapTexts texts [] d.root })

namespace IsEdit

theorem refl (specs : List RecipeSpec) (file : SourceFile) : IsEdit specs file file := by
  cases file with
  | plainText t => exact IsEdit.plainText t t.text fun h => absurd rfl h
  | markup d =>
      have hself : Element.mapTexts Occurrence.text [] d.root = d.root := Element.mapTexts_self fun _ _ => rfl
      have hedit : IsEdit specs (.markup d) (.markup { d with root := Element.mapTexts Occurrence.text [] d.root }) :=
        IsEdit.markup d Occurrence.text fun _ _ h => absurd rfl h
      rwa [hself] at hedit

theorem trans (h : IsEdit specs before middle) (h' : IsEdit specs middle after) : IsEdit specs before after := by
  cases h with
  | plainText t text hallowed =>
      cases h' with
      | plainText _ text' hallowed' =>
          apply IsEdit.plainText t text'
          intro hne
          by_cases hsame : text' = text
          · exact hallowed fun htext => hne (hsame.trans htext)
          · exact hallowed' hsame
  | markup d texts hallowed =>
      cases h' with
      | markup _ texts' hallowed' =>
          rw [Element.mapTexts_mapTexts]
          apply IsEdit.markup d
          intro o ho hne
          by_cases hsame : texts' (o.withText (texts o)) = texts o
          · exact hallowed o ho fun htext => hne (hsame.trans htext)
          · have hmem : o.withText (texts o) ∈ Element.occurrences [] (Element.mapTexts texts [] d.root) := by
              rw [Element.occurrences_mapTexts]
              exact List.mem_map_of_mem ho
            exact hallowed' (o.withText (texts o)) hmem hsame

theorem path_eq (h : IsEdit specs before after) : after.path = before.path := by
  cases h <;> rfl

/-- An edit that changes none of the texts changes nothing. -/
theorem eq_of_values_eq (h : IsEdit specs before after) (hvalues : after.values = before.values) : after = before := by
  cases h with
  | plainText t text _ =>
      have htext : text = t.text := (List.cons.inj hvalues).1
      rw [htext]
  | markup d texts _ =>
      have hsame : ∀ o ∈ Element.occurrences [] d.root, texts o = o.text := by
        rw [SourceFile.values, SourceFile.values, Element.occurrences_mapTexts, List.map_map] at hvalues
        exact List.map_inj_left.mp hvalues
      rw [Element.mapTexts_self hsame]

theorem values_eq_iff (h : IsEdit specs before after) : after.values = before.values ↔ after = before :=
  ⟨h.eq_of_values_eq, congrArg SourceFile.values⟩

/-- An edit that leaves the stream as it is changes nothing. -/
theorem eq_of_stream_eq (h : IsEdit specs before after) (hbefore : before.Fits) (hafter : after.Fits)
    (hstream : after.stream = before.stream) : after = before := by
  cases h with
  | plainText t text _ =>
      have hfields : ByteStream.field text ++ [] = ByteStream.field t.text ++ [] :=
        congrArg (· ++ []) (List.append_cancel_left hstream)
      have htext : text = t.text :=
        (ByteStream.field_append_inj (hafter _ List.mem_cons_self) (hbefore _ List.mem_cons_self) hfields).1
      rw [htext]
  | markup d texts _ =>
      have hsame : (SourceFile.markup d).mapTexts texts = .markup d :=
        SourceFile.mapTexts_eq_self_of_stream_eq hbefore hafter hstream
      exact hsame

/-- If different streams have different digests, an edit that changes a text shows in the fingerprint. -/
theorem fingerprint_eq_iff (h : IsEdit specs before after) (hbefore : before.Fits) (hafter : after.Fits)
    (hdigest : after.fingerprint = before.fingerprint → after.stream = before.stream) :
    after.fingerprint = before.fingerprint ↔ after = before :=
  ⟨fun hsame => h.eq_of_stream_eq hbefore hafter (hdigest hsame), congrArg SourceFile.fingerprint⟩

end IsEdit

/-! ### Recipes -/

theorem isEdit_applyTo {spec : RecipeSpec} (h : spec ∈ specs) (file : SourceFile) :
    IsEdit specs file (spec.applyTo file) := by
  cases spec with
  | changeXmlAttribute r =>
      rw [applyTo, ChangeXmlAttribute.editFile_eq_mapTexts]
      cases file with
      | plainText t => exact IsEdit.refl specs _
      | markup d =>
          apply IsEdit.markup d
          intro o _ hne
          by_cases heligible : r.IsEligible o
          · exact ⟨r, h, heligible⟩
          · exact absurd (if_neg heligible) hne
  | appendToTextFile r =>
      cases file with
      | plainText t =>
          rw [applyTo, AppendToTextFile.mergeFile]
          split
          next hpath =>
              apply IsEdit.plainText t
              intro hne
              refine ⟨r, h, hpath.symm, ?_⟩
              cases hstrategy : r.strategy with
              | extend => exact Or.inl rfl
              | replace => exact Or.inr rfl
              | leave =>
                  rw [AppendToTextFile.merged?, hstrategy] at hne
                  exact absurd rfl hne
          next => exact IsEdit.refl specs _
      | markup d => exact IsEdit.refl specs _

theorem isEdit_applyAll {applied : List RecipeSpec} (h : applied ⊆ specs) (file : SourceFile) :
    IsEdit specs file (applyAll applied file) := by
  induction applied generalizing file with
  | nil => exact IsEdit.refl specs file
  | cons spec rest ih =>
      rw [List.cons_subset] at h
      rw [applyAll_cons]
      exact (isEdit_applyTo h.1 file).trans (ih h.2 (spec.applyTo file))

end RecipeSpec

end SourceRecipes
