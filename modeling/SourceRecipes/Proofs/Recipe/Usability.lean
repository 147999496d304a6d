import SourceRecipes.Proofs.Recipe.Strategy
import SourceRecipes.Recipe.Spec

/-!
# Which options can be used

The names of a rewrite must have a character that is not blank. What is wrong with the options of a recipe is what is
wrong with these names, the one of the element first.
-/

namespace SourceRecipes

namespace Text

/-- No character of the text is other than blank; the empty text has none at all. -/
def AllBlank (text : String) : Prop :=
  ∀ c ∈ text.toList, isBlank c = true

instance (text : String) : Decidable (AllBlank text) :=
  decidable_of_iff (text.toList.all isBlank = true) List.all_eq_true

theorem trimList_eq_nil_iff (text : List Char) : trimList text = [] ↔ ∀ c ∈ text, isBlank c = true := by
  constructor
  · intro h
    obtain ⟨before, after, htext, hbefore, hafter⟩ := exists_trimList text
    rw [h, List.append_nil] at htext
    rw [htext, List.forall_mem_append]
    exact ⟨hbefore, hafter⟩
  · intro h
    rw [trimList, List.dropWhile_eq_nil_iff.mpr h]
    rfl

theorem isEmpty_trim_iff (text : String) : (trim text).isEmpty = true ↔ AllBlank text := by
  rw [String.isEmpty_iff, trim, ← String.toList_inj, String.toList_ofList]
  exact trimList_eq_nil_iff text.toList

end Text

open Text

namespace ChangeXmlAttribute

/-- An element name or attribute name without any character but blanks, which no element or attribute has. -/
def HasBlankName (r : ChangeXmlAttribute) : Prop :=
  AllBlank r.elementName ∨ AllBlank r.attributeName

instance (r : ChangeXmlAttribute) : Decidable r.HasBlankName :=
  inferInstanceAs (Decidable (_ ∨ _))

/-- What is said of blank names: of the element first, then of the attribute. -/
def complaints (r : ChangeXmlAttribute) : List String :=
  (if AllBlank r.elementName then ["elementName must not be empty"] else []) ++
    if AllBlank r.attributeName then ["attributeName must not be empty"] else []

end ChangeXmlAttribute

namespace RecipeSpec

def IsUsable (spec : RecipeSpec) : Prop :=
  ∀ r, spec = changeXmlAttribute r → ¬ r.HasBlankName

theorem complaintIfBlank_eq (key text : String) :
    complaintIfBlank key text = if AllBlank text then [s!"{key} must not be empty"] else [] :=
  if_congr (isEmpty_trim_iff text) rfl rfl

theorem problems_changeXmlAttribute (r : ChangeXmlAttribute) : (changeXmlAttribute r).problems = r.complaints := by
  rw [problems, complaintIfBlank_eq, complaintIfBlank_eq]
  rfl

theorem problems_ne_nil_iff (spec : RecipeSpec) :
    spec.problems ≠ [] ↔ ∃ r, spec = changeXmlAttribute r ∧ r.HasBlankName := by
  cases spec with
  | changeXmlAttribute r =>
      rw [problems_changeXmlAttribute, ChangeXmlAttribute.complaints]
      constructor
      · intro h
        refine ⟨r, rfl, ?_⟩
        by_contra hnone
        obtain ⟨helement, hattribute⟩ := not_or.mp hnone
        rw [if_neg helement, if_neg hattribute] at h
        exact h rfl
      · rintro ⟨_, heq, hblank⟩
        obtain rfl := changeXmlAttribute.inj heq
        rcases hblank with helement | hattribute
        · rw [if_pos helement]
          exact List.append_ne_nil_of_left_ne_nil (List.cons_ne_nil _ _) _
        · rw [if_pos hattribute]
          exact List.append_ne_nil_of_right_ne_nil _ (List.cons_ne_nil _ _)
  | appendToTextFile r =>
      constructor
      · exact fun h => absurd rfl h
      · rintro ⟨_, heq, -⟩
        nomatch heq

theorem isUsable_iff (spec : RecipeSpec) : spec.IsUsable ↔ spec.problems = [] := by
  rw [← not_iff_not, ← ne_eq, problems_ne_nil_iff, IsUsable]
  push Not
  rfl

end RecipeSpec

instance (spec : RecipeSpec) : Decidable spec.IsUsable :=
  decidable_of_iff (spec.problems = []) (RecipeSpec.isUsable_iff spec).symm

end SourceRecipes
