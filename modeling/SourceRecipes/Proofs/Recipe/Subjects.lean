import Mathlib.Data.List.Sort
import SourceRecipes.Proofs.Recipe.Meaning

/-!
# What recipes work on

Every recipe has one subject: the attributes with a key on the elements with a name, or the text at a path. The places of a
file, its attributes or its text, belong to one subject each, and at a place only the recipes count that have its
subject. So what a list of recipes makes of a file is known from the recipes of each subject in their order: how recipes of
different subjects stand to each other does not matter.
-/

namespace SourceRecipes

inductive Subject where
  | attributes (elementName attributeName : String)
  | text (path : SourcePath)
  deriving DecidableEq

namespace RecipeSpec

def subject : RecipeSpec → Subject
  | changeXmlAttribute r => .attributes r.elementName r.attributeName
  | appendToTextFile r => .text r.relativeFileName

/-- The recipes with a subject, in order. -/
def withSubject (specs : List RecipeSpec) (s : Subject) : List RecipeSpec :=
  specs.filter fun spec => spec.subject = s

end RecipeSpec

/-! ### Places -/

/-- What recipes make of the places of one kind. No recipe moves a place to another subject, and a recipe with another
subject leaves it as it is. -/
structure LocalEffect (α : Type) where
  act : RecipeSpec → α → α
  subject : α → Subject
  subject_act : ∀ spec place, subject (act spec place) = subject place
  act_of_ne : ∀ {spec place}, spec.subject ≠ subject place → act spec place = place

namespace LocalEffect

open RecipeSpec

variable {α : Type} (e : LocalEffect α)

/-- What recipes in order make of a place. -/
def actAll (specs : List RecipeSpec) (place : α) : α :=
  specs.foldl (fun place spec => e.act spec place) place

theorem actAll_cons (spec : RecipeSpec) (rest : List RecipeSpec) (place : α) :
    e.actAll (spec :: rest) place = e.actAll rest (e.act spec place) := rfl

theorem actAll_withSubject (specs : List RecipeSpec) (place : α) :
    e.actAll (withSubject specs (e.subject place)) place = e.actAll specs place := by
  induction specs generalizing place with
  | nil => rfl
  | cons spec rest ih =>
      -- The first recipe leaves a place of the same subject, so the same recipes count after it.
      have hrest := ih (e.act spec place)
      rw [e.subject_act] at hrest
      rw [withSubject, actAll_cons]
      by_cases hsubject : spec.subject = e.subject place
      · rw [List.filter_cons_of_pos (by simpa using hsubject), actAll_cons]
        exact hrest
      · rw [List.filter_cons_of_neg (by simpa using hsubject)]
        rw [e.act_of_ne hsubject] at hrest ⊢
        exact hrest

end LocalEffect

/-- What recipes make of a plain text. -/
def LocalEffect.onText : LocalEffect PlainText where
  act
    | .changeXmlAttribute _, t => t
    | .appendToTextFile r, t =>
      if t.path = r.relativeFileName then { t with text := (r.merged? t.text).getD t.text } else t
  subject t := .text t.path
  subject_act spec t := by
    cases spec with
    | changeXmlAttribute r => rfl
    | appendToTextFile r =>
        dsimp only
        split <;> rfl
  act_of_ne {spec t} h := by
    cases spec with
    | changeXmlAttribute r => rfl
    | appendToTextFile r =>
        apply if_neg
        intro hpath
        exact h (congrArg Subject.text hpath.symm)

/-- What recipes make of an attribute where it occurs. -/
def LocalEffect.onAttribute : LocalEffect Occurrence where
  act
    | .changeXmlAttribute r, o => o.withText (r.textAt o)
    | .appendToTextFile _, o => o
  subject o := .attributes o.tag o.entry.key
  subject_act spec o := by cases spec <;> rfl
  act_of_ne {spec o} h := by
    cases spec with
    | changeXmlAttribute r =>
        have hother : ¬ r.IsEligible o := by
          rintro ⟨hkey, htag, -⟩
          exact h (congrArg₂ Subject.attributes htag.symm hkey.symm)
        have htext : r.textAt o = o.text := if_neg hother
        dsimp only
        rw [htext]
        rfl
    | appendToTextFile r => rfl

namespace RecipeSpec

open LocalEffect

variable {specs specs' : List RecipeSpec}

/-! ### Files -/

theorem applyAll_plainText (specs : List RecipeSpec) (t : PlainText) :
    applyAll specs (.plainText t) = .plainText (onText.actAll specs t) := by
  induction specs generalizing t with
  | nil => rfl
  | cons spec rest ih =>
      have hstep : spec.applyTo (.plainText t) = .plainText (onText.act spec t) := by
        cases spec with
        | changeXmlAttribute r => rfl
        | appendToTextFile r => exact (apply_ite SourceFile.plainText _ _ _).symm
      rw [applyAll_cons, hstep, ih, actAll_cons]

/-- Recipes keep an attribute but for its text. -/
theorem withText_actAll (specs : List RecipeSpec) (o : Occurrence) :
    o.withText (onAttribute.actAll specs o).text = onAttribute.actAll specs o := by
  induction specs generalizing o with
  | nil => rfl
  | cons spec rest ih =>
      have hstep : ∀ text, (onAttribute.act spec o).withText text = o.withText text := by
        intro text
        cases spec <;> rfl
      rw [actAll_cons, ← hstep, ih]

theorem applyAll_markup (specs : List RecipeSpec) (d : Document) :
    applyAll specs (.markup d) = (SourceFile.markup d).mapTexts fun o => (onAttribute.actAll specs o).text := by
  induction specs generalizing d with
  | nil => exact (SourceFile.mapTexts_text _).symm
  | cons spec rest ih =>
      have hstep : spec.applyTo (.markup d) = (SourceFile.markup d).mapTexts fun o => (onAttribute.act spec o).text := by
        cases spec with
        | changeXmlAttribute r => exact r.editFile_eq_mapTexts (.markup d)
        | appendToTextFile r => exact (SourceFile.mapTexts_text _).symm
      have hoccurrence : ∀ o, o.withText (onAttribute.act spec o).text = onAttribute.act spec o :=
        withText_actAll [spec]
      rw [applyAll_cons, hstep, SourceFile.mapTexts, ih, ← SourceFile.mapTexts, SourceFile.mapTexts_mapTexts]
      simp only [hoccurrence, actAll_cons]

/-- Lists with the same recipes of each subject, in the same order, make the same of every file. -/
theorem applyAll_eq_of_withSubject_eq (h : ∀ s, withSubject specs s = withSubject specs' s) :
    applyAll specs = applyAll specs' := by
  have hplace : ∀ {α : Type} (e : LocalEffect α) (place : α), e.actAll specs place = e.actAll specs' place := by
    intro α e place
    rw [← e.actAll_withSubject specs, h, e.actAll_withSubject]
  funext file
  cases file with
  | plainText t => rw [applyAll_plainText, applyAll_plainText, hplace]
  | markup d => simp only [applyAll_markup, hplace]

end RecipeSpec

end SourceRecipes
