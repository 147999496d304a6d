import SourceRecipes.Proofs.Recipe.Meaning
import SourceRecipes.Run.Cycle

/-!
# Recipes in their phases

Once a cycle has begun, all that a recipe holds is determined by what it was chosen to do and by the files it has seen.
`scanned` is that state. Each phase takes it on, or leaves it and does what the recipe asks for.
-/

namespace SourceRecipes

theorem Logged.value_mapM {α β : Type} (f : α → Logged β) (items : List α) :
    (items.mapM f).value = items.map fun a => (f a).value := by
  induction items with
  | nil => rfl
  | cons a rest ih =>
      rw [List.mapM_cons, Logged.value_bind, Logged.value_bind, Logged.value_pure, ih, List.map_cons]

def ActiveRecipe.spec : ActiveRecipe → RecipeSpec
  | .inl r => .changeXmlAttribute r.recipe
  | .inr r => .appendToTextFile r.recipe

namespace RecipeSpec

/-- A recipe in a cycle in which it has seen the files. -/
def scanned (files : List SourceFile) : RecipeSpec → ActiveRecipe
  | changeXmlAttribute recipe => .inl ⟨recipe⟩
  | appendToTextFile recipe => .inr ⟨recipe, some ⟨files.any recipe.targets⟩⟩

@[simp]
theorem spec_active (spec : RecipeSpec) : ActiveRecipe.spec spec.active = spec := by
  cases spec <;> rfl

@[simp]
theorem spec_scanned (files : List SourceFile) (spec : RecipeSpec) : ActiveRecipe.spec (spec.scanned files) = spec := by
  cases spec <;> rfl

theorem any_targets_iff {r : AppendToTextFile} {files : List SourceFile} :
    files.any r.targets = true ↔ r.relativeFileName ∈ files.map SourceFile.path := by
  simp only [List.any_eq_true, AppendToTextFile.targets, decide_eq_true_eq, List.mem_map]

theorem begin_eq_scanned (r : ActiveRecipe) (context : Context) :
    Runnable.begin r context = (ActiveRecipe.spec r).scanned [] := by
  cases r <;> rfl

theorem value_scan (files : List SourceFile) (spec : RecipeSpec) (file : SourceFile) (context : Context) :
    (Runnable.scan (spec.scanned files) file context).value = spec.scanned (files ++ [file]) := by
  cases spec with
  | changeXmlAttribute r => rfl
  | appendToTextFile r =>
      have hscan : (Runnable.scan ((appendToTextFile r).scanned files) file context).value =
          .inr ⟨r, some (r.scan ⟨files.any r.targets⟩ file).value⟩ := rfl
      have hpresence : (r.scan ⟨files.any r.targets⟩ file).value = ⟨(files ++ [file]).any r.targets⟩ := by
        rw [AppendToTextFile.scan, List.any_append, List.any_cons, List.any_nil, Bool.or_false]
        cases hfiles : files.any r.targets <;> cases hfile : r.targets file <;> rfl
      rw [hscan, hpresence]
      rfl

theorem run_generate (r : AppendToTextFile) (files seen : List SourceFile) (context : Context) (supply : IdSupply) :
    ((Runnable.generate ((appendToTextFile r).scanned files) seen context).run supply).value =
      if r.relativeFileName ∈ files.map SourceFile.path ++ seen.map SourceFile.path then
        (([], (appendToTextFile r).scanned files), supply)
      else (([.plainText ⟨supply.draw.1, r.relativeFileName, r.newText⟩], (appendToTextFile r).scanned files),
        supply.draw.2) := by
  have hmet : (files.any r.targets || seen.any r.targets) = true ↔
      r.relativeFileName ∈ files.map SourceFile.path ++ seen.map SourceFile.path := by
    rw [Bool.or_eq_true, any_targets_iff, any_targets_iff, List.mem_append]
  have hrun : ((Runnable.generate ((appendToTextFile r).scanned files) seen context).run supply).value =
      ((((r.generate ⟨files.any r.targets⟩ seen).run supply).value.1, (appendToTextFile r).scanned files),
        ((r.generate ⟨files.any r.targets⟩ seen).run supply).value.2) := rfl
  rw [hrun, AppendToTextFile.generate]
  by_cases htaken : r.relativeFileName ∈ files.map SourceFile.path ++ seen.map SourceFile.path
  · rw [if_pos (hmet.mpr htaken), if_pos htaken]
    rfl
  · rw [if_neg (mt hmet.mp htaken), if_neg htaken]
    rfl

theorem value_mergeInto (r : AppendToTextFile) (t : PlainText) :
    (r.mergeInto t).value =
      differing (.plainText t) (.plainText { t with text := (r.merged? t.text).getD t.text }) := by
  rw [AppendToTextFile.mergeInto]
  cases r.merged? t.text with
  | none => exact (differing_self _).symm
  | some text =>
      dsimp only [Option.getD_some]
      by_cases hsame : text = t.text
      · subst hsame
        rw [if_pos rfl, differing_self]
        rfl
      · have hfile : SourceFile.plainText { t with text } ≠ .plainText t := fun heq =>
          hsame (congrArg PlainText.text (SourceFile.plainText.inj heq))
        rw [if_neg hsame, differing, if_neg hfile]
        rfl

theorem value_transform {files : List SourceFile} {file : SourceFile} (h : file.path ∈ files.map SourceFile.path)
    (spec : RecipeSpec) (context : Context) :
    (Runnable.transform (spec.scanned files) file context).value = differing file (spec.applyTo file) := by
  cases spec with
  | changeXmlAttribute r => exact r.value_visit file
  | appendToTextFile r =>
      have htransform : (Runnable.transform ((appendToTextFile r).scanned files) file context).value =
          (r.transform ⟨files.any r.targets⟩ file).value := rfl
      rw [htransform, AppendToTextFile.transform.eq_def]
      by_cases htarget : file.path = r.relativeFileName
      · have hmet : (files.any r.targets && r.targets file) = true := by
          rw [Bool.and_eq_true, any_targets_iff, ← htarget]
          exact ⟨h, decide_eq_true htarget⟩
        rw [if_pos hmet]
        cases file with
        | plainText t =>
            have hmerge : (appendToTextFile r).applyTo (.plainText t) =
                .plainText { t with text := (r.merged? t.text).getD t.text } := if_pos htarget
            rw [hmerge]
            exact value_mergeInto r t
        | markup d => exact (differing_self _).symm
      · have hmet : ¬ (files.any r.targets && r.targets file) = true := by
          rw [Bool.and_eq_true, not_and]
          exact fun _ => by simpa [AppendToTextFile.targets] using htarget
        have hother : (appendToTextFile r).applyTo file = file := by
          cases file with
          | plainText t => exact if_neg htarget
          | markup d => rfl
        rw [if_neg hmet, hother, differing_self]
        rfl

end RecipeSpec

end SourceRecipes
