import SourceRecipes.Proofs.Markup.Printed
import SourceRecipes.Proofs.Recipe.Rewriting
import SourceRecipes.Recipe.Spec
import SourceRecipes.SourceSet

/-!
# What recipes ask for

The meaning of a list of recipes knows no phases. A file that is there goes through the recipes one after the other. A
missing target is created by the first recipe that names it, and by no other. `nextSources` puts both together: what is
there keeps its place, what is created follows in the order of the recipes.
-/

namespace SourceRecipes

/-- The file after the merge. Only a plain text at the target path is merged. -/
def AppendToTextFile.mergeFile (r : AppendToTextFile) : SourceFile → SourceFile
  | .plainText t =>
    if t.path = r.relativeFileName then .plainText { t with text := (r.merged? t.text).getD t.text } else .plainText t
  | .markup d => .markup d

namespace RecipeSpec

/-- What a recipe makes of a file that was there before it. -/
def applyTo : RecipeSpec → SourceFile → SourceFile
  | changeXmlAttribute r, file => r.editFile file
  | appendToTextFile r, file => r.mergeFile file

/-- What the recipes in order make of a file that was there before them. -/
def applyAll (specs : List RecipeSpec) (file : SourceFile) : SourceFile :=
  specs.foldl (fun file spec => spec.applyTo file) file

/-- The recipes that create their target: it is not among the paths taken, nor the target of an earlier recipe. -/
def creators (taken : List SourcePath) : List RecipeSpec → List AppendToTextFile
  | [] => []
  | changeXmlAttribute _ :: rest => creators taken rest
  | appendToTextFile r :: rest =>
    if r.relativeFileName ∈ taken then creators taken rest
    else r :: creators (taken ++ [r.relativeFileName]) rest

/-- The new files of recipes, with fresh identities in order. -/
def created (supply : IdSupply) : List AppendToTextFile → List SourceFile
  | [] => []
  | r :: rest => .plainText ⟨supply.draw.1, r.relativeFileName, r.newText⟩ :: created supply.draw.2 rest

/-! ### Files that are there -/

@[simp]
theorem path_applyTo (spec : RecipeSpec) (file : SourceFile) : (spec.applyTo file).path = file.path := by
  cases spec with
  | changeXmlAttribute r =>
      cases file with
      | plainText t => rfl
      | markup d =>
          have hpath : (r.editDocument d).path = d.path := by rw [ChangeXmlAttribute.editDocument_eq]
          exact hpath
  | appendToTextFile r =>
      cases file with
      | plainText t =>
          simp only [applyTo, AppendToTextFile.mergeFile]
          split <;> rfl
      | markup d => rfl

theorem applyAll_cons (spec : RecipeSpec) (rest : List RecipeSpec) (file : SourceFile) :
    applyAll (spec :: rest) file = applyAll rest (spec.applyTo file) := rfl

@[simp]
theorem path_applyAll (specs : List RecipeSpec) (file : SourceFile) : (applyAll specs file).path = file.path := by
  induction specs generalizing file with
  | nil => rfl
  | cons spec rest ih => rw [applyAll_cons, ih, path_applyTo]

theorem map_path_applyAll (specs : List RecipeSpec) (files : List SourceFile) :
    (files.map (applyAll specs)).map SourceFile.path = files.map SourceFile.path := by
  rw [List.map_map]
  exact List.map_congr_left fun file _ => path_applyAll specs file

/-- What commutes with every recipe commutes with a list of them. -/
theorem applyAll_comm {f : SourceFile → SourceFile} (h : ∀ spec file, f (applyTo spec file) = applyTo spec (f file))
    (specs : List RecipeSpec) (file : SourceFile) : f (applyAll specs file) = applyAll specs (f file) := by
  induction specs generalizing file with
  | nil => rfl
  | cons spec rest ih => rw [applyAll_cons, applyAll_cons, ih, h]

theorem map_applyAll_comm {f : SourceFile → SourceFile} (h : ∀ spec file, f (applyTo spec file) = applyTo spec (f file))
    (specs : List RecipeSpec) (files : List SourceFile) :
    (files.map (applyAll specs)).map f = (files.map f).map (applyAll specs) := by
  rw [List.map_map, List.map_map]
  exact List.map_congr_left fun file _ => applyAll_comm h specs file

/-! ### Attribute texts -/

def textAfter : List ChangeXmlAttribute → Occurrence → String
  | [], o => o.text
  | r :: rest, o => textAfter rest (o.withText (r.textAt o))

/-- Rewrites in order are one change of the attribute texts. -/
theorem applyAll_changes (recipes : List ChangeXmlAttribute) (file : SourceFile) :
    applyAll (recipes.map changeXmlAttribute) file = file.mapTexts (textAfter recipes) := by
  induction recipes generalizing file with
  | nil => exact file.mapTexts_text.symm
  | cons r rest ih =>
      rw [List.map_cons, applyAll_cons, applyTo, ih, ChangeXmlAttribute.editFile_eq_mapTexts,
        SourceFile.mapTexts_mapTexts]
      rfl

theorem creators_changes (taken : List SourcePath) (recipes : List ChangeXmlAttribute) :
    creators taken (recipes.map changeXmlAttribute) = [] := by
  induction recipes with
  | nil => rfl
  | cons r rest ih => exact ih

/-! ### Files that are created -/

theorem map_path_created (supply : IdSupply) (recipes : List AppendToTextFile) :
    (created supply recipes).map SourceFile.path = recipes.map AppendToTextFile.relativeFileName := by
  induction recipes generalizing supply with
  | nil => rfl
  | cons r rest ih =>
      rw [created, List.map_cons, List.map_cons, ih]
      rfl

theorem length_created (supply : IdSupply) (recipes : List AppendToTextFile) :
    (created supply recipes).length = recipes.length := by
  have hpaths := congrArg List.length (map_path_created supply recipes)
  rwa [List.length_map, List.length_map] at hpaths

theorem isEmpty_created (supply : IdSupply) (recipes : List AppendToTextFile) :
    (created supply recipes).isEmpty = recipes.isEmpty := by
  cases recipes <;> rfl

/-- The new files differ from run to run in nothing but the identities drawn for them. -/
theorem map_created {f : SourceFile → SourceFile} (h : ∀ t : PlainText, f (.plainText t) = .plainText { t with id := .blank })
    (supply : IdSupply) (recipes : List AppendToTextFile) :
    (created supply recipes).map f = recipes.map fun r => .plainText ⟨.blank, r.relativeFileName, r.newText⟩ := by
  induction recipes generalizing supply with
  | nil => rfl
  | cons r rest ih => rw [created, List.map_cons, ih, List.map_cons, h]

theorem nodup_creators {taken : List SourcePath} (h : taken.Nodup) (specs : List RecipeSpec) :
    (taken ++ (creators taken specs).map AppendToTextFile.relativeFileName).Nodup := by
  induction specs generalizing taken with
  | nil => rwa [creators, List.map_nil, List.append_nil]
  | cons spec rest ih =>
      cases spec with
      | changeXmlAttribute r => exact ih h
      | appendToTextFile r =>
          rw [creators]
          split
          next htaken => exact ih h
          next hfree =>
              have hnodup : (taken ++ [r.relativeFileName]).Nodup :=
                List.nodup_append.mpr ⟨h, by simp, by
                  intro p hp q hq heq
                  rw [List.mem_singleton] at hq
                  exact hfree (hq ▸ heq ▸ hp)⟩
              have hrest := ih hnodup
              rwa [List.append_assoc, List.singleton_append] at hrest

variable {taken : List SourcePath} {specs rest : List RecipeSpec} {spec : RecipeSpec} {r : AppendToTextFile}

/-- The first recipe with a target: no file is there, and no recipe before it has the target. -/
def IsFirst (taken : List SourcePath) (specs : List RecipeSpec) (r : AppendToTextFile) : Prop :=
  ∃ before after, specs = before ++ appendToTextFile r :: after ∧ r.relativeFileName ∉ taken ∧
    ∀ q, appendToTextFile q ∈ before → q.relativeFileName ≠ r.relativeFileName

theorem IsFirst.not_mem (h : IsFirst taken specs r) : r.relativeFileName ∉ taken := by
  obtain ⟨before, after, -, hfree, -⟩ := h
  exact hfree

theorem IsFirst.mem (h : IsFirst taken specs r) : appendToTextFile r ∈ specs := by
  obtain ⟨before, after, rfl, -, -⟩ := h
  exact List.mem_append_right _ List.mem_cons_self

theorem IsFirst.cons (h : IsFirst taken rest r)
    (hspec : ∀ q, spec = appendToTextFile q → q.relativeFileName ≠ r.relativeFileName) :
    IsFirst taken (spec :: rest) r := by
  obtain ⟨before, after, rfl, hfree, hfirst⟩ := h
  refine ⟨spec :: before, after, rfl, hfree, fun q hq => ?_⟩
  rcases List.mem_cons.mp hq with heq | hq
  · exact hspec q heq.symm
  · exact hfirst q hq

theorem IsFirst.head_or_tail (h : IsFirst taken (spec :: rest) r) :
    spec = appendToTextFile r ∧ r.relativeFileName ∉ taken ∨
      IsFirst taken rest r ∧ ∀ q, spec = appendToTextFile q → q.relativeFileName ≠ r.relativeFileName := by
  obtain ⟨before, after, hspecs, hfree, hfirst⟩ := h
  cases before with
  | nil => exact Or.inl ⟨(List.cons.inj hspecs).1, hfree⟩
  | cons other before =>
      obtain ⟨rfl, rfl⟩ := List.cons.inj hspecs
      refine Or.inr ⟨⟨before, after, rfl, hfree, fun q hq => hfirst q (List.mem_cons_of_mem _ hq)⟩, ?_⟩
      rintro q rfl
      exact hfirst q List.mem_cons_self

theorem isFirst_append_taken_iff {path : SourcePath} :
    IsFirst (taken ++ [path]) specs r ↔ IsFirst taken specs r ∧ path ≠ r.relativeFileName := by
  constructor
  · rintro ⟨before, after, hspecs, hfree, hfirst⟩
    rw [List.mem_append, List.mem_singleton, not_or] at hfree
    exact ⟨⟨before, after, hspecs, hfree.1, hfirst⟩, Ne.symm hfree.2⟩
  · rintro ⟨⟨before, after, hspecs, hfree, hfirst⟩, hpath⟩
    refine ⟨before, after, hspecs, ?_, hfirst⟩
    rw [List.mem_append, List.mem_singleton, not_or]
    exact ⟨hfree, Ne.symm hpath⟩

/-- The recipes that create a file are the first ones with their targets. -/
theorem mem_creators_iff : r ∈ creators taken specs ↔ IsFirst taken specs r := by
  induction specs generalizing taken with
  | nil => simp [creators, IsFirst]
  | cons spec rest ih =>
      cases spec with
      | changeXmlAttribute s =>
          rw [creators, ih]
          constructor
          · exact fun h => h.cons (by simp)
          · exact fun h => h.head_or_tail.elim (by simp) And.left
      | appendToTextFile s =>
          rw [creators]
          by_cases htaken : s.relativeFileName ∈ taken
          · rw [if_pos htaken, ih]
            constructor
            · intro h
              apply h.cons
              rintro q ⟨⟩ heq
              exact h.not_mem (heq ▸ htaken)
            · intro h
              rcases h.head_or_tail with ⟨heq, hfree⟩ | ⟨hrest, -⟩
              · cases heq
                exact absurd htaken hfree
              · exact hrest
          · rw [if_neg htaken, List.mem_cons, ih, isFirst_append_taken_iff]
            constructor
            · rintro (rfl | ⟨hrest, hother⟩)
              · exact ⟨[], rest, rfl, htaken, by simp⟩
              · exact hrest.cons (by rintro q ⟨⟩; exact hother)
            · intro h
              rcases h.head_or_tail with ⟨heq, -⟩ | ⟨hrest, hother⟩
              · cases heq
                exact Or.inl rfl
              · exact Or.inr ⟨hrest, hother s rfl⟩

theorem creators_eq_nil_of_forall_not_mem (hfree : ∀ r, appendToTextFile r ∉ specs) (taken : List SourcePath) :
    creators taken specs = [] := by
  rw [List.eq_nil_iff_forall_not_mem]
  intro r hr
  exact hfree r (mem_creators_iff.mp hr).mem

/-! ### The whole set -/

theorem nodup_nextSources (specs : List RecipeSpec) (sources : SourceSet) (supply : IdSupply) :
    ((sources.files.map (applyAll specs) ++ created supply (creators sources.paths specs)).map
      SourceFile.path).Nodup := by
  rw [List.map_append, map_path_applyAll, map_path_created]
  exact nodup_creators sources.nodup specs

def nextSources (specs : List RecipeSpec) (sources : SourceSet) (supply : IdSupply) : SourceSet :=
  ⟨sources.files.map (applyAll specs) ++ created supply (creators sources.paths specs),
    nodup_nextSources specs sources supply⟩

theorem files_nextSources (specs : List RecipeSpec) (sources : SourceSet) (supply : IdSupply) :
    (nextSources specs sources supply).files =
      sources.files.map (applyAll specs) ++ created supply (creators sources.paths specs) := rfl

theorem size_nextSources (specs : List RecipeSpec) (sources : SourceSet) (supply : IdSupply) :
    (nextSources specs sources supply).size = sources.size + (creators sources.paths specs).length := by
  rw [SourceSet.size, files_nextSources, List.length_append, List.length_map, length_created, SourceSet.size]

end RecipeSpec

end SourceRecipes
