import SourceRecipes.Proofs.Recipe.Footprint
import SourceRecipes.Proofs.Run.Admission
import SourceRecipes.Proofs.Run.Settling

/-!
# What becomes of the files in a run

However many cycles a run takes, every file that was there stays in its place and is at the end an edit of what it was.
All that a run adds follows behind, at paths that were free. Both are kept by a cycle, so they hold of runs.
-/

namespace SourceRecipes.Run

open RecipeSpec

variable {specs : List RecipeSpec}

/-! ### From a cycle to a run -/

/-- What every cycle keeps of the sources holds after all cycles that run. -/
theorem sources_cycles_induction {motive : SourceSet → Prop}
    (step : ∀ sources supply, motive sources → motive (nextSources specs sources supply)) (limit : Nat)
    {state : State ActiveRecipe} (hspecs : state.recipes.map ActiveRecipe.spec = specs)
    (hstart : motive state.sources) (supply : IdSupply) :
    motive ((cycles limit state).run supply).value.1.sources := by
  induction limit generalizing state supply with
  | zero => exact hstart
  | succ limit ih =>
      have hnext : motive (state.next specs supply).sources := step state.sources supply hstart
      rw [run_cycles_succ hspecs]
      split
      · exact ih (map_spec_next specs state supply) hnext _
      · exact hnext

/-- A run reports the changes from the sources it was given to those it ends with. -/
theorem changes_start {ρ : Type} [Runnable ρ] (limit : UInt32) (recipes : List ρ) (sources : SourceSet)
    (supply : IdSupply) :
    ((start limit recipes sources).run supply).value.1.changes =
      Change.between sources ((start limit recipes sources).run supply).value.1.sources := by
  rw [value_start rfl]

theorem sources_start_induction {motive : SourceSet → Prop}
    (step : ∀ sources supply, motive sources → motive (nextSources specs sources supply)) (limit : UInt32)
    {sources : SourceSet} (hstart : motive sources) (supply : IdSupply) :
    motive ((start limit (specs.map RecipeSpec.active) sources).run supply).value.1.sources := by
  rw [value_start rfl]
  exact sources_cycles_induction step limit.toNat (map_spec_active specs) hstart supply

/-! ### Descent -/

/-- The later set holds an edit of every file of the earlier one, in its place, and behind them files at paths that were
free. -/
def Descends (specs : List RecipeSpec) (before after : SourceSet) : Prop :=
  ∃ edit new, after.files = before.files.map edit ++ new ∧
    (∀ file ∈ before.files, IsEdit specs file (edit file)) ∧ ∀ file ∈ new, file.path ∉ before.paths

namespace Descends

variable {before middle after : SourceSet}

theorem refl (specs : List RecipeSpec) (sources : SourceSet) : Descends specs sources sources :=
  ⟨id, [], by simp, fun file _ => IsEdit.refl specs file, by simp⟩

theorem map_path_edit {edit : SourceFile → SourceFile} {files : List SourceFile}
    (h : ∀ file ∈ files, IsEdit specs file (edit file)) :
    (files.map edit).map SourceFile.path = files.map SourceFile.path := by
  rw [List.map_map]
  exact List.map_congr_left fun file hfile => (h file hfile).path_eq

theorem paths_eq (h : Descends specs before after) :
    ∃ new, after.paths = before.paths ++ new ∧ ∀ path ∈ new, path ∉ before.paths := by
  obtain ⟨edit, new, hfiles, hedit, hnew⟩ := h
  refine ⟨new.map SourceFile.path, ?_, ?_⟩
  · rw [SourceSet.paths, hfiles, List.map_append, map_path_edit hedit, SourceSet.paths]
  · rw [List.forall_mem_map]
    exact hnew

theorem trans (h : Descends specs before middle) (h' : Descends specs middle after) : Descends specs before after := by
  have hpaths : before.paths ⊆ middle.paths := by
    obtain ⟨new, hnew, -⟩ := h.paths_eq
    rw [hnew]
    exact List.subset_append_left _ _
  obtain ⟨edit, new, hfiles, hedit, hnew⟩ := h
  obtain ⟨edit', new', hfiles', hedit', hnew'⟩ := h'
  rw [hfiles, List.forall_mem_append, List.forall_mem_map] at hedit'
  -- What the first step added the second one edits, at the paths at which it was added.
  refine ⟨edit' ∘ edit, new.map edit' ++ new', ?_, ?_, ?_⟩
  · rw [hfiles', hfiles, List.map_append, List.map_map, List.append_assoc]
  · intro file hfile
    exact (hedit file hfile).trans (hedit'.1 file hfile)
  · rw [List.forall_mem_append, List.forall_mem_map]
    constructor
    · intro file hfile
      rw [(hedit'.2 file hfile).path_eq]
      exact hnew file hfile
    · intro file hfile hpath
      exact hnew' file hfile (hpaths hpath)

theorem get?_of_mem (h : Descends specs before after) {file : SourceFile} (hfile : file ∈ before.files) :
    ∃ edited, after.get? file.path = some edited ∧ IsEdit specs file edited := by
  obtain ⟨edit, new, hfiles, hedit, -⟩ := h
  refine ⟨edit file, ?_, hedit file hfile⟩
  rw [SourceSet.get?_eq_some_iff, hfiles]
  exact ⟨List.mem_append_left _ (List.mem_map_of_mem hfile), (hedit file hfile).path_eq⟩

theorem isEdit_of_get? (h : Descends specs before after) {file edited : SourceFile} (hedited : edited ∈ after.files)
    (hfile : before.get? edited.path = some file) : IsEdit specs file edited := by
  obtain ⟨hmem, hpath⟩ := SourceSet.get?_eq_some_iff.mp hfile
  obtain ⟨other, hget, hedit⟩ := h.get?_of_mem hmem
  have hself : after.get? file.path = some edited := SourceSet.get?_eq_some_iff.mpr ⟨hedited, hpath.symm⟩
  rw [hself, Option.some.injEq] at hget
  rwa [hget]

end Descends

theorem path_mem_of_mem_created {supply : IdSupply} {recipes : List AppendToTextFile} {file : SourceFile}
    (h : file ∈ created supply recipes) : file.path ∈ recipes.map AppendToTextFile.relativeFileName := by
  rw [← map_path_created supply recipes]
  exact List.mem_map_of_mem h

theorem descends_nextSources (specs : List RecipeSpec) (sources : SourceSet) (supply : IdSupply) :
    Descends specs sources (nextSources specs sources supply) := by
  refine ⟨applyAll specs, created supply (creators sources.paths specs), rfl, ?_, ?_⟩
  · intro file _
    exact isEdit_applyAll (List.Subset.refl specs) file
  · intro file hfile
    obtain ⟨r, hr, hpath⟩ := List.mem_map.mp (path_mem_of_mem_created hfile)
    rw [← hpath]
    exact (mem_creators_iff.mp hr).not_mem

theorem descends_start (specs : List RecipeSpec) (limit : UInt32) (sources : SourceSet) (supply : IdSupply) :
    Descends specs sources ((start limit (specs.map RecipeSpec.active) sources).run supply).value.1.sources :=
  sources_start_induction (fun _ supply h => h.trans (descends_nextSources specs _ supply)) limit
    (Descends.refl specs sources) supply

/-- A run leaves every file at its path and in its place, and what it adds follows at paths that were free. Each file that
was there is at the end an edit of what it was: it differs at most in texts that a recipe of the run asks to change. -/
theorem run_edits_in_place (specs : List RecipeSpec) (sources : SourceSet) (limit : UInt32)
    (session : Session RunResult) (hrun : run limit (specs.map RecipeSpec.active) sources = .ok session)
    (supply : IdSupply) :
    (∃ new, (session.run supply).value.1.sources.paths = sources.paths ++ new ∧
      ∀ path ∈ new, path ∉ sources.paths) ∧
    ∀ file ∈ sources.files, ∃ edited,
      (session.run supply).value.1.sources.get? file.path = some edited ∧ IsEdit specs file edited := by
  have hdescends := descends_start specs limit sources supply
  rw [← eq_start_of_run_eq_ok hrun] at hdescends
  exact ⟨hdescends.paths_eq, fun file hfile => hdescends.get?_of_mem hfile⟩

def notesPath : SourcePath :=
  ⟨false, ["b.txt"], by simp, by simp [IsSegment, isKept, isSeparator]⟩

def diaryPath : SourcePath :=
  ⟨false, ["c.txt"], by simp, by simp [IsSegment, isKept, isSeparator]⟩

/-- A markup file that the recipes below rewrite and a text file that they replace. -/
def sampleSources : SourceSet :=
  SourceSet.ofList [beanFile "old.A", .plainText ⟨.blank, notesPath, "y"⟩]

/-- A rewrite, a replacement of a file that is there, and the creation of one that is not. -/
def sampleSpecs : List RecipeSpec :=
  [.changeXmlAttribute ⟨"bean", "class", some "old", "new"⟩,
    .appendToTextFile ⟨notesPath, "x", none, none, some .replace⟩,
    .appendToTextFile ⟨diaryPath, "x", some "y", some false, none⟩]

theorem run_edits_in_place_of_sample :
    ∃ session, run 1 (sampleSpecs.map RecipeSpec.active) sampleSources = .ok session ∧ ∀ supply,
      (∃ new, (session.run supply).value.1.sources.paths = sampleSources.paths ++ new ∧
        ∀ path ∈ new, path ∉ sampleSources.paths) ∧
      ∀ file ∈ sampleSources.files, ∃ edited,
        (session.run supply).value.1.sources.get? file.path = some edited ∧ IsEdit sampleSpecs file edited :=
  ⟨start 1 (sampleSpecs.map RecipeSpec.active) sampleSources, rfl, run_edits_in_place sampleSpecs sampleSources 1 _ rfl⟩

end SourceRecipes.Run
