import SourceRecipes.Proofs.Recipe.Reordering
import SourceRecipes.Proofs.Run.Changes
import SourceRecipes.Proofs.Run.Passes

/-!
# Runs of reordered recipes

Two runs whose recipes are reorderings of each other go in step. After every cycle the files that were there from the start
are the same in both, in the same places. The files that were added since are the same but for their order and the
identities drawn for them, and no decision of a run depends on these.
-/

namespace SourceRecipes

namespace SourceFile

/-- The file under the blank identity; the nodes inside it keep theirs. -/
def withoutId : SourceFile → SourceFile
  | plainText t => plainText { t with id := .blank }
  | markup d => markup { d with id := .blank }

@[simp]
theorem path_withoutId (file : SourceFile) : file.withoutId.path = file.path := by
  cases file <;> rfl

@[simp]
theorem fingerprint_withoutId (file : SourceFile) : file.withoutId.fingerprint = file.fingerprint := by
  cases file <;> rfl

end SourceFile

/-- A change to a new file is the same whatever identity the file drew. -/
def Change.withoutNewId (c : Change) : Change :=
  if c.isNew then { c with after := c.after.withoutId } else c

namespace RecipeSpec

theorem withoutId_applyTo (spec : RecipeSpec) (file : SourceFile) :
    (spec.applyTo file).withoutId = spec.applyTo file.withoutId := by
  cases spec with
  | changeXmlAttribute r =>
      rw [applyTo, applyTo, ChangeXmlAttribute.editFile_eq_mapTexts, ChangeXmlAttribute.editFile_eq_mapTexts]
      cases file <;> rfl
  | appendToTextFile r =>
      cases file with
      | plainText t =>
          by_cases hpath : t.path = r.relativeFileName <;>
            simp only [applyTo, AppendToTextFile.mergeFile, SourceFile.withoutId, hpath, ↓reduceIte]
      | markup d => rfl

end RecipeSpec

namespace Run

open RecipeSpec

variable {specs specs' : List RecipeSpec} {origin a b : SourceSet}

/-- Both sets hold the same files at the paths of an earlier set, in the same places, and behind them the same files but for
order and identities. -/
def Alike (origin a b : SourceSet) : Prop :=
  ∃ kept new new', a.files = kept ++ new ∧ b.files = kept ++ new' ∧ kept.map SourceFile.path = origin.paths ∧
    (new.map SourceFile.withoutId).Perm (new'.map SourceFile.withoutId)

theorem map_path_perm {new new' : List SourceFile}
    (h : (new.map SourceFile.withoutId).Perm (new'.map SourceFile.withoutId)) :
    (new.map SourceFile.path).Perm (new'.map SourceFile.path) := by
  have hpath : ∀ files : List SourceFile,
      (files.map SourceFile.withoutId).map SourceFile.path = files.map SourceFile.path := by
    intro files
    rw [List.map_map]
    exact List.map_congr_left fun file _ => file.path_withoutId
  rw [← hpath new, ← hpath new']
  exact h.map SourceFile.path

namespace Alike

theorem refl (sources : SourceSet) : Alike sources sources sources :=
  ⟨sources.files, [], [], by simp, by simp, rfl, List.Perm.nil⟩

theorem paths_perm (h : Alike origin a b) : a.paths.Perm b.paths := by
  obtain ⟨kept, new, new', ha, hb, -, hperm⟩ := h
  rw [SourceSet.paths, SourceSet.paths, ha, hb, List.map_append, List.map_append]
  exact (map_path_perm hperm).append_left _

theorem creators_perm (h : Alike origin a b) (hspecs : ∀ s, withSubject specs s = withSubject specs' s) :
    (creators a.paths specs).Perm (creators b.paths specs') :=
  RecipeSpec.creators_perm hspecs a.nodup b.nodup fun _ => h.paths_perm.mem_iff

/-- A cycle keeps two sets alike. -/
theorem nextSources (h : Alike origin a b) (hspecs : ∀ s, withSubject specs s = withSubject specs' s)
    (supply supply' : IdSupply) :
    Alike origin (RecipeSpec.nextSources specs a supply) (RecipeSpec.nextSources specs' b supply') := by
  have hcreators := h.creators_perm hspecs
  have happly : applyAll specs = applyAll specs' := applyAll_eq_of_withSubject_eq hspecs
  obtain ⟨kept, new, new', ha, hb, hkept, hperm⟩ := h
  refine ⟨kept.map (applyAll specs), new.map (applyAll specs) ++ created supply (creators a.paths specs),
    new'.map (applyAll specs) ++ created supply' (creators b.paths specs'), ?_, ?_, ?_, ?_⟩
  · rw [files_nextSources, ha, List.map_append, List.append_assoc]
  · rw [files_nextSources, hb, ← happly, List.map_append, List.append_assoc]
  · rw [map_path_applyAll, hkept]
  · rw [List.map_append, List.map_append, map_applyAll_comm withoutId_applyTo, map_applyAll_comm withoutId_applyTo,
      map_created fun _ => rfl, map_created fun _ => rfl]
    exact (hperm.map (applyAll specs)).append (hcreators.map _)

theorem isBusy_eq (h : Alike origin a b) (hspecs : ∀ s, withSubject specs s = withSubject specs' s) :
    isBusy specs a = isBusy specs' b := by
  have hcreators := (h.creators_perm hspecs).isEmpty_eq
  have happly : applyAll specs = applyAll specs' := applyAll_eq_of_withSubject_eq hspecs
  obtain ⟨kept, new, new', ha, hb, -, hperm⟩ := h
  -- No fingerprint depends on the identity of a file, so the new files may be compared without theirs.
  have hany := any_fingerprint_ne_comm withoutId_applyTo SourceFile.fingerprint_withoutId specs
  rw [isBusy, isBusy, hcreators, ha, hb, ← happly, List.any_append, List.any_append, ← hany new,
    ← hany new', hperm.any_eq]

end Alike

/-- Two runs go in step from sets that are alike: as many cycles run in both, and the sets stay alike. -/
theorem run_cycles_alike (hspecs : ∀ s, withSubject specs s = withSubject specs' s) (limit : Nat)
    (state state' : State ActiveRecipe) (hstate : state.recipes.map ActiveRecipe.spec = specs)
    (hstate' : state'.recipes.map ActiveRecipe.spec = specs') (halike : Alike origin state.sources state'.sources)
    (hcycle : state.context.cycle = state'.context.cycle) (supply supply' : IdSupply) :
    Alike origin ((cycles limit state).run supply).value.1.sources ((cycles limit state').run supply').value.1.sources ∧
      ((cycles limit state).run supply).value.1.context.cycle =
        ((cycles limit state').run supply').value.1.context.cycle := by
  obtain ⟨hfinal, hpasses⟩ := run_cycles_related (fun halike => halike.isBusy_eq hspecs)
    (fun halike => halike.nextSources hspecs) limit state state' hstate hstate' halike supply supply'
  refine ⟨hfinal, ?_⟩
  rw [context_cycles hstate, context_cycles hstate', hcycle, hpasses.length_eq]

/-! ### Results -/

/-- Results of as many cycles with the same files and the same changes, up to the places and identities of the files that are
new: the files at the paths of the sources are equal and in the same places. -/
structure SameOutcome (sources : SourceSet) (result result' : RunResult) : Prop where
  cyclesRun : result.cyclesRun = result'.cyclesRun
  paths : result.sources.paths.Perm result'.sources.paths
  kept : result.sources.files.take sources.size = result'.sources.files.take sources.size
  old : ∀ path ∈ sources.paths, result.sources.get? path = result'.sources.get? path
  new : ∀ path ∉ sources.paths, (result.sources.get? path).map SourceFile.withoutId =
    (result'.sources.get? path).map SourceFile.withoutId
  changes : (result.changes.map Change.withoutNewId).Perm (result'.changes.map Change.withoutNewId)

theorem map_withoutNewId_filterMap {files : List SourceFile} (h : ∀ file ∈ files, file.path ∉ origin.paths) :
    (files.filterMap (Change.of? origin)).map Change.withoutNewId =
      (files.map SourceFile.withoutId).map fun file => ⟨none, file⟩ := by
  rw [List.map_filterMap, List.map_map, ← List.filterMap_eq_map]
  apply List.filterMap_congr
  intro file hfile
  have hnone : origin.get? file.path = none := SourceSet.get?_eq_none_iff.mpr (h file hfile)
  rw [Change.of?, hnone]
  rfl

namespace Alike

theorem exists_append (h : Alike origin a b) :
    ∃ kept new new', a.files = kept ++ new ∧ b.files = kept ++ new' ∧ kept.map SourceFile.path = origin.paths ∧
      (new.map SourceFile.withoutId).Perm (new'.map SourceFile.withoutId) ∧
      (∀ file ∈ new, file.path ∉ origin.paths) ∧ ∀ file ∈ new', file.path ∉ origin.paths := by
  obtain ⟨kept, new, new', ha, hb, hkept, hperm⟩ := h
  have hfree : ∀ (set : SourceSet) (added : List SourceFile), set.files = kept ++ added →
      ∀ file ∈ added, file.path ∉ origin.paths := by
    intro set added hfiles file hfile hpath
    have hnodup := set.nodup
    rw [hfiles, List.map_append, hkept] at hnodup
    exact (List.nodup_append.mp hnodup).2.2 _ hpath _ (List.mem_map_of_mem hfile) rfl
  exact ⟨kept, new, new', ha, hb, hkept, hperm, hfree a new ha, hfree b new' hb⟩

theorem get?_eq (h : Alike origin a b) {path : SourcePath} (hpath : path ∈ origin.paths) : a.get? path = b.get? path := by
  obtain ⟨kept, new, new', ha, hb, hkept, -⟩ := h
  rw [← hkept] at hpath
  obtain ⟨file, hfile, hfilePath⟩ := List.mem_map.mp hpath
  have hgeta : a.get? path = some file :=
    SourceSet.get?_eq_some_iff.mpr ⟨ha ▸ List.mem_append_left _ hfile, hfilePath⟩
  have hgetb : b.get? path = some file :=
    SourceSet.get?_eq_some_iff.mpr ⟨hb ▸ List.mem_append_left _ hfile, hfilePath⟩
  rw [hgeta, hgetb]

theorem map_withoutId_get? (h : Alike origin a b) {path : SourcePath} (hpath : path ∉ origin.paths) :
    (a.get? path).map SourceFile.withoutId = (b.get? path).map SourceFile.withoutId := by
  cases hget : a.get? path with
  | none =>
      have hnone : b.get? path = none := by
        rw [SourceSet.get?_eq_none_iff, ← h.paths_perm.mem_iff]
        exact SourceSet.get?_eq_none_iff.mp hget
      rw [hnone]
  | some file =>
      obtain ⟨kept, new, new', ha, hb, hkept, hperm⟩ := h
      obtain ⟨hfile, rfl⟩ := SourceSet.get?_eq_some_iff.mp hget
      have hnew : file ∈ new := by
        rw [ha, List.mem_append] at hfile
        refine hfile.resolve_left fun hmem => hpath ?_
        rw [← hkept]
        exact List.mem_map_of_mem hmem
      obtain ⟨file', hfile', hsame⟩ := List.mem_map.mp (hperm.mem_iff.mp (List.mem_map_of_mem hnew))
      have hpaths : file'.path = file.path := by
        rw [← file'.path_withoutId, hsame, file.path_withoutId]
      have hget' : b.get? file.path = some file' :=
        SourceSet.get?_eq_some_iff.mpr ⟨hb ▸ List.mem_append_right _ hfile', hpaths⟩
      rw [hget', Option.map_some, Option.map_some, hsame]

theorem changes_perm (h : Alike origin a b) :
    ((Change.between origin a).map Change.withoutNewId).Perm ((Change.between origin b).map Change.withoutNewId) := by
  obtain ⟨kept, new, new', ha, hb, -, hperm, hnew, hnew'⟩ := h.exists_append
  rw [Change.between, Change.between, ha, hb, List.filterMap_append, List.filterMap_append, List.map_append,
    List.map_append, map_withoutNewId_filterMap hnew, map_withoutNewId_filterMap hnew']
  exact (hperm.map _).append_left _

theorem take_eq (h : Alike origin a b) : a.files.take origin.size = b.files.take origin.size := by
  obtain ⟨kept, new, new', ha, hb, hkept, -⟩ := h
  have hlength : kept.length = origin.size := by
    have hlengths := congrArg List.length hkept
    rwa [List.length_map, SourceSet.paths, List.length_map] at hlengths
  rw [ha, hb, List.take_left' hlength, List.take_left' hlength]

end Alike

theorem mayBegin_eq_of_withSubject_eq (hspecs : ∀ s, withSubject specs s = withSubject specs' s) (limit : UInt32) :
    mayBegin limit (specs.map RecipeSpec.active) = mayBegin limit (specs'.map RecipeSpec.active) := by
  have hany : (specs.any fun spec => spec.info.maxCycles < limit) =
      specs'.any fun spec => spec.info.maxCycles < limit := by
    rw [Bool.eq_iff_iff, List.any_eq_true, List.any_eq_true]
    exact exists_congr fun spec => and_congr_left fun _ => mem_iff_of_withSubject_eq hspecs
  rw [mayBegin_active, mayBegin_active, hany]

/-- Recipes may be reordered as long as those with one subject keep their order. Both runs are refused for the same cause,
or both end after as many cycles with the same files and the same changes, whatever identities they draw. -/
theorem run_of_reordering (specs specs' : List RecipeSpec) (hspecs : IsReordering specs specs') (sources : SourceSet)
    (limit : UInt32) :
    (∃ cause, run limit (specs.map RecipeSpec.active) sources = .error cause ∧
      run limit (specs'.map RecipeSpec.active) sources = .error cause) ∨
    ∃ session session', run limit (specs.map RecipeSpec.active) sources = .ok session ∧
      run limit (specs'.map RecipeSpec.active) sources = .ok session' ∧
      ∀ supply supply', SameOutcome sources (session.run supply).value.1 (session'.run supply').value.1 := by
  have hsubjects : ∀ s, withSubject specs s = withSubject specs' s := hspecs.withSubject_eq
  rw [run_eq_map_start, run_eq_map_start, ← mayBegin_eq_of_withSubject_eq hsubjects limit]
  cases mayBegin limit (specs.map RecipeSpec.active) with
  | error cause => exact Or.inl ⟨cause, rfl, rfl⟩
  | ok _ =>
      refine Or.inr ⟨_, _, rfl, rfl, fun supply supply' => ?_⟩
      obtain ⟨halike, hcycle⟩ := run_cycles_alike hsubjects limit.toNat
        ⟨specs.map RecipeSpec.active, sources, {}⟩ ⟨specs'.map RecipeSpec.active, sources, {}⟩
        (map_spec_active specs) (map_spec_active specs') (Alike.refl sources) rfl supply supply'
      rw [value_start rfl, value_start rfl]
      exact ⟨hcycle, halike.paths_perm, halike.take_eq, fun path => halike.get?_eq,
        fun path => halike.map_withoutId_get?, halike.changes_perm⟩

/-- Behind the recipes of the sample, one that extends a file after a recipe that replaces it. -/
def longSample : List RecipeSpec :=
  sampleSpecs ++ [.appendToTextFile ⟨notesPath, "z", none, none, some .extend⟩]

/-- The same recipes: first the creation, and the rewrite between the two that write one file. -/
def shuffledSample : List RecipeSpec :=
  [.appendToTextFile ⟨diaryPath, "x", some "y", some false, none⟩,
    .appendToTextFile ⟨notesPath, "x", none, none, some .replace⟩,
    .changeXmlAttribute ⟨"bean", "class", some "old", "new"⟩,
    .appendToTextFile ⟨notesPath, "z", none, none, some .extend⟩]

theorem run_of_reordering_of_sample :
    IsReordering longSample shuffledSample ∧
    ∃ session session', run 1 (longSample.map RecipeSpec.active) sampleSources = .ok session ∧
      run 1 (shuffledSample.map RecipeSpec.active) sampleSources = .ok session' ∧
      ∀ supply supply', SameOutcome sampleSources (session.run supply).value.1 (session'.run supply').value.1 := by
  have hreordering : IsReordering longSample shuffledSample :=
    ⟨(Equiv.swap 0 2 : Equiv.Perm (Fin 4)), by decide, by decide⟩
  refine ⟨hreordering, ?_⟩
  rcases run_of_reordering longSample shuffledSample hreordering sampleSources 1 with ⟨cause, hrefused, -⟩ | hruns
  · rw [run_one_eq_ok] at hrefused
    nomatch hrefused
  · exact hruns

end Run

end SourceRecipes
