import SourceRecipes.Proofs.Markup.Identities
import SourceRecipes.Proofs.Run.Changes
import SourceRecipes.Proofs.Run.Events

/-!
# Runs do not look at identities

Taking all identities out of the files commutes with all that recipes do, and nothing that a run decides or logs changes by
it. So two runs whose files differ in identities alone go in step: after every cycle their files still differ in
identities alone. And as a run only edits the texts of the files that it was given, the identities in them stay where they
were.
-/

namespace SourceRecipes

/-! ### Recipes -/

namespace ChangeXmlAttribute

variable (r : ChangeXmlAttribute)

theorem textAt_withoutIds (o : Occurrence) : r.textAt o.withoutIds = r.textAt o := rfl

theorem countP_changes_withoutIds (file : SourceFile) :
    file.withoutIds.occurrences.countP r.changes = file.occurrences.countP r.changes := by
  rw [SourceFile.occurrences_withoutIds, List.countP_map]
  rfl

end ChangeXmlAttribute

namespace RecipeSpec

theorem withoutIds_applyTo (spec : RecipeSpec) (file : SourceFile) :
    (spec.applyTo file).withoutIds = spec.applyTo file.withoutIds := by
  cases spec with
  | changeXmlAttribute r =>
      rw [applyTo, applyTo, ChangeXmlAttribute.editFile_eq_mapTexts, ChangeXmlAttribute.editFile_eq_mapTexts,
        SourceFile.withoutIds_mapTexts r.textAt_withoutIds]
  | appendToTextFile r =>
      cases file with
      | plainText t =>
          by_cases hpath : t.path = r.relativeFileName <;>
            simp only [applyTo, AppendToTextFile.mergeFile, SourceFile.withoutIds, hpath, ↓reduceIte]
      | markup d => rfl

theorem editEvents_withoutIds (spec : RecipeSpec) (file : SourceFile) :
    spec.editEvents file.withoutIds = spec.editEvents file := by
  cases spec with
  | changeXmlAttribute r =>
      simp only [editEvents, r.editFile_eq_self_iff, r.countP_changes_withoutIds, SourceFile.path_withoutIds]
  | appendToTextFile r => cases file <;> rfl

theorem allEditEvents_withoutIds (specs : List RecipeSpec) (file : SourceFile) :
    allEditEvents specs file.withoutIds = allEditEvents specs file := by
  induction specs generalizing file with
  | nil => rfl
  | cons spec rest ih => rw [allEditEvents, allEditEvents, editEvents_withoutIds, ← withoutIds_applyTo, ih]

end RecipeSpec

/-! ### Sets and changes -/

namespace SourceSet

def withoutIds (s : SourceSet) : SourceSet where
  files := s.files.map SourceFile.withoutIds
  nodup := by
    have hpaths : (s.files.map SourceFile.withoutIds).map SourceFile.path = s.files.map SourceFile.path := by
      rw [List.map_map]
      exact List.map_congr_left fun file _ => file.path_withoutIds
    exact hpaths ▸ s.nodup

theorem paths_withoutIds (s : SourceSet) : s.withoutIds.paths = s.paths := by
  rw [paths, withoutIds, List.map_map]
  exact List.map_congr_left fun file _ => file.path_withoutIds

theorem size_withoutIds (s : SourceSet) : s.withoutIds.size = s.size :=
  List.length_map _

theorem get?_withoutIds (s : SourceSet) (path : SourcePath) :
    s.withoutIds.get? path = (s.get? path).map SourceFile.withoutIds := by
  simp only [get?, withoutIds, List.find?_map, Function.comp_def, SourceFile.path_withoutIds]

end SourceSet

namespace Change

def withoutIds (c : Change) : Change :=
  ⟨c.before.map SourceFile.withoutIds, c.after.withoutIds⟩

theorem of?_withoutIds (before : SourceSet) (file : SourceFile) :
    of? before.withoutIds file.withoutIds = (of? before file).map withoutIds := by
  rw [of?, of?, SourceFile.path_withoutIds, SourceSet.get?_withoutIds]
  cases before.get? file.path with
  | none => rfl
  | some old =>
      simp only [Option.map_some, SourceFile.fingerprint_withoutIds]
      split <;> rfl

theorem between_withoutIds (before after : SourceSet) :
    between before.withoutIds after.withoutIds = (between before after).map withoutIds := by
  rw [between, between, List.map_filterMap]
  dsimp only [SourceSet.withoutIds]
  rw [List.filterMap_map]
  exact List.filterMap_congr fun file _ => of?_withoutIds before file

end Change

def RunResult.withoutIds (r : RunResult) : RunResult :=
  ⟨r.changes.map Change.withoutIds, r.sources.withoutIds, r.cyclesRun⟩

namespace Run

open RecipeSpec

/-! ### Cycles -/

section Cycles

variable (specs : List RecipeSpec) (sources : SourceSet)

theorem isBusy_withoutIds : isBusy specs sources.withoutIds = isBusy specs sources := by
  rw [isBusy, isBusy, SourceSet.paths_withoutIds]
  dsimp only [SourceSet.withoutIds]
  rw [any_fingerprint_ne_comm withoutIds_applyTo SourceFile.fingerprint_withoutIds]

theorem cycleEvents_withoutIds (number : UInt32) :
    cycleEvents specs number sources.withoutIds = cycleEvents specs number sources := by
  rw [cycleEvents, cycleEvents, SourceSet.paths_withoutIds, SourceSet.size_withoutIds, isBusy_withoutIds,
    SourceSet.withoutIds, List.flatMap_map, List.flatMap_map]
  simp only [SourceFile.path_withoutIds, allEditEvents_withoutIds]

theorem files_withoutIds_nextSources (supply : IdSupply) :
    (nextSources specs sources supply).withoutIds.files =
      sources.withoutIds.files.map (applyAll specs) ++
        (creators sources.withoutIds.paths specs).map fun r => .plainText ⟨.blank, r.relativeFileName, r.newText⟩ := by
  rw [SourceSet.paths_withoutIds]
  dsimp only [SourceSet.withoutIds]
  rw [files_nextSources, List.map_append, map_applyAll_comm withoutIds_applyTo, map_created fun _ => rfl]

end Cycles

/-! ### Runs in step -/

section Step

variable {specs : List RecipeSpec} {sources sources' : SourceSet} (h : sources.withoutIds = sources'.withoutIds)

include h

theorem size_eq_of_withoutIds_eq : sources.size = sources'.size := by
  rw [← SourceSet.size_withoutIds, h, SourceSet.size_withoutIds]

theorem isBusy_eq_of_withoutIds_eq : isBusy specs sources = isBusy specs sources' := by
  rw [← isBusy_withoutIds specs sources, h, isBusy_withoutIds]

theorem cycleEvents_eq_of_withoutIds_eq (number : UInt32) :
    cycleEvents specs number sources = cycleEvents specs number sources' := by
  rw [← cycleEvents_withoutIds specs sources, h, cycleEvents_withoutIds]

theorem withoutIds_nextSources_eq (supply supply' : IdSupply) :
    (nextSources specs sources supply).withoutIds = (nextSources specs sources' supply').withoutIds := by
  apply SourceSet.ext_files
  rw [files_withoutIds_nextSources, files_withoutIds_nextSources, h]

end Step

/-- Two runs go in step from files that differ in identities alone. -/
theorem run_cycles_of_withoutIds_eq {specs : List RecipeSpec} (limit : Nat) (state state' : State ActiveRecipe)
    (hspecs : state.recipes.map ActiveRecipe.spec = specs) (hspecs' : state'.recipes.map ActiveRecipe.spec = specs)
    (hsources : state.sources.withoutIds = state'.sources.withoutIds) (hcontext : state.context = state'.context)
    (supply supply' : IdSupply) :
    ((cycles limit state).run supply).events = ((cycles limit state').run supply').events ∧
      ((cycles limit state).run supply).value.1.sources.withoutIds =
        ((cycles limit state').run supply').value.1.sources.withoutIds ∧
      ((cycles limit state).run supply).value.1.context = ((cycles limit state').run supply').value.1.context := by
  obtain ⟨hfinal, hpasses⟩ := run_cycles_related isBusy_eq_of_withoutIds_eq withoutIds_nextSources_eq limit state state'
    hspecs hspecs' hsources supply supply'
  have hsizes : (passes specs limit state.sources supply).map SourceSet.size =
      (passes specs limit state'.sources supply').map SourceSet.size := by
    rw [← List.forall₂_eq_eq_eq, List.forall₂_map_left_iff, List.forall₂_map_right_iff]
    exact hpasses.imp fun a b => size_eq_of_withoutIds_eq
  refine ⟨?_, hfinal, ?_⟩
  · rw [events_cycles hspecs, events_cycles hspecs', hcontext]
    exact passEvents_congr cycleEvents_eq_of_withoutIds_eq hpasses _
  · rw [context_cycles hspecs, context_cycles hspecs', hcontext, hpasses.length_eq, hsizes]

/-! ### Identities in their places -/

theorem idAt?_eq_of_isEdit {specs : List RecipeSpec} {before after : SourceFile} (h : IsEdit specs before after)
    (place : NodePlace) : after.idAt? place = before.idAt? place := by
  cases h with
  | plainText t text _ => cases place <;> rfl
  | markup d texts _ => exact SourceFile.idAt?_mapTexts texts (.markup d) place

/-- Every later file at the path of an earlier one has the identities of that one, each in its place. -/
def KeepsIds (before after : SourceSet) : Prop :=
  ∀ file ∈ after.files, ∀ original, before.get? file.path = some original →
    ∀ place, file.idAt? place = original.idAt? place

theorem Descends.keepsIds {specs : List RecipeSpec} {before after : SourceSet} (h : Descends specs before after) :
    KeepsIds before after :=
  fun _ hfile _ horiginal => idAt?_eq_of_isEdit (h.isEdit_of_get? hfile horiginal)

/-- No decision of a run depends on an identity. Over files that differ in identities alone two runs are refused for the same
cause, or both take place: with the same log, whatever identities they draw, and with results that differ in
identities alone. In each of them the identities of the files that it was given stay in their places. -/
theorem run_ignores_ids (specs : List RecipeSpec) (limit : UInt32) (sources sources' : SourceSet)
    (h : sources.withoutIds = sources'.withoutIds) :
    (∃ cause, run limit (specs.map RecipeSpec.active) sources = .error cause ∧
      run limit (specs.map RecipeSpec.active) sources' = .error cause) ∨
    ∃ session session', run limit (specs.map RecipeSpec.active) sources = .ok session ∧
      run limit (specs.map RecipeSpec.active) sources' = .ok session' ∧ ∀ supply supply',
        (session.run supply).events = (session'.run supply').events ∧
        (session.run supply).value.1.withoutIds = (session'.run supply').value.1.withoutIds ∧
        KeepsIds sources (session.run supply).value.1.sources ∧
        KeepsIds sources' (session'.run supply').value.1.sources := by
  rw [run_eq_map_start, run_eq_map_start]
  cases mayBegin limit (specs.map RecipeSpec.active) with
  | error cause => exact Or.inl ⟨cause, rfl, rfl⟩
  | ok _ =>
      refine Or.inr ⟨_, _, rfl, rfl, fun supply supply' => ?_⟩
      obtain ⟨hevents, hfinal, hcontext⟩ := run_cycles_of_withoutIds_eq limit.toNat
        ⟨specs.map RecipeSpec.active, sources, {}⟩ ⟨specs.map RecipeSpec.active, sources', {}⟩
        (map_spec_active specs) (map_spec_active specs) h rfl supply supply'
      have hchanges := Change.between_withoutIds sources
        ((cycles limit.toNat ⟨specs.map RecipeSpec.active, sources, {}⟩).run supply).value.1.sources
      rw [h, hfinal, Change.between_withoutIds] at hchanges
      refine ⟨?_, ?_, (descends_start specs limit sources supply).keepsIds,
        (descends_start specs limit sources' supply').keepsIds⟩
      · have hlength := congrArg List.length hchanges
        rw [List.length_map, List.length_map] at hlength
        rw [events_start_of_cycles rfl, events_start_of_cycles rfl, hevents, hcontext, size_eq_of_withoutIds_eq h,
          hlength]
      · rw [value_start rfl, value_start rfl, RunResult.withoutIds, RunResult.withoutIds, hchanges, hfinal, hcontext]

/-- Two files with given identities in turn. -/
def identifiedSources (id id' : NodeId) : SourceSet :=
  SourceSet.ofList [
    .markup {
      id
      path := (beanFile "old.A").path
      prolog := none
      root := ⟨id', "", "beans", [], some [
        .element ⟨id, "", "bean", [Attribute.new id' id "class" "old.A"], none, ""⟩, .comment ⟨id', "b"⟩], ""⟩ },
    .plainText ⟨id, notesPath, "y"⟩]

theorem run_ignores_ids_of_sample :
    ∃ session session',
      run 1 (sampleSpecs.map RecipeSpec.active) (identifiedSources (.ofNat 1) (.ofNat 2)) = .ok session ∧
      run 1 (sampleSpecs.map RecipeSpec.active) (identifiedSources .blank .blank) = .ok session' ∧
      (session.run ⟨3⟩).events = (session'.run ⟨0⟩).events ∧
      (session.run ⟨3⟩).value.1.withoutIds = (session'.run ⟨0⟩).value.1.withoutIds ∧
      KeepsIds (identifiedSources (.ofNat 1) (.ofNat 2)) (session.run ⟨3⟩).value.1.sources ∧
      KeepsIds (identifiedSources .blank .blank) (session'.run ⟨0⟩).value.1.sources := by
  rcases run_ignores_ids sampleSpecs 1 (identifiedSources (.ofNat 1) (.ofNat 2)) (identifiedSources .blank .blank)
    (SourceSet.ext_files (by decide)) with ⟨cause, hrefused, -⟩ | ⟨session, session', hrun, hrun', hsame⟩
  · rw [run_one_eq_ok] at hrefused
    nomatch hrefused
  · exact ⟨session, session', hrun, hrun', hsame ⟨3⟩ ⟨0⟩⟩

example : (identifiedSources (.ofNat 1) (.ofNat 2)).files.map (fun file => file.idAt? (.entryValue [0] 0)) =
    [some (.ofNat 1), none] := by decide

end Run

end SourceRecipes
