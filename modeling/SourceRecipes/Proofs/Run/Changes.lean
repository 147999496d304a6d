import SourceRecipes.Proofs.Run.Descent

/-!
# The changes a run reports

A run compares the first and the last state of its files by their fingerprints. Every last state is an edit of the
first one at its path, so the report is exact: it has the files that are new and those with another text, in their order, and
nothing of what was undone on the way.
-/

namespace SourceRecipes

namespace Change

variable {before after : SourceSet}

theorem of?_eq_some_iff {file : SourceFile} {change : Change} :
    of? before file = some change ↔ change.after = file ∧ change.before = before.get? file.path ∧
      ∀ old, change.before = some old → old.fingerprint ≠ file.fingerprint := by
  obtain ⟨first, last⟩ := change
  unfold of?
  cases hget : before.get? file.path with
  | none =>
      constructor
      · intro h
        cases h
        exact ⟨rfl, rfl, by simp⟩
      · rintro ⟨rfl, rfl, -⟩
        rfl
  | some old =>
      dsimp only
      by_cases hsame : old.fingerprint = file.fingerprint
      · rw [if_pos hsame]
        constructor
        · intro h
          nomatch h
        · rintro ⟨-, rfl, hdiffers⟩
          exact absurd hsame (hdiffers old rfl)
      · rw [if_neg hsame]
        constructor
        · intro h
          cases h
          exact ⟨rfl, rfl, fun other hother => Option.some.inj hother ▸ hsame⟩
        · rintro ⟨rfl, rfl, -⟩
          rfl

theorem mem_between_iff {change : Change} :
    change ∈ between before after ↔ change.after ∈ after.files ∧ change.before = before.get? change.path ∧
      ∀ old, change.before = some old → old.fingerprint ≠ change.after.fingerprint := by
  rw [between, List.mem_filterMap]
  constructor
  · rintro ⟨file, hfile, hof⟩
    obtain ⟨rfl, hbefore, hdiffers⟩ := of?_eq_some_iff.mp hof
    exact ⟨hfile, hbefore, hdiffers⟩
  · rintro ⟨hfile, hbefore, hdiffers⟩
    exact ⟨change.after, hfile, of?_eq_some_iff.mpr ⟨rfl, hbefore, hdiffers⟩⟩

theorem sublist_map_after_filterMap (before : SourceSet) (files : List SourceFile) :
    ((files.filterMap (of? before)).map Change.after).Sublist files := by
  induction files with
  | nil => exact List.Sublist.refl []
  | cons file rest ih =>
      cases hof : of? before file with
      | none =>
          rw [List.filterMap_cons_none hof]
          exact ih.cons file
      | some change =>
          rw [List.filterMap_cons_some hof, List.map_cons, (of?_eq_some_iff.mp hof).1]
          exact ih.cons_cons file

theorem sublist_map_after_between (before after : SourceSet) :
    ((between before after).map Change.after).Sublist after.files :=
  sublist_map_after_filterMap before after.files

theorem nodup_map_path_between (before after : SourceSet) : ((between before after).map Change.path).Nodup := by
  have hpaths : (((between before after).map Change.after).map SourceFile.path).Sublist after.paths :=
    (sublist_map_after_between before after).map SourceFile.path
  rw [List.map_map] at hpaths
  exact hpaths.nodup after.nodup

theorem map_after_filter_isNew_between (before after : SourceSet) :
    ((between before after).filter isNew).map Change.after =
      after.files.filter fun file => file.path ∉ before.paths := by
  rw [between, List.filter_filterMap, List.map_filterMap, ← List.filterMap_eq_filter]
  congr 1
  funext file
  rw [of?, Option.guard]
  cases hget : before.get? file.path with
  | none =>
      rw [if_pos (decide_eq_true (SourceSet.get?_eq_none_iff.mp hget))]
      rfl
  | some old =>
      have hmem : file.path ∈ before.paths := by
        obtain ⟨hold, hpath⟩ := SourceSet.get?_eq_some_iff.mp hget
        exact hpath ▸ List.mem_map_of_mem hold
      rw [if_neg (by simpa using hmem)]
      dsimp only
      split <;> rfl

end Change

namespace SourceSet

theorem sameFiles_self (s : SourceSet) : s.sameFiles s = true := by
  rw [sameFiles, Bool.and_eq_true, List.all_eq_true]
  refine ⟨beq_self_eq_true _, fun file hfile => ?_⟩
  rw [beq_iff_eq, get?_eq_some_iff]
  exact ⟨hfile, rfl⟩

theorem between_eq_nil_of_sameFiles {s t : SourceSet} (h : t.sameFiles s = true) : Change.between s t = [] := by
  rw [sameFiles, Bool.and_eq_true, List.all_eq_true] at h
  rw [List.eq_nil_iff_forall_not_mem]
  intro change hchange
  obtain ⟨hfile, hbefore, hdiffers⟩ := Change.mem_between_iff.mp hchange
  have hsame : s.get? change.path = some change.after := beq_iff_eq.mp (h.2 _ hfile)
  exact hdiffers change.after (hbefore.trans hsame) rfl

end SourceSet

namespace Run

open RecipeSpec

variable {specs : List RecipeSpec} {before after : SourceSet}

/-- If every later file was there before, none was added and none edited. -/
theorem Descends.eq_of_get? (h : Descends specs before after)
    (hget : ∀ file ∈ after.files, before.get? file.path = some file) : after = before := by
  obtain ⟨edit, new, hfiles, hedit, hnew⟩ := h
  rw [hfiles, List.forall_mem_append, List.forall_mem_map] at hget
  have hempty : new = [] := by
    rw [List.eq_nil_iff_forall_not_mem]
    intro file hfile
    have hmem := (SourceSet.get?_eq_some_iff.mp (hget.2 file hfile)).1
    exact hnew file hfile (List.mem_map_of_mem hmem)
  have hsame : ∀ file ∈ before.files, edit file = file := by
    intro file hfile
    have hself : before.get? (edit file).path = some file :=
      SourceSet.get?_eq_some_iff.mpr ⟨hfile, (hedit file hfile).path_eq.symm⟩
    exact Option.some.inj ((hget.1 file hfile).symm.trans hself)
  apply SourceSet.ext_files
  rw [hfiles, hempty, List.append_nil, List.map_congr_left hsame, List.map_id']

/-- What is there behind the files of the earlier set is new. -/
theorem Descends.size_add_length_generated (h : Descends specs before after) :
    before.size + (((Change.between before after).filter Change.isNew).map Change.after).length = after.size := by
  obtain ⟨edit, new, hfiles, hedit, hnew⟩ := h
  have hkept : (before.files.map edit).filter (fun file => file.path ∉ before.paths) = [] := by
    rw [List.filter_eq_nil_iff, List.forall_mem_map]
    intro file hfile
    rw [(hedit file hfile).path_eq]
    have hmem : file.path ∈ before.paths := List.mem_map_of_mem hfile
    simpa using hmem
  have hadded : new.filter (fun file => file.path ∉ before.paths) = new :=
    List.filter_eq_self.mpr fun file hfile => decide_eq_true (hnew file hfile)
  rw [Change.map_after_filter_isNew_between, hfiles, List.filter_append, hkept, hadded, List.nil_append, SourceSet.size,
    SourceSet.size, hfiles, List.length_append, List.length_map]

/-- An earlier and a later state of files whose edits show: their texts fit their fields, and different streams of
theirs have different digests. -/
structure Comparable (specs : List RecipeSpec) (before after : SourceSet) : Prop where
  descends : Descends specs before after
  fits_before : ∀ file ∈ before.files, file.Fits
  fits_after : ∀ file ∈ after.files, file.Fits
  digests : ∀ a ∈ before.files, ∀ b ∈ after.files, b.fingerprint = a.fingerprint → b.stream = a.stream

namespace Comparable

variable {old file : SourceFile}

theorem fingerprint_eq_iff (h : Comparable specs before after) (hfile : file ∈ after.files)
    (hold : before.get? file.path = some old) : file.fingerprint = old.fingerprint ↔ file = old := by
  have hmem : old ∈ before.files := (SourceSet.get?_eq_some_iff.mp hold).1
  have hedit : IsEdit specs old file := h.descends.isEdit_of_get? hfile hold
  exact hedit.fingerprint_eq_iff (h.fits_before old hmem) (h.fits_after file hfile) (h.digests old hmem file hfile)

/-- The changes are the new files and those with another text. -/
theorem mem_between_iff (h : Comparable specs before after) {change : Change} :
    change ∈ Change.between before after ↔ change.after ∈ after.files ∧ change.before = before.get? change.path ∧
      ∀ old, change.before = some old → change.after.values ≠ old.values := by
  rw [Change.mem_between_iff]
  refine and_congr_right fun hfile => and_congr_right fun hbefore => forall_congr' fun old => ?_
  refine imp_congr_right fun hold => not_congr ?_
  have hget : before.get? change.after.path = some old := hbefore.symm.trans hold
  rw [(h.descends.isEdit_of_get? hfile hget).values_eq_iff, eq_comm]
  exact h.fingerprint_eq_iff hfile hget

theorem between_eq_nil_iff (h : Comparable specs before after) : Change.between before after = [] ↔ after = before := by
  constructor
  · intro hnone
    rw [List.eq_nil_iff_forall_not_mem] at hnone
    apply h.descends.eq_of_get?
    intro file hfile
    -- A file that is new or has another text would be a change.
    cases hold : before.get? file.path with
    | none =>
        have hmem : ⟨none, file⟩ ∈ Change.between before after :=
          Change.mem_between_iff.mpr ⟨hfile, hold.symm, nofun⟩
        exact absurd hmem (hnone _)
    | some old =>
        by_cases hsame : file = old
        · rw [hsame]
        · have hmem : ⟨some old, file⟩ ∈ Change.between before after := by
            refine Change.mem_between_iff.mpr ⟨hfile, hold.symm, ?_⟩
            rintro other ⟨⟩ hfingerprint
            exact hsame ((h.fingerprint_eq_iff hfile hold).mp hfingerprint.symm)
          exact absurd hmem (hnone _)
  · rintro rfl
    exact SourceSet.between_eq_nil_of_sameFiles (SourceSet.sameFiles_self after)

theorem sameFiles_iff (h : Comparable specs before after) : after.sameFiles before = true ↔ after = before := by
  constructor
  · intro hsame
    exact h.between_eq_nil_iff.mp (SourceSet.between_eq_nil_of_sameFiles hsame)
  · rintro rfl
    exact SourceSet.sameFiles_self after

end Comparable

/-- The changes a run reports are, in the order of its final files, those of the files that are new and of those that have
not all their texts from before the run. The run reports none exactly when it ends with the files that it was given. The
texts fit their fields, and different streams of the first and the last files have different digests. -/
theorem run_reports_exact_changes (specs : List RecipeSpec) (sources : SourceSet) (limit : UInt32)
    (session : Session RunResult) (hrun : run limit (specs.map RecipeSpec.active) sources = .ok session)
    (supply : IdSupply) (result : RunResult) (hresult : (session.run supply).value.1 = result)
    (hfits : ∀ file ∈ sources.files, file.Fits) (hfitsFinal : ∀ file ∈ result.sources.files, file.Fits)
    (hdigests : ∀ a ∈ sources.files, ∀ b ∈ result.sources.files,
      b.fingerprint = a.fingerprint → b.stream = a.stream) :
    (result.changes.map Change.after).Sublist result.sources.files ∧ (result.changes.map Change.path).Nodup ∧
    (∀ change, change ∈ result.changes ↔
      change.after ∈ result.sources.files ∧ change.before = sources.get? change.path ∧
        ∀ old, change.before = some old → change.after.values ≠ old.values) ∧
    (result.isUnchanged = true ↔ result.sources = sources) ∧
    (result.isUnchanged = true ↔ result.sources.sameFiles sources = true) := by
  rw [eq_start_of_run_eq_ok hrun] at hresult
  have hchanges : result.changes = Change.between sources result.sources := by
    rw [← hresult, changes_start]
  have hcomparable : Comparable specs sources result.sources := by
    refine ⟨?_, hfits, hfitsFinal, hdigests⟩
    rw [← hresult]
    exact descends_start specs limit sources supply
  have hunchanged : result.isUnchanged = true ↔ result.sources = sources := by
    rw [RunResult.isUnchanged, List.isEmpty_iff, hchanges, hcomparable.between_eq_nil_iff]
  refine ⟨?_, ?_, fun change => ?_, hunchanged, hunchanged.trans hcomparable.sameFiles_iff.symm⟩
  · rw [hchanges]
    exact Change.sublist_map_after_between sources result.sources
  · rw [hchanges]
    exact Change.nodup_map_path_between sources result.sources
  · rw [hchanges]
    exact hcomparable.mem_between_iff

/-- Streams of up to 1024 bytes are one chunk, which is enough to tell their digests apart. -/
theorem stream_eq_of_fingerprint_eq_of_short {before after : List SourceFile}
    (hbefore : ∀ file ∈ before, file.stream.length ≤ 1024) (hafter : ∀ file ∈ after, file.stream.length ≤ 1024)
    (hdigests : ∀ a ∈ before, ∀ b ∈ after,
      ((Blake3.chunk b.stream.toArray 0 b.stream.length).compress Blake3.root).bytes =
        ((Blake3.chunk a.stream.toArray 0 a.stream.length).compress Blake3.root).bytes → b.stream = a.stream)
    {a b : SourceFile} (ha : a ∈ before) (hb : b ∈ after) (h : b.fingerprint = a.fingerprint) :
    b.stream = a.stream := by
  have hbytes := congrArg ContentHash.bytes h
  simp only [SourceFile.fingerprint, ContentHash.ofBytes] at hbytes
  rw [Blake3.hash_of_length_le (hbefore a ha), Blake3.hash_of_length_le (hafter b hb)] at hbytes
  exact hdigests a ha b hb hbytes

/-- The files that the sample ends with: rewritten, replaced and created. -/
def sampleResult : List SourceFile :=
  [beanFile "new.A", .plainText ⟨.blank, notesPath, "x\n"⟩, .plainText ⟨NodeId.ofNat 0, diaryPath, "yx"⟩]

theorem files_nextSources_sample : (nextSources sampleSpecs sampleSources ⟨0⟩).files = sampleResult := by
  decide +kernel

theorem fits_sample : ∀ file ∈ sampleSources.files ++ sampleResult, file.Fits ∧ file.stream.length ≤ 1024 := by
  decide +kernel

theorem stream_eq_of_fingerprint_eq_sample {a b : SourceFile} (ha : a ∈ sampleSources.files) (hb : b ∈ sampleResult)
    (h : b.fingerprint = a.fingerprint) : b.stream = a.stream :=
  stream_eq_of_fingerprint_eq_of_short (fun file hfile => (fits_sample file (List.mem_append_left _ hfile)).2)
    (fun file hfile => (fits_sample file (List.mem_append_right _ hfile)).2) (by decide +kernel) ha hb h

theorem run_reports_exact_changes_of_sample :
    ∃ session result, run 1 (sampleSpecs.map RecipeSpec.active) sampleSources = .ok session ∧
      (session.run ⟨0⟩).value.1 = result ∧ result.sources.files = sampleResult ∧
      (∀ change, change ∈ result.changes ↔
        change.after ∈ sampleResult ∧ change.before = sampleSources.get? change.path ∧
          ∀ old, change.before = some old → change.after.values ≠ old.values) ∧
      result.isUnchanged = false := by
  have hrun := run_one_eq_ok sampleSpecs sampleSources
  obtain ⟨result, hresult⟩ : ∃ result,
      ((start 1 (sampleSpecs.map RecipeSpec.active) sampleSources).run ⟨0⟩).value.1 = result := ⟨_, rfl⟩
  have hfiles : result.sources.files = sampleResult := by
    rw [← hresult, value_start_one]
    exact files_nextSources_sample
  obtain ⟨-, -, hchanges, -, hunchanged⟩ := run_reports_exact_changes sampleSpecs sampleSources 1 _ hrun ⟨0⟩ result
    hresult (fun file hfile => (fits_sample file (List.mem_append_left _ hfile)).1)
    (fun file hfile => (fits_sample file (List.mem_append_right _ (hfiles ▸ hfile))).1)
    (fun a ha b hb => stream_eq_of_fingerprint_eq_sample ha (hfiles ▸ hb))
  rw [hfiles] at hchanges
  refine ⟨_, result, hrun, hresult, hfiles, hchanges, ?_⟩
  have hlength : sampleResult.length ≠ sampleSources.size := by decide
  rw [Bool.eq_false_iff, ne_eq, hunchanged, SourceSet.sameFiles, SourceSet.size, hfiles, beq_false_of_ne hlength]
  exact Bool.false_ne_true

end Run

end SourceRecipes
