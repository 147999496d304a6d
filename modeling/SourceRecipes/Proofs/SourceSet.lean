import Mathlib.Data.List.Nodup
import SourceRecipes.SourceSet

/-!
# Sets and rows of files

Files at new paths come last, so a set that takes in files at paths of their own holds them in the order in which they came.
What a set has at a path is the file of that path in the row.
-/

namespace SourceRecipes

theorem insertFile_of_not_mem {file : SourceFile} {files : List SourceFile}
    (h : file.path ∉ files.map SourceFile.path) : insertFile file files = files ++ [file] := by
  induction files with
  | nil => rfl
  | cons other rest ih =>
      rw [List.map_cons, List.mem_cons, not_or] at h
      rw [insertFile, if_neg (Ne.symm h.1), ih h.2, List.cons_append]

/-- Where no two items have one key, an item is the only one with its key. -/
theorem filter_eq_singleton_of_nodup {α κ : Type} [DecidableEq κ] {key : α → κ} {items : List α}
    (h : (items.map key).Nodup) {a : α} (ha : a ∈ items) : items.filter (fun b => key b = key a) = [a] := by
  induction items with
  | nil => nomatch ha
  | cons b rest ih =>
      rw [List.map_cons, List.nodup_cons] at h
      rcases List.mem_cons.mp ha with rfl | hrest
      · have hother : rest.filter (fun b => key b = key a) = [] := by
          rw [List.filter_eq_nil_iff]
          intro b hb hsame
          exact h.1 (of_decide_eq_true hsame ▸ List.mem_map_of_mem hb)
        rw [List.filter_cons_of_pos (by simp), hother]
      · have hne : key b ≠ key a := fun hsame => h.1 (hsame ▸ List.mem_map_of_mem hrest)
        rw [List.filter_cons_of_neg (by simpa using hne), ih h.2 hrest]

namespace SourceSet

theorem ext_files {s t : SourceSet} (h : s.files = t.files) : s = t := by
  cases s
  cases t
  cases h
  rfl

theorem files_extend {s : SourceSet} {files : List SourceFile} (h : ((s.files ++ files).map SourceFile.path).Nodup) :
    (s.extend files).files = s.files ++ files := by
  induction files generalizing s with
  | nil => exact (List.append_nil s.files).symm
  | cons file rest ih =>
      have hnew : file.path ∉ s.files.map SourceFile.path := by
        rw [List.map_append, List.map_cons] at h
        exact fun hmem => (List.nodup_append.mp h).2.2 _ hmem _ List.mem_cons_self rfl
      have hfiles : (s.insert file).files = s.files ++ [file] := insertFile_of_not_mem hnew
      have hstep : (s.extend (file :: rest)).files = ((s.insert file).extend rest).files := rfl
      rw [hstep, ih (by rwa [hfiles, List.append_assoc]), hfiles, List.append_assoc, List.singleton_append]

theorem files_ofList {files : List SourceFile} (h : (files.map SourceFile.path).Nodup) :
    (ofList files).files = files :=
  files_extend h

variable {s : SourceSet} {path : SourcePath} {file : SourceFile}

theorem get?_eq_none_iff : s.get? path = none ↔ path ∉ s.paths := by
  rw [get?, List.find?_eq_none, paths, List.mem_map]
  simp only [decide_eq_true_eq, not_exists, not_and]

theorem get?_eq_some_iff : s.get? path = some file ↔ file ∈ s.files ∧ file.path = path := by
  constructor
  · intro h
    exact ⟨List.mem_of_find?_eq_some h, by simpa using List.find?_some h⟩
  · rintro ⟨hfile, rfl⟩
    cases hget : s.get? file.path with
    | none => exact absurd (List.mem_map_of_mem hfile) (get?_eq_none_iff.mp hget)
    | some other =>
        have hother : other ∈ s.files := List.mem_of_find?_eq_some hget
        have hpath : other.path = file.path := by simpa using List.find?_some hget
        rw [List.inj_on_of_nodup_map s.nodup hother hfile hpath]

end SourceSet

end SourceRecipes
