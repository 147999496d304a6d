import Mathlib.Data.List.Induction
import Mathlib.Data.List.Perm.Subperm
import SourceRecipes.Proofs.SourceSet

/-!
# What a set has taken in

A set is told by the row of files that it took in since it was last collected: its paths are those of the row in the order in
which they came first, and at each of them it has the file that came last. As a map with a key for each file it never has
a key that is not the path of its file.
-/

namespace SourceRecipes

theorem mem_insertFile_self (file : SourceFile) (files : List SourceFile) : file ∈ insertFile file files := by
  induction files with
  | nil => exact List.mem_singleton_self file
  | cons other rest ih =>
    rw [insertFile]
    split_ifs
    · exact List.mem_cons_self
    · exact List.mem_cons_of_mem other ih

theorem find?_insertFile_of_ne {file : SourceFile} {path : SourcePath} (h : path ≠ file.path) (files : List SourceFile) :
    (insertFile file files).find? (fun f => f.path = path) = files.find? fun f => f.path = path := by
  have hfile : decide (file.path = path) = false := decide_eq_false h.symm
  induction files with
  | nil => rw [insertFile, List.find?_cons_of_neg (by simpa using h.symm)]
  | cons other rest ih =>
    rw [insertFile]
    split_ifs with hother
    · rw [List.find?_cons, List.find?_cons, hother]
      simp only [hfile]
    · rw [List.find?_cons, List.find?_cons, ih]

theorem exchangeFile_fst (file : SourceFile) (files : List SourceFile) :
    (exchangeFile file files).1 = files.find? fun f => f.path = file.path := by
  induction files with
  | nil => rfl
  | cons other rest ih =>
    rw [exchangeFile, List.find?_cons]
    split_ifs with hother
    · simp [hother]
    · simp [hother, ih]

/-! ### Keys beside files -/

/-- Puts a value under a key: in the place of the value that has the key, or at the end. -/
def putAt {κ υ : Type} [DecidableEq κ] (key : κ) (value : υ) : List (κ × υ) → List (κ × υ)
  | [] => [(key, value)]
  | e :: rest => if e.1 = key then (key, value) :: rest else e :: putAt key value rest

theorem putAt_map_path (file : SourceFile) (files : List SourceFile) :
    putAt file.path file (files.map fun f => (f.path, f)) = (insertFile file files).map fun f => (f.path, f) := by
  induction files with
  | nil => rfl
  | cons other rest ih =>
    rw [List.map_cons, putAt, insertFile, ih]
    split_ifs <;> rfl

namespace SourceSet

variable {s t : SourceSet} {path : SourcePath} {file : SourceFile}

/-! ### Inserting -/

theorem exchange_fst (s : SourceSet) (file : SourceFile) : (s.exchange file).1 = s.get? file.path :=
  exchangeFile_fst file s.files

theorem exchange_snd (s : SourceSet) (file : SourceFile) : (s.exchange file).2 = s.insert file :=
  ext_files (exchangeFile_snd file s.files)

theorem get?_insert (s : SourceSet) (file : SourceFile) (path : SourcePath) :
    (s.insert file).get? path = if path = file.path then some file else s.get? path := by
  split_ifs with h
  · rw [get?_eq_some_iff]
    exact ⟨mem_insertFile_self file s.files, h.symm⟩
  · exact find?_insertFile_of_ne h s.files

theorem paths_insert (s : SourceSet) (file : SourceFile) :
    (s.insert file).paths = if file.path ∈ s.paths then s.paths else s.paths ++ [file.path] :=
  map_path_insertFile file s.files

/-! ### Rows of files -/

theorem ofList_append (files more : List SourceFile) : ofList (files ++ more) = (ofList files).extend more :=
  List.foldl_append

theorem paths_ofList (files : List SourceFile) : (ofList files).paths = (files.map SourceFile.path).eraseDups := by
  induction files using List.reverseRecOn with
  | nil => rfl
  | append_singleton files file ih =>
    have hinsert : ofList (files ++ [file]) = (ofList files).insert file := ofList_append files [file]
    rw [hinsert, paths_insert, ih, List.map_append, List.map_singleton, List.eraseDups_append]
    split_ifs with hmem
    · rw [List.mem_eraseDups] at hmem
      rw [List.removeAll, List.filter_cons_of_neg (by simpa using hmem), List.filter_nil, List.eraseDups_nil, List.append_nil]
    · rw [List.mem_eraseDups] at hmem
      rw [List.removeAll, List.filter_cons_of_pos (by simpa using hmem), List.filter_nil, List.eraseDups_cons, List.filter_nil,
        List.eraseDups_nil]

theorem get?_ofList (files : List SourceFile) (path : SourcePath) :
    (ofList files).get? path = (files.filter fun f => f.path = path).getLast? := by
  induction files using List.reverseRecOn with
  | nil => rfl
  | append_singleton files file ih =>
    have hinsert : ofList (files ++ [file]) = (ofList files).insert file := ofList_append files [file]
    rw [hinsert, get?_insert, ih, List.filter_append]
    split_ifs with h
    · rw [List.filter_cons_of_pos (by simpa using h.symm), List.filter_nil, List.getLast?_concat]
    · rw [List.filter_cons_of_neg (by simpa using Ne.symm h), List.filter_nil, List.append_nil]

theorem foldl_putAt_path (files : List SourceFile) :
    files.foldl (fun entries f => putAt f.path f entries) [] = (ofList files).files.map fun f => (f.path, f) := by
  induction files using List.reverseRecOn with
  | nil => rfl
  | append_singleton files file ih =>
    rw [List.foldl_append, ih, List.foldl_cons, List.foldl_nil, putAt_map_path, ofList_append]
    rfl

/-! ### What is asked of a set -/

theorem map_get?_paths (s : SourceSet) : s.paths.map s.get? = s.files.map some := by
  rw [paths, List.map_map, List.map_inj_left]
  intro f hf
  exact get?_eq_some_iff.mpr ⟨hf, rfl⟩

theorem contains_iff : s.contains path = true ↔ path ∈ s.paths := by
  rw [contains, Option.isSome_iff_ne_none, ne_eq, get?_eq_none_iff, not_not]

/-- Sets of the same size the files of one of which are all in the other have the same files. -/
theorem sameFiles_iff_get? : s.sameFiles t = true ↔ ∀ path, s.get? path = t.get? path := by
  rw [sameFiles, Bool.and_eq_true, beq_iff_eq, List.all_eq_true]
  simp only [beq_iff_eq]
  constructor
  · rintro ⟨hsize, hfiles⟩ path
    have hsubset : s.paths ⊆ t.paths := by
      intro p hp
      obtain ⟨f, hf, rfl⟩ := List.mem_map.mp hp
      rw [← contains_iff, contains, hfiles f hf]
      rfl
    have hlength : t.paths.length ≤ s.paths.length := by
      rw [paths, paths, List.length_map, List.length_map]
      exact Nat.le_of_eq hsize.symm
    have hperm : s.paths.Perm t.paths := (List.subperm_of_subset s.nodup hsubset).perm_of_length_le hlength
    cases hget : s.get? path with
    | some f =>
      obtain ⟨hf, rfl⟩ := get?_eq_some_iff.mp hget
      exact (hfiles f hf).symm
    | none =>
      rw [get?_eq_none_iff, hperm.mem_iff, ← get?_eq_none_iff] at hget
      exact hget.symm
  · intro hget
    have hmem : ∀ path, path ∈ s.paths ↔ path ∈ t.paths := by
      intro path
      rw [← contains_iff, ← contains_iff, contains, contains, hget]
    have hperm : s.paths.Perm t.paths := (List.perm_ext_iff_of_nodup s.nodup t.nodup).mpr hmem
    refine ⟨by simpa [paths, size] using hperm.length_eq, fun f hf => ?_⟩
    rw [← hget]
    exact get?_eq_some_iff.mpr ⟨hf, rfl⟩

/-! ### Histories -/

/-- A step in the history of a set. -/
inductive Step where
  | insert (file : SourceFile)
  | extend (files : List SourceFile)
  | collect (files : List SourceFile)

def Step.perform (s : SourceSet) : Step → SourceSet
  | .insert file => (s.exchange file).2
  | .extend files => s.extend files
  | .collect files => ofList files

/-- The set after some steps, empty at first. -/
def after (steps : List Step) : SourceSet :=
  steps.foldl Step.perform empty

/-- The files that came in by a step after others, in the order in which they came; collecting begins anew. -/
def Step.take (taken : List SourceFile) : Step → List SourceFile
  | .insert file => taken ++ [file]
  | .extend files => taken ++ files
  | .collect files => files

def taken (steps : List Step) : List SourceFile :=
  steps.foldl Step.take []

theorem after_eq_ofList (steps : List Step) : after steps = ofList (taken steps) := by
  induction steps using List.reverseRecOn with
  | nil => rfl
  | append_singleton steps step ih =>
    have hafter : after (steps ++ [step]) = step.perform (after steps) := List.foldl_append
    have htaken : taken (steps ++ [step]) = step.take (taken steps) := List.foldl_append
    rw [hafter, htaken, ih]
    cases step with
    | insert file =>
      rw [Step.perform, Step.take, exchange_snd, ofList_append]
      rfl
    | extend files => rw [Step.perform, Step.take, ofList_append]
    | collect files => rfl

/-- After any steps a set is what a map is in which each file taken in since the last collecting was put under its own path. Its
paths are the different paths of these files in the order of their first coming, and it has the last file that came to each.
All questions to it are answered from its list of files. Inserting displaces the very file at the path, and changes
neither what is at other paths nor the order. Two such sets are the same just when they have the same file at each path. -/
theorem keeps_order_of_insertion (steps : List Step) :
    ∃ s, after steps = s ∧
      s.files.map (fun f => (f.path, f)) = (taken steps).foldl (fun entries f => putAt f.path f entries) [] ∧
      (∀ path file, s.get? path = some file → file.path = path) ∧
      s.paths.Nodup ∧
      s.paths = ((taken steps).map SourceFile.path).eraseDups ∧
      (∀ path, s.get? path = ((taken steps).filter fun f => f.path = path).getLast?) ∧
      s.paths.map s.get? = s.files.map some ∧
      (∀ path, s.contains path = true ↔ path ∈ s.paths) ∧
      s.size = s.paths.length ∧
      (s.isEmpty = true ↔ s.paths = []) ∧
      (∀ file, (s.exchange file).1 = s.get? file.path ∧
        (s.exchange file).2.paths = (if file.path ∈ s.paths then s.paths else s.paths ++ [file.path]) ∧
        ∀ path, (s.exchange file).2.get? path = if path = file.path then some file else s.get? path) ∧
      ∀ others, s.sameFiles (after others) = true ↔ ∀ path, s.get? path = (after others).get? path := by
  refine ⟨after steps, rfl, ?_, ?_, (after steps).nodup, ?_, ?_, map_get?_paths _, fun _ => contains_iff, ?_, ?_, ?_,
    fun _ => sameFiles_iff_get?⟩
  · rw [foldl_putAt_path, after_eq_ofList]
  · exact fun path file hget => (get?_eq_some_iff.mp hget).2
  · rw [after_eq_ofList, paths_ofList]
  · intro path
    rw [after_eq_ofList, get?_ofList]
  · exact (List.length_map _).symm
  · rw [isEmpty, List.isEmpty_iff, paths, List.map_eq_nil_iff]
  · intro file
    rw [exchange_fst, exchange_snd]
    exact ⟨rfl, paths_insert _ file, get?_insert _ file⟩

end SourceSet

end SourceRecipes
