import SourceRecipes.SourceFile

/-!
# Sets of source files

The files of a run stand in a set that has one file for a path. It is kept in order: a file at a new path comes last,
one at a path that is taken replaces the file there in its place.
-/

namespace SourceRecipes

/-- The list with `file` in the place of the file at its path, or at the end if there is none. -/
def insertFile (file : SourceFile) : List SourceFile → List SourceFile
  | [] => [file]
  | other :: rest => if other.path = file.path then file :: rest else other :: insertFile file rest

theorem map_path_insertFile (file : SourceFile) (files : List SourceFile) :
    (insertFile file files).map SourceFile.path =
      if file.path ∈ files.map SourceFile.path then files.map SourceFile.path
      else files.map SourceFile.path ++ [file.path] := by
  induction files with
  | nil => simp [insertFile]
  | cons other rest ih =>
    by_cases h : other.path = file.path
    · simp [insertFile, h]
    · have h' : ¬ file.path = other.path := fun heq => h heq.symm
      simp only [insertFile, h, ↓reduceIte, List.map_cons, ih, List.mem_cons, h', false_or]
      split <;> simp

theorem nodup_insertFile {file : SourceFile} {files : List SourceFile}
    (h : (files.map SourceFile.path).Nodup) : ((insertFile file files).map SourceFile.path).Nodup := by
  rw [map_path_insertFile]
  split
  · exact h
  · next hnew =>
    rw [List.nodup_append]
    refine ⟨h, by simp, ?_⟩
    intro p hp q hq heq
    rw [List.mem_singleton] at hq
    subst hq heq
    exact hnew hp

/-- The list with `file` in it as `insertFile` puts it there, and the file it takes the place of. -/
def exchangeFile (file : SourceFile) : List SourceFile → Option SourceFile × List SourceFile
  | [] => (none, [file])
  | other :: rest =>
    if other.path = file.path then (some other, file :: rest)
    else
      let (displaced, rest) := exchangeFile file rest
      (displaced, other :: rest)

theorem exchangeFile_snd (file : SourceFile) (files : List SourceFile) :
    (exchangeFile file files).2 = insertFile file files := by
  induction files with
  | nil => rfl
  | cons other rest ih =>
    rw [exchangeFile, insertFile, ← ih]
    split <;> rfl

/-- Files in order, no two of them at one path. -/
structure SourceSet where
  files : List SourceFile
  nodup : (files.map SourceFile.path).Nodup

namespace SourceSet

def empty : SourceSet :=
  ⟨[], List.nodup_nil⟩

instance : Inhabited SourceSet := ⟨empty⟩

def size (s : SourceSet) : Nat :=
  s.files.length

def isEmpty (s : SourceSet) : Bool :=
  s.files.isEmpty

def paths (s : SourceSet) : List SourcePath :=
  s.files.map SourceFile.path

def get? (s : SourceSet) (path : SourcePath) : Option SourceFile :=
  s.files.find? fun f => f.path = path

def contains (s : SourceSet) (path : SourcePath) : Bool :=
  (s.get? path).isSome

/-- The set with a file in the place of the one at its path, or at the end. -/
def insert (s : SourceSet) (file : SourceFile) : SourceSet :=
  ⟨insertFile file s.files, nodup_insertFile s.nodup⟩

/-- The set with a file inserted, and the file that is displaced by it. -/
def exchange (s : SourceSet) (file : SourceFile) : Option SourceFile × SourceSet :=
  let result := exchangeFile file s.files
  (result.1, ⟨result.2, exchangeFile_snd file s.files ▸ nodup_insertFile s.nodup⟩)

def extend (s : SourceSet) (files : List SourceFile) : SourceSet :=
  files.foldl insert s

def ofList (files : List SourceFile) : SourceSet :=
  empty.extend files

/-- Sets are the same if they hold equal files at the same paths, whatever their order. -/
def sameFiles (s t : SourceSet) : Bool :=
  s.size == t.size && s.files.all fun f => t.get? f.path == some f

end SourceSet

end SourceRecipes
