import SourceRecipes.Proofs.Recipe.Reordering
import SourceRecipes.Proofs.Run.Changes

/-!
# Many entries for one file

Recipes that continue the same text file work one after the other, each on the text that the one before it left. That
text ends a line, so every entry stands on lines of its own. If the file is missing, the first recipe creates it and the others
leave it alone: a file is not edited in the cycle that created it.
-/

namespace SourceRecipes

/-! ### Lines -/

namespace Text

/-- The text with its last line ended. -/
def endLine (text : String) : String :=
  if endsWith text "\n" then text else text ++ "\n"

theorem endsWith_append (text part : String) : endsWith (text ++ part) part = true := by
  rw [endsWith, List.isSuffixOf_iff_suffix, String.toList_append]
  exact List.suffix_append text.toList part.toList

theorem endLine_append_newline (text : String) : endLine (text ++ "\n") = text ++ "\n" :=
  if_pos (endsWith_append text "\n")

end Text

namespace AppendToTextFile

variable {r first : AppendToTextFile} {rest : List AppendToTextFile}

/-- The recipe continues a file by lines. -/
def AppendsLines (r : AppendToTextFile) : Prop :=
  r.strategy = .extend ∧ r.appendNewline ≠ some false

instance : Decidable r.AppendsLines :=
  inferInstanceAs (Decidable (_ ∧ _))

/-- The contents of recipes, each with its line ended. -/
def entries (recipes : List AppendToTextFile) : String :=
  String.join (recipes.map fun r => r.content ++ "\n")

theorem entries_cons (r : AppendToTextFile) (rest : List AppendToTextFile) :
    entries (r :: rest) = r.content ++ "\n" ++ entries rest := by
  rw [entries, List.map_cons, String.join_cons, entries]

theorem AppendsLines.newline_eq (h : r.AppendsLines) : r.newline = "\n" :=
  if_neg h.2

theorem AppendsLines.merged?_eq (h : r.AppendsLines) (text : String) :
    r.merged? text = some (Text.endLine text ++ r.content ++ "\n") := by
  have hseparated : text ++ r.separator text = Text.endLine text := by
    rw [separator, h.newline_eq, Text.endLine]
    by_cases hends : Text.endsWith text "\n" = true
    · rw [if_neg (by simp [hends]), if_pos hends, String.append_empty]
    · rw [if_pos ⟨by decide, hends⟩, if_neg hends]
  rw [merged?, h.1]
  simp only [hseparated, contentLine, h.newline_eq, String.append_assoc]

theorem AppendsLines.newText_eq (h : r.AppendsLines) :
    r.newText = (r.preamble.map fun preamble => preamble ++ "\n").getD "" ++ r.content ++ "\n" := by
  rw [newText, preambleLine, contentLine, h.newline_eq, ← String.append_assoc]
  cases r.preamble <;> rfl

end AppendToTextFile

namespace RecipeSpec

open LocalEffect AppendToTextFile

variable {first : AppendToTextFile} {rest recipes : List AppendToTextFile} {specs : List RecipeSpec} {path : SourcePath}

theorem act_appendToTextFile {r : AppendToTextFile} (h : r.AppendsLines) {t : PlainText} (hpath : t.path = r.relativeFileName) :
    onText.act (appendToTextFile r) t = { t with text := Text.endLine t.text ++ r.content ++ "\n" } := by
  simp only [onText, hpath, ↓reduceIte, h.merged?_eq, Option.getD_some]

/-- Every recipe finds the line ended by the one before it, so only the first one may have to end a line of the file. -/
theorem actAll_appendToTextFile {t : PlainText} (h : ∀ r ∈ first :: rest, r.AppendsLines)
    (hpath : ∀ r ∈ first :: rest, t.path = r.relativeFileName) :
    onText.actAll ((first :: rest).map appendToTextFile) t =
      { t with text := Text.endLine t.text ++ entries (first :: rest) } := by
  induction rest generalizing first t with
  | nil =>
      have hentries : entries [first] = first.content ++ "\n" := by simp [entries]
      rw [hentries, ← String.append_assoc]
      exact act_appendToTextFile (h first List.mem_cons_self) (hpath first List.mem_cons_self)
  | cons second rest ih =>
      rw [List.forall_mem_cons] at h hpath
      calc
        onText.actAll ((first :: second :: rest).map appendToTextFile) t
          = onText.actAll ((second :: rest).map appendToTextFile)
              { t with text := Text.endLine t.text ++ first.content ++ "\n" } := by
            rw [List.map_cons, actAll_cons, act_appendToTextFile h.1 hpath.1]
        _ = { t with text := Text.endLine (Text.endLine t.text ++ first.content ++ "\n") ++ entries (second :: rest) } :=
            ih h.2 hpath.2
        _ = { t with text := Text.endLine t.text ++ entries (first :: second :: rest) } := by
            rw [Text.endLine_append_newline, entries_cons first]
            simp only [String.append_assoc]

/-- The recipes for a text are those that name its path. -/
theorem relativeFileName_of_withSubject (h : withSubject specs (.text path) = recipes.map appendToTextFile) :
    ∀ r ∈ recipes, r.relativeFileName = path := by
  intro r hr
  have hmem : appendToTextFile r ∈ withSubject specs (.text path) := by
    rw [h]
    exact List.mem_map_of_mem hr
  exact Subject.text.inj (of_decide_eq_true (List.mem_filter.mp hmem).2)

/-- What is at a path after a cycle, if a text file was there. -/
theorem get?_nextSources_of_plainText {sources : SourceSet} {t : PlainText} (h : sources.get? path = some (.plainText t))
    (supply : IdSupply) :
    (nextSources specs sources supply).get? path =
      some (.plainText (onText.actAll (withSubject specs (.text path)) t)) := by
  obtain ⟨hmem, rfl⟩ := SourceSet.get?_eq_some_iff.mp h
  have hedited : SourceFile.plainText (onText.actAll (withSubject specs (.text t.path)) t) =
      applyAll specs (.plainText t) := by
    rw [applyAll_plainText]
    exact congrArg SourceFile.plainText (onText.actAll_withSubject specs t)
  rw [SourceFile.path, hedited, SourceSet.get?_eq_some_iff, path_applyAll, files_nextSources]
  exact ⟨List.mem_append_left _ (List.mem_map_of_mem hmem), rfl⟩

theorem exists_mem_created {r : AppendToTextFile} (h : r ∈ recipes) (supply : IdSupply) :
    ∃ id, .plainText ⟨id, r.relativeFileName, r.newText⟩ ∈ created supply recipes := by
  induction recipes generalizing supply with
  | nil => nomatch h
  | cons q rest ih =>
      rcases List.mem_cons.mp h with rfl | hrest
      · exact ⟨supply.draw.1, List.mem_cons_self⟩
      · obtain ⟨id, hid⟩ := ih hrest supply.draw.2
        exact ⟨id, List.mem_cons_of_mem _ hid⟩

/-- What is at a path after a cycle, if nothing was there and some recipe is the first one for it. -/
theorem exists_get?_nextSources_of_none {sources : SourceSet} (h : sources.get? path = none)
    (hfirst : (withSubject specs (.text path)).head? = some (appendToTextFile first)) (hpath : first.relativeFileName = path)
    (supply : IdSupply) :
    ∃ id, (nextSources specs sources supply).get? path = some (.plainText ⟨id, path, first.newText⟩) := by
  subst hpath
  have hcreator : first ∈ creators sources.paths specs :=
    mem_creators_iff.mpr (isFirst_iff_head?.mpr ⟨SourceSet.get?_eq_none_iff.mp h, hfirst⟩)
  obtain ⟨id, hid⟩ := exists_mem_created hcreator supply
  refine ⟨id, SourceSet.get?_eq_some_iff.mpr ⟨?_, rfl⟩⟩
  rw [files_nextSources]
  exact List.mem_append_right _ hid

end RecipeSpec

namespace Run

open RecipeSpec AppendToTextFile

/-- A file that is new or has another fingerprint is reported once. -/
theorem filter_between_eq_singleton {before after : SourceSet} {file : SourceFile} {path : SourcePath}
    (h : after.get? path = some file)
    (hdiffers : ∀ old, before.get? path = some old → old.fingerprint ≠ file.fingerprint) :
    (Change.between before after).filter (fun c => c.path = path) = [⟨before.get? path, file⟩] := by
  obtain ⟨hfile, rfl⟩ := SourceSet.get?_eq_some_iff.mp h
  have hmem : ⟨before.get? file.path, file⟩ ∈ Change.between before after :=
    Change.mem_between_iff.mpr ⟨hfile, rfl, hdiffers⟩
  exact filter_eq_singleton_of_nodup (Change.nodup_map_path_between before after) hmem

/-- Recipes that continue one file by lines, whatever recipes for other files and attributes stand between them, append all
their contents to a text that is there, in order and each with its line ended. If no file is there, it is created with the
preamble and the content of the first of them, and the others add nothing. Either way the path is reported once; a file that
was there is, if its new text has another digest. -/
theorem run_appends_entries_in_order (specs : List RecipeSpec) (sources : SourceSet) (path : SourcePath)
    (first : AppendToTextFile) (rest : List AppendToTextFile)
    (htarget : withSubject specs (.text path) = (first :: rest).map appendToTextFile)
    (hlines : ∀ r ∈ first :: rest, r.AppendsLines) :
    ∃ session, run 1 (specs.map RecipeSpec.active) sources = .ok session ∧ ∀ supply,
      ∃ result, (session.run supply).value.1 = result ∧
        (∀ t, sources.get? path = some (.plainText t) → ∃ after : SourceFile,
          after = .plainText { t with text := Text.endLine t.text ++ entries (first :: rest) } ∧
          result.sources.get? path = some after ∧
          ((SourceFile.plainText t).fingerprint ≠ after.fingerprint →
            result.changes.filter (fun c => c.path = path) = [⟨some (.plainText t), after⟩])) ∧
        (sources.get? path = none → ∃ (id : NodeId) (after : SourceFile),
          after = .plainText ⟨id, path,
            (first.preamble.map fun preamble => preamble ++ "\n").getD "" ++ first.content ++ "\n"⟩ ∧
          result.sources.get? path = some after ∧
          result.changes.filter (fun c => c.path = path) = [⟨none, after⟩]) := by
  refine ⟨_, run_one_eq_ok specs sources, fun supply => ⟨_, rfl, fun t hget => ?_, fun hget => ?_⟩⟩
  · have hpath : t.path = path := (SourceSet.get?_eq_some_iff.mp hget).2
    have hafter : (nextSources specs sources supply).get? path =
        some (.plainText { t with text := Text.endLine t.text ++ entries (first :: rest) }) := by
      rw [get?_nextSources_of_plainText hget, htarget, actAll_appendToTextFile hlines]
      intro r hr
      rw [hpath, relativeFileName_of_withSubject htarget r hr]
    rw [value_start_one]
    refine ⟨_, rfl, hafter, fun hdigest => ?_⟩
    rw [filter_between_eq_singleton hafter, hget]
    rintro old hold
    cases hget.symm.trans hold
    exact hdigest
  · have hfirst : (withSubject specs (.text path)).head? = some (appendToTextFile first) := by
      rw [htarget]
      rfl
    obtain ⟨id, hafter⟩ := exists_get?_nextSources_of_none hget hfirst
      (relativeFileName_of_withSubject htarget first List.mem_cons_self) supply
    rw [(hlines first List.mem_cons_self).newText_eq] at hafter
    rw [value_start_one]
    refine ⟨id, _, rfl, hafter, ?_⟩
    rw [filter_between_eq_singleton hafter, hget]
    intro old hold
    nomatch hget.symm.trans hold

/-- Two entries for the notes, and between them a rewrite and a recipe for another file. -/
def entrySpecs : List RecipeSpec :=
  [.appendToTextFile ⟨notesPath, "x", some "p", none, some .extend⟩,
    .changeXmlAttribute ⟨"bean", "class", some "old", "new"⟩,
    .appendToTextFile ⟨diaryPath, "w", none, none, some .replace⟩,
    .appendToTextFile ⟨notesPath, "z", some "q", some true, some .extend⟩]

theorem fingerprint_notes_ne : (SourceFile.plainText ⟨.blank, notesPath, "y"⟩).fingerprint ≠
    (SourceFile.plainText ⟨.blank, notesPath, "y\nx\nz\n"⟩).fingerprint := by
  intro h
  have hlong : ∀ file ∈ [SourceFile.plainText ⟨.blank, notesPath, "y\nx\nz\n"⟩], file.stream.length ≤ 1024 := by
    decide +kernel
  have hshort : ∀ file ∈ [SourceFile.plainText ⟨.blank, notesPath, "y"⟩], file.stream.length ≤ 1024 := by decide +kernel
  have hstream := stream_eq_of_fingerprint_eq_of_short hlong hshort (by decide +kernel) List.mem_cons_self
    List.mem_cons_self h
  revert hstream
  decide +kernel

theorem run_appends_entries_in_order_of_sample :
    (∃ session, run 1 (entrySpecs.map RecipeSpec.active) sampleSources = .ok session ∧ ∀ supply,
      ∃ result, (session.run supply).value.1 = result ∧
        result.sources.get? notesPath = some (.plainText ⟨.blank, notesPath, "y\nx\nz\n"⟩) ∧
        result.changes.filter (fun c => c.path = notesPath) =
          [⟨some (.plainText ⟨.blank, notesPath, "y"⟩), .plainText ⟨.blank, notesPath, "y\nx\nz\n"⟩⟩]) ∧
    ∃ session, run 1 (entrySpecs.map RecipeSpec.active) SourceSet.empty = .ok session ∧ ∀ supply,
      ∃ result, (session.run supply).value.1 = result ∧ ∃ id,
        result.sources.get? notesPath = some (.plainText ⟨id, notesPath, "p\nx\n"⟩) ∧
        result.changes.filter (fun c => c.path = notesPath) = [⟨none, .plainText ⟨id, notesPath, "p\nx\n"⟩⟩] := by
  have happend := fun sources => run_appends_entries_in_order entrySpecs sources notesPath
    ⟨notesPath, "x", some "p", none, some .extend⟩ [⟨notesPath, "z", some "q", some true, some .extend⟩]
    (by decide) (by decide)
  constructor
  · obtain ⟨session, hsession, hresult⟩ := happend sampleSources
    refine ⟨session, hsession, fun supply => ?_⟩
    obtain ⟨result, hvalue, hthere, -⟩ := hresult supply
    obtain ⟨after, rfl, hget, hreported⟩ := hthere ⟨.blank, notesPath, "y"⟩ (by decide)
    exact ⟨result, hvalue, hget, hreported fingerprint_notes_ne⟩
  · obtain ⟨session, hsession, hresult⟩ := happend SourceSet.empty
    refine ⟨session, hsession, fun supply => ?_⟩
    obtain ⟨result, hvalue, -, hmissing⟩ := hresult supply
    obtain ⟨id, after, rfl, hget, hreported⟩ := hmissing rfl
    exact ⟨result, hvalue, id, hget, hreported⟩

end Run

end SourceRecipes
