import SourceRecipes.Proofs.Run.Events

/-!
# Messages of a cycle

Every phase of a cycle has messages of its own, so how often one of them is logged is counted in its phase. A generation
says so once for every file that it creates. The edits tell of a target that is no plain text once for every recipe that it
was meant for, as no two files have one path. Only the end of a cycle is reported with its number.
-/

namespace SourceRecipes

/-! ### Counting messages -/

namespace Event

/-- The number of a cycle at its end, and whether it changed anything. -/
def report? : Event → Option (Nat × Bool)
  | cycleFinished number changed => some (number.toNat, changed)
  | _ => none

theorem report?_eq_none {e : Event} (h : e.message ≠ "Cycle finished") : e.report? = none := by
  cases e <;> first | rfl | exact absurd rfl h

end Event

open Event

/-- How often a message stands in a log. -/
def timesLogged (text : String) (events : List Event) : Nat :=
  (events.map message).count text

variable {text : String} {events : List Event}

theorem timesLogged_cons (e : Event) :
    timesLogged text (e :: events) = timesLogged text events + if e.message = text then 1 else 0 := by
  rw [timesLogged, List.map_cons, List.count_cons]
  simp only [beq_iff_eq, timesLogged]

theorem timesLogged_append (events' : List Event) :
    timesLogged text (events ++ events') = timesLogged text events + timesLogged text events' := by
  rw [timesLogged, List.map_append, List.count_append, timesLogged, timesLogged]

theorem timesLogged_flatMap {α : Type} (f : α → List Event) (items : List α) :
    timesLogged text (items.flatMap f) = (items.map fun a => timesLogged text (f a)).sum := by
  induction items with
  | nil => rfl
  | cons a rest ih => rw [List.flatMap_cons, timesLogged_append, ih, List.map_cons, List.sum_cons]

theorem timesLogged_eq_zero (h : ∀ e ∈ events, e.message ≠ text) : timesLogged text events = 0 := by
  rw [timesLogged, List.count_eq_zero, List.mem_map]
  rintro ⟨e, he, rfl⟩
  exact h e he rfl

theorem timesLogged_between_ends (h : text ∉ ["Starting recipe run", "Recipe run finished"])
    (recipes sources changes visited : Nat) (limit cyclesRun : UInt32) :
    timesLogged text (.runStarted recipes sources limit :: (events ++ [.runFinished changes cyclesRun visited])) =
      timesLogged text events := by
  simp only [List.mem_cons, List.not_mem_nil, or_false, not_or] at h
  have hstarted : ¬ (Event.runStarted recipes sources limit).message = text := Ne.symm h.1
  have hfinished : ¬ (Event.runFinished changes cyclesRun visited).message = text := Ne.symm h.2
  rw [timesLogged_cons, timesLogged_append, timesLogged_cons, if_neg hstarted, if_neg hfinished]
  rfl

namespace RecipeSpec

/-! ### The messages of the phases -/

theorem message_of_mem_scanEvents {spec : RecipeSpec} {path : SourcePath} {e : Event} (h : e ∈ spec.scanEvents path) :
    e.message = "target file exists before run" := by
  cases spec with
  | changeXmlAttribute r => exact absurd h List.not_mem_nil
  | appendToTextFile r =>
      rw [scanEvents] at h
      split at h
      · rw [List.mem_singleton.mp h]
        rfl
      · exact absurd h List.not_mem_nil

theorem message_of_mem_generationEvents {specs : List RecipeSpec} {taken : List SourcePath} {e : Event}
    (h : e ∈ generationEvents taken specs) :
    e.message ∈ ["target file exists, nothing to generate", "creating text file", "Generated sources"] := by
  induction specs generalizing taken with
  | nil => exact absurd h List.not_mem_nil
  | cons spec rest ih =>
      cases spec with
      | changeXmlAttribute r => exact ih h
      | appendToTextFile r =>
          rw [generationEvents] at h
          split at h
          · rcases List.mem_cons.mp h with rfl | h
            · exact List.mem_cons_self
            · exact ih h
          · rcases List.mem_cons.mp h with rfl | h
            · exact List.mem_cons_of_mem _ List.mem_cons_self
            rcases List.mem_cons.mp h with rfl | h
            · exact List.mem_cons_of_mem _ (List.mem_cons_of_mem _ List.mem_cons_self)
            · exact ih h

theorem message_of_mem_editEvents {spec : RecipeSpec} {file : SourceFile} {e : Event} (h : e ∈ spec.editEvents file) :
    e.message ∈ ["rewrote attribute values", "target is not a plain text file, leaving it",
      "merged content into existing file"] := by
  revert h
  cases spec with
  | changeXmlAttribute r =>
      rw [editEvents]
      split <;> simp +contextual [message]
  | appendToTextFile r =>
      cases file with
      | plainText t =>
          rw [editEvents]
          split
          · split <;> simp +contextual [message]
          · simp
      | markup d =>
          rw [editEvents]
          split <;> simp +contextual [message]

theorem message_of_mem_allEditEvents {specs : List RecipeSpec} {file : SourceFile} {e : Event}
    (h : e ∈ allEditEvents specs file) :
    e.message ∈ ["rewrote attribute values", "target is not a plain text file, leaving it",
      "merged content into existing file"] := by
  induction specs generalizing file with
  | nil => exact absurd h List.not_mem_nil
  | cons spec rest ih => exact (List.mem_append.mp h).elim message_of_mem_editEvents ih

/-! ### Creations -/

theorem timesLogged_generationEvents (specs : List RecipeSpec) (taken : List SourcePath) :
    timesLogged "creating text file" (generationEvents taken specs) = (creators taken specs).length := by
  induction specs generalizing taken with
  | nil => rfl
  | cons spec rest ih =>
      cases spec with
      | changeXmlAttribute r => exact ih taken
      | appendToTextFile r =>
          rw [generationEvents, creators]
          split
          · rw [timesLogged_cons, ih]
            rfl
          · rw [timesLogged_cons, timesLogged_cons, ih]
            rfl

/-! ### Targets that are no plain texts -/

/-- Whether a file is markup at the path of the text file that the recipe writes. -/
def targetsMarkup : RecipeSpec → SourceFile → Bool
  | changeXmlAttribute _, _ => false
  | appendToTextFile r, file => file.kind = .markup && file.path = r.relativeFileName

theorem kind_applyTo (spec : RecipeSpec) (file : SourceFile) : (spec.applyTo file).kind = file.kind := by
  cases spec with
  | changeXmlAttribute r => cases file <;> rfl
  | appendToTextFile r =>
      cases file with
      | plainText t =>
          rw [applyTo, AppendToTextFile.mergeFile]
          split <;> rfl
      | markup d => rfl

theorem targetsMarkup_applyTo (spec other : RecipeSpec) (file : SourceFile) :
    spec.targetsMarkup (other.applyTo file) = spec.targetsMarkup file := by
  cases spec with
  | changeXmlAttribute r => rfl
  | appendToTextFile r => rw [targetsMarkup, targetsMarkup, kind_applyTo, path_applyTo]

theorem timesLogged_editEvents (spec : RecipeSpec) (file : SourceFile) :
    timesLogged "target is not a plain text file, leaving it" (spec.editEvents file) =
      if spec.targetsMarkup file then 1 else 0 := by
  cases spec with
  | changeXmlAttribute r =>
      rw [editEvents]
      split <;> rfl
  | appendToTextFile r =>
      cases file with
      | plainText t =>
          rw [editEvents]
          split
          · split <;> rfl
          · rfl
      | markup d =>
          rw [editEvents]
          by_cases htarget : d.path = r.relativeFileName
          · rw [if_pos htarget, if_pos (by simp [targetsMarkup, SourceFile.kind, SourceFile.path, htarget])]
            rfl
          · rw [if_neg htarget, if_neg (by simp [targetsMarkup, SourceFile.path, htarget])]
            rfl

theorem timesLogged_allEditEvents (specs : List RecipeSpec) (file : SourceFile) :
    timesLogged "target is not a plain text file, leaving it" (allEditEvents specs file) =
      specs.countP fun spec => spec.targetsMarkup file := by
  induction specs generalizing file with
  | nil => rfl
  | cons spec rest ih =>
      rw [allEditEvents, timesLogged_append, timesLogged_editEvents, ih, List.countP_cons, Nat.add_comm]
      simp only [targetsMarkup_applyTo]

theorem countP_targetsMarkup {files : List SourceFile} (h : (files.map SourceFile.path).Nodup) (spec : RecipeSpec) :
    files.countP spec.targetsMarkup = if files.any spec.targetsMarkup then 1 else 0 := by
  have hle : files.countP spec.targetsMarkup ≤ 1 := by
    cases spec with
    | changeXmlAttribute r =>
        have hnone : files.countP (changeXmlAttribute r).targetsMarkup = 0 :=
          List.countP_eq_zero.mpr fun _ _ => Bool.false_ne_true
        rw [hnone]
        exact Nat.zero_le 1
    | appendToTextFile r =>
        calc files.countP (appendToTextFile r).targetsMarkup
            ≤ files.countP fun file => file.path == r.relativeFileName := by
              apply List.countP_mono_left
              intro file _ htarget
              rw [targetsMarkup, Bool.and_eq_true, decide_eq_true_eq, decide_eq_true_eq] at htarget
              exact beq_iff_eq.mpr htarget.2
          _ = (files.map SourceFile.path).count r.relativeFileName := by
              rw [List.count_eq_countP, List.countP_map]
              rfl
          _ ≤ 1 := List.nodup_iff_count_le_one.mp h r.relativeFileName
  have hpos : 0 < files.countP spec.targetsMarkup ↔ files.any spec.targetsMarkup = true := by
    rw [List.countP_pos_iff, List.any_eq_true]
  split
  next hany => exact Nat.le_antisymm hle (hpos.mpr hany)
  next hany => exact Nat.eq_zero_of_not_pos (mt hpos.mp hany)

theorem sum_map_add_countP {α : Type} (f : α → Nat) (p : α → Bool) (items : List α) :
    (items.map fun a => f a + if p a then 1 else 0).sum = (items.map f).sum + items.countP p := by
  induction items with
  | nil => rfl
  | cons a rest ih =>
      rw [List.map_cons, List.sum_cons, ih, List.map_cons, List.sum_cons, List.countP_cons]
      omega

/-- As no two files have one path, a recipe has one target at most. -/
theorem sum_countP_targetsMarkup {files : List SourceFile} (h : (files.map SourceFile.path).Nodup)
    (specs : List RecipeSpec) :
    (files.map fun file => specs.countP fun spec => spec.targetsMarkup file).sum =
      specs.countP fun spec => files.any spec.targetsMarkup := by
  induction specs with
  | nil => simp
  | cons spec rest ih =>
      calc (files.map fun file => (spec :: rest).countP fun spec => spec.targetsMarkup file).sum
          = (files.map fun file => (rest.countP fun spec => spec.targetsMarkup file) +
              if spec.targetsMarkup file then 1 else 0).sum := by
            simp only [List.countP_cons]
        _ = (rest.countP fun spec => files.any spec.targetsMarkup) + files.countP spec.targetsMarkup := by
            rw [sum_map_add_countP, ih]
        _ = (spec :: rest).countP fun spec => files.any spec.targetsMarkup := by
            rw [countP_targetsMarkup h, List.countP_cons]

end RecipeSpec

namespace Run

open RecipeSpec

/-! ### Cycles -/

section Cycles

variable {specs : List RecipeSpec} {files : List SourceFile} {e : Event}

theorem message_of_mem_scans (h : e ∈ files.flatMap fun file => specs.flatMap (scanEvents file.path)) :
    e.message = "target file exists before run" := by
  obtain ⟨file, -, hfile⟩ := List.mem_flatMap.mp h
  obtain ⟨spec, -, hspec⟩ := List.mem_flatMap.mp hfile
  exact message_of_mem_scanEvents hspec

theorem message_of_mem_edits (h : e ∈ files.flatMap (allEditEvents specs)) :
    e.message ∈ ["rewrote attribute values", "target is not a plain text file, leaving it",
      "merged content into existing file"] := by
  obtain ⟨file, -, hfile⟩ := List.mem_flatMap.mp h
  exact message_of_mem_allEditEvents hfile

theorem timesLogged_cycleEvents {text : String}
    (h : text ∉ ["target file exists before run", "Scan phase done", "Cycle finished"]) (specs : List RecipeSpec)
    (number : UInt32) (sources : SourceSet) :
    timesLogged text (cycleEvents specs number sources) =
      timesLogged text (generationEvents sources.paths specs) +
        timesLogged text (sources.files.flatMap (allEditEvents specs)) := by
  simp only [List.mem_cons, List.not_mem_nil, or_false, not_or] at h
  have hscan : timesLogged text (sources.files.flatMap fun file => specs.flatMap (scanEvents file.path)) = 0 :=
    timesLogged_eq_zero fun e he heq => h.1 (heq.symm.trans (message_of_mem_scans he))
  have hfinished : timesLogged text [.cycleFinished number (isBusy specs sources)] = 0 :=
    timesLogged_eq_zero fun e he heq => h.2.2 (heq ▸ List.mem_singleton.mp he ▸ rfl)
  have hscanned : ¬ (Event.scanFinished sources.size).message = text := Ne.symm h.2.1
  rw [cycleEvents, List.cons_append, timesLogged_append, timesLogged_cons, timesLogged_append, timesLogged_append, hscan,
    hfinished, if_neg hscanned]
  omega

theorem timesLogged_cycleEvents_creating (specs : List RecipeSpec) (number : UInt32) (sources : SourceSet) :
    timesLogged "creating text file" (cycleEvents specs number sources) = (creators sources.paths specs).length := by
  have hedit : timesLogged "creating text file" (sources.files.flatMap (allEditEvents specs)) = 0 :=
    timesLogged_eq_zero fun e he heq => absurd (heq ▸ message_of_mem_edits he) (by decide)
  rw [timesLogged_cycleEvents (by decide), timesLogged_generationEvents, hedit, Nat.add_zero]

theorem timesLogged_cycleEvents_leaving (specs : List RecipeSpec) (number : UInt32) (sources : SourceSet) :
    timesLogged "target is not a plain text file, leaving it" (cycleEvents specs number sources) =
      specs.countP fun spec => sources.files.any spec.targetsMarkup := by
  have hgenerate : timesLogged "target is not a plain text file, leaving it"
      (generationEvents sources.paths specs) = 0 :=
    timesLogged_eq_zero fun e he heq => absurd (heq ▸ message_of_mem_generationEvents he) (by decide)
  rw [timesLogged_cycleEvents (by decide), hgenerate, Nat.zero_add, timesLogged_flatMap]
  simp only [timesLogged_allEditEvents]
  exact sum_countP_targetsMarkup sources.nodup specs

theorem reports_cycleEvents (specs : List RecipeSpec) (number : UInt32) (sources : SourceSet) :
    (cycleEvents specs number sources).filterMap report? = [(number.toNat, isBusy specs sources)] := by
  have hscan : (sources.files.flatMap fun file => specs.flatMap (scanEvents file.path)).filterMap report? = [] :=
    List.filterMap_eq_nil_iff.mpr fun e he => report?_eq_none (by rw [message_of_mem_scans he]; decide)
  have hgenerate : (generationEvents sources.paths specs).filterMap report? = [] :=
    List.filterMap_eq_nil_iff.mpr fun e he =>
      report?_eq_none fun heq => absurd (heq ▸ message_of_mem_generationEvents he) (by decide)
  have hedit : (sources.files.flatMap (allEditEvents specs)).filterMap report? = [] :=
    List.filterMap_eq_nil_iff.mpr fun e he =>
      report?_eq_none fun heq => absurd (heq ▸ message_of_mem_edits he) (by decide)
  rw [cycleEvents, List.cons_append, List.filterMap_append, hscan, List.filterMap_cons_none rfl, List.filterMap_append,
    hgenerate, List.filterMap_append, hedit]
  rfl

end Cycles

end Run

end SourceRecipes
