import SourceRecipes.Proofs.Run.Passes

/-!
# What a cycle logs

Each phase of a cycle has its own events. The scan tells of every target that it meets, the generation of every recipe that
writes a text file, and the edits of every file that a recipe changes or cannot change. Which events these are is
determined by the recipes and the files, so a cycle has one log, whatever cycles came before it.
-/

namespace SourceRecipes

theorem Logged.events_mapM {α β : Type} (f : α → Logged β) (items : List α) :
    (items.mapM f).events = items.flatMap fun a => (f a).events := by
  induction items with
  | nil => rfl
  | cons a rest ih =>
      rw [List.mapM_cons, Logged.events_bind, Logged.events_bind, Logged.events_pure, ih, List.append_nil,
        List.flatMap_cons]

theorem Session.events_bind_of_value {α β : Type} {x : Session α} {f : α → Session β} {supply left : IdSupply} {a : α}
    (h : (x.run supply).value = (a, left)) :
    ((x >>= f).run supply).events = (x.run supply).events ++ ((f a).run left).events := by
  rw [StateT.run_bind, Logged.events_bind, h]

theorem Session.events_run_lift {α : Type} (x : Logged α) (supply : IdSupply) :
    ((liftM x : Session α).run supply).events = x.events :=
  List.append_nil x.events

namespace RecipeSpec

/-! ### The events of the phases -/

/-- What a recipe logs when it is shown a file at a path. -/
def scanEvents (path : SourcePath) : RecipeSpec → List Event
  | changeXmlAttribute _ => []
  | appendToTextFile r => if path = r.relativeFileName then [.targetFound r.relativeFileName] else []

/-- What recipes log when they generate files, given the paths that are taken. -/
def generationEvents (taken : List SourcePath) : List RecipeSpec → List Event
  | [] => []
  | changeXmlAttribute _ :: rest => generationEvents taken rest
  | appendToTextFile r :: rest =>
    if r.relativeFileName ∈ taken then .nothingToGenerate r.relativeFileName :: generationEvents taken rest
    else .creatingFile r.relativeFileName :: .generated AppendToTextFile.info.name 1 ::
      generationEvents (taken ++ [r.relativeFileName]) rest

/-- What a recipe logs when it is given a file to edit. -/
def editEvents : RecipeSpec → SourceFile → List Event
  | changeXmlAttribute r, file =>
    if r.editFile file = file then []
    else [.valuesChanged file.path r.elementName r.attributeName (file.occurrences.countP r.changes)]
  | appendToTextFile r, .plainText t =>
    if t.path = r.relativeFileName then
      if (r.merged? t.text).getD t.text = t.text then [] else [.contentMerged r.relativeFileName r.strategy]
    else []
  | appendToTextFile r, .markup d =>
    if d.path = r.relativeFileName then [.targetNotPlainText r.relativeFileName .markup] else []

/-- What recipes log when they edit a file one after the other. -/
def allEditEvents : List RecipeSpec → SourceFile → List Event
  | [], _ => []
  | spec :: rest, file => spec.editEvents file ++ allEditEvents rest (spec.applyTo file)

variable {files seen : List SourceFile}

theorem events_scan {file : SourceFile} (h : file.path ∉ seen.map SourceFile.path) (spec : RecipeSpec)
    (context : Context) : (Runnable.scan (spec.scanned seen) file context).events = spec.scanEvents file.path := by
  cases spec with
  | changeXmlAttribute r => rfl
  | appendToTextFile r =>
      have hscan : (Runnable.scan ((appendToTextFile r).scanned seen) file context).events =
          (r.scan ⟨seen.any r.targets⟩ file).events ++ [] ++ [] := rfl
      rw [hscan, List.append_nil, List.append_nil, AppendToTextFile.scan, scanEvents]
      by_cases htarget : file.path = r.relativeFileName
      · have hfirst : seen.any r.targets = false := by
          rw [Bool.eq_false_iff, ne_eq, any_targets_iff, ← htarget]
          exact h
        rw [if_pos htarget, if_pos (by simp [hfirst, AppendToTextFile.targets, htarget])]
        rfl
      · rw [if_neg htarget, if_neg (by simp [AppendToTextFile.targets, htarget])]
        rfl

theorem events_generate (r : AppendToTextFile) (files seen : List SourceFile) (context : Context) (supply : IdSupply) :
    ((Runnable.generate ((appendToTextFile r).scanned files) seen context).run supply).events =
      if r.relativeFileName ∈ files.map SourceFile.path ++ seen.map SourceFile.path then
        [.nothingToGenerate r.relativeFileName]
      else [.creatingFile r.relativeFileName] := by
  have hmet : (files.any r.targets || seen.any r.targets) = true ↔
      r.relativeFileName ∈ files.map SourceFile.path ++ seen.map SourceFile.path := by
    rw [Bool.or_eq_true, any_targets_iff, any_targets_iff, List.mem_append]
  have hgenerate : ((Runnable.generate ((appendToTextFile r).scanned files) seen context).run supply).events =
      ((r.generate ⟨files.any r.targets⟩ seen).run supply).events ++ [] ++ [] := rfl
  rw [hgenerate, List.append_nil, List.append_nil, AppendToTextFile.generate]
  by_cases htaken : r.relativeFileName ∈ files.map SourceFile.path ++ seen.map SourceFile.path
  · rw [if_pos (hmet.mpr htaken), if_pos htaken]
    rfl
  · rw [if_neg (mt hmet.mp htaken), if_neg htaken]
    rfl

theorem events_visit (r : ChangeXmlAttribute) (file : SourceFile) :
    (r.visit file).events = editEvents (changeXmlAttribute r) file := by
  rw [ChangeXmlAttribute.visit, ChangeXmlAttribute.run_visitFile, editEvents, differing, Nat.zero_add]
  by_cases hsame : r.editFile file = file
  · rw [if_pos hsame, if_pos hsame]
    rfl
  · rw [if_neg hsame, if_neg hsame]
    rfl

theorem events_mergeInto (r : AppendToTextFile) (t : PlainText) :
    (r.mergeInto t).events =
      if (r.merged? t.text).getD t.text = t.text then [] else [.contentMerged r.relativeFileName r.strategy] := by
  rw [AppendToTextFile.mergeInto]
  cases r.merged? t.text with
  | none => exact (if_pos rfl).symm
  | some text =>
      dsimp only [Option.getD_some]
      split <;> rfl

theorem events_transform {file : SourceFile} (h : file.path ∈ files.map SourceFile.path) (spec : RecipeSpec)
    (context : Context) :
    (Runnable.transform (spec.scanned files) file context).events = spec.editEvents file := by
  cases spec with
  | changeXmlAttribute r => exact events_visit r file
  | appendToTextFile r =>
      have htransform : (Runnable.transform ((appendToTextFile r).scanned files) file context).events =
          (r.transform ⟨files.any r.targets⟩ file).events := rfl
      rw [htransform, AppendToTextFile.transform.eq_def]
      by_cases htarget : file.path = r.relativeFileName
      · have hmet : (files.any r.targets && r.targets file) = true := by
          rw [Bool.and_eq_true, any_targets_iff, ← htarget]
          exact ⟨h, decide_eq_true htarget⟩
        rw [if_pos hmet]
        cases file with
        | plainText t => exact (events_mergeInto r t).trans (if_pos htarget).symm
        | markup d => exact (if_pos htarget).symm
      · have hmet : ¬ (files.any r.targets && r.targets file) = true := by
          rw [Bool.and_eq_true, not_and]
          exact fun _ => by simpa [AppendToTextFile.targets] using htarget
        rw [if_neg hmet]
        cases file with
        | plainText t => exact (if_neg htarget).symm
        | markup d => exact (if_neg htarget).symm

end RecipeSpec

namespace Run

open RecipeSpec

/-! ### The events of a cycle -/

theorem events_mapM_scan (specs : List RecipeSpec) {seen : List SourceFile} {file : SourceFile}
    (h : file.path ∉ seen.map SourceFile.path) (context : Context) :
    ((specs.map (scanned seen)).mapM fun r => Runnable.scan r file context).events =
      specs.flatMap (scanEvents file.path) := by
  rw [Logged.events_mapM, List.flatMap_map]
  exact List.flatMap_congr fun spec _ => events_scan h spec context

theorem events_scanFiles (specs : List RecipeSpec) {seen files : List SourceFile}
    (h : ((seen ++ files).map SourceFile.path).Nodup) (context : Context) :
    (scanFiles (specs.map (scanned seen)) files context).events =
      files.flatMap fun file => specs.flatMap (scanEvents file.path) := by
  induction files generalizing seen context with
  | nil => rfl
  | cons file rest ih =>
      have hnew : file.path ∉ seen.map SourceFile.path := by
        rw [List.map_append, List.map_cons] at h
        exact fun hmem => (List.nodup_append.mp h).2.2 _ hmem _ List.mem_cons_self rfl
      have hrest : ((seen ++ [file] ++ rest).map SourceFile.path).Nodup := by
        rwa [List.append_assoc, List.singleton_append]
      rw [scanFiles, Logged.events_bind, events_mapM_scan specs hnew, value_mapM_scan, ih hrest, List.flatMap_cons]

theorem events_generateFiles_cons {ρ : Type} [Runnable ρ] {r after : ρ} {rest : List ρ} {seen made : List SourceFile}
    {context : Context} {supply left : IdSupply}
    (h : ((Runnable.generate r seen context).run supply).value = ((made, after), left)) :
    ((generateFiles (r :: rest) seen context).run supply).events =
      ((Runnable.generate r seen context).run supply).events ++
        ((if made.isEmpty then [] else [.generated (Runnable.name after) made.length]) ++
          ((generateFiles rest (seen ++ made) context).run left).events) := by
  have hrest : ((generateFiles rest (seen ++ made) context >>= fun result =>
      pure (result.1, after :: result.2) : Session (List SourceFile × List ρ)).run left).events =
      ((generateFiles rest (seen ++ made) context).run left).events := List.append_nil _
  rw [generateFiles, Session.events_bind_of_value h, ← hrest]
  cases made <;> rfl

theorem events_generateFiles (specs : List RecipeSpec) (files seen : List SourceFile) (context : Context)
    (supply : IdSupply) :
    ((generateFiles (specs.map (scanned files)) seen context).run supply).events =
      generationEvents (files.map SourceFile.path ++ seen.map SourceFile.path) specs := by
  induction specs generalizing seen supply with
  | nil => rfl
  | cons spec rest ih =>
      cases spec with
      | changeXmlAttribute r =>
          have hgenerate : ((Runnable.generate ((RecipeSpec.changeXmlAttribute r).scanned files) seen context).run
              supply).value = (([], (RecipeSpec.changeXmlAttribute r).scanned files), supply) := rfl
          rw [List.map_cons, events_generateFiles_cons hgenerate, List.append_nil, ih]
          rfl
      | appendToTextFile r =>
          have hgenerate := run_generate r files seen context supply
          have hevents := events_generate r files seen context supply
          rw [List.map_cons, generationEvents]
          by_cases htaken : r.relativeFileName ∈ files.map SourceFile.path ++ seen.map SourceFile.path
          · rw [if_pos htaken] at hgenerate hevents ⊢
            rw [events_generateFiles_cons hgenerate, hevents, List.append_nil, ih]
            rfl
          · rw [if_neg htaken] at hgenerate hevents ⊢
            rw [events_generateFiles_cons hgenerate, hevents, ih, List.map_append, List.append_assoc]
            rfl

theorem events_transformFile (specs : List RecipeSpec) (files : List SourceFile) {file : SourceFile}
    (h : file.path ∈ files.map SourceFile.path) (context : Context) :
    (transformFile (specs.map (scanned files)) file context).events = allEditEvents specs file := by
  induction specs generalizing file with
  | nil => rfl
  | cons spec rest ih =>
      rw [List.map_cons, transformFile, Logged.events_bind, events_transform h, value_transform h, allEditEvents]
      by_cases hsame : spec.applyTo file = file
      · rw [differing_eq_none_iff.mpr hsame, hsame]
        exact congrArg _ (ih h)
      · have hpath : (spec.applyTo file).path ∈ files.map SourceFile.path := by rwa [path_applyTo]
        rw [differing, if_neg hsame, ← ih hpath]
        exact congrArg _ (List.append_nil _)

theorem events_mapM_transformFile {ρ : Type} [Runnable ρ] (recipes : List ρ) (files : List SourceFile)
    (context : Context) (supply : IdSupply) :
    ((files.mapM fun file => do
      return Outcome.mk file (← transformFile recipes file context) : Session (List Outcome)).run supply).events =
      files.flatMap fun file => (transformFile recipes file context).events := by
  induction files generalizing supply with
  | nil => rfl
  | cons file rest ih =>
      have hfile : ((do
          return Outcome.mk file (← transformFile recipes file context) : Session Outcome).run supply).value =
          (⟨file, (transformFile recipes file context).value⟩, supply) := rfl
      rw [List.mapM_cons, Session.events_bind_of_value hfile,
        Session.events_bind_of_value (run_mapM_transformFile recipes rest context supply), ih, List.flatMap_cons,
        Session.events_bind_of_value (Session.value_run_lift _ supply), Session.events_run_lift]
      simp only [StateT.run_pure, Logged.events_pure, List.append_nil]

/-- What a cycle logs, given the number it has. -/
def cycleEvents (specs : List RecipeSpec) (number : UInt32) (sources : SourceSet) : List Event :=
  (sources.files.flatMap fun file => specs.flatMap (scanEvents file.path)) ++
    (.scanFinished sources.size :: generationEvents sources.paths specs ++
      (sources.files.flatMap (allEditEvents specs) ++ [.cycleFinished number (isBusy specs sources)]))

theorem events_cycle {specs : List RecipeSpec} {state : State ActiveRecipe}
    (h : state.recipes.map ActiveRecipe.spec = specs) (supply : IdSupply) :
    ((cycle state).run supply).events = cycleEvents specs (state.context.cycle + 1) state.sources := by
  obtain ⟨recipes, sources, context⟩ := state
  have hscan : (scanFiles (specs.map (scanned [])) sources.files context.advance).events =
      sources.files.flatMap fun file => specs.flatMap (scanEvents file.path) := by
    have hnodup : (([] ++ sources.files).map SourceFile.path).Nodup := sources.nodup
    exact events_scanFiles specs hnodup context.advance
  have hgenerate : ∀ after, ((generateFiles (specs.map (scanned sources.files)) [] after).run supply).events =
      generationEvents sources.paths specs := by
    intro after
    rw [events_generateFiles, List.map_nil, List.append_nil, SourceSet.paths]
  have hedit : ∀ after, (sources.files.flatMap fun file =>
      (transformFile (specs.map (scanned sources.files)) file after).events) =
      sources.files.flatMap (allEditEvents specs) := by
    intro after
    exact List.flatMap_congr fun file hfile =>
      events_transformFile specs sources.files (List.mem_map_of_mem hfile) after
  unfold cycle
  dsimp only
  rw [map_begin h, Session.events_bind_of_value (run_scanFiles specs sources.files context supply),
    Session.events_run_lift, hscan]
  dsimp only
  rw [Session.events_bind_of_value (Session.value_run_lift _ supply),
    Session.events_bind_of_value (run_generateFiles_nil specs sources.files _ supply), hgenerate]
  dsimp only
  rw [Session.events_bind_of_value (run_mapM_transformFile _ _ _ _), events_mapM_transformFile, hedit,
    Session.events_bind_of_value (Session.value_run_lift _ _), ← outcomes, any_changed_outcomes, isEmpty_created]
  rfl

/-! ### The events of a run -/

variable {specs : List RecipeSpec} {state : State ActiveRecipe}

theorem events_cycles_succ (h : state.recipes.map ActiveRecipe.spec = specs) (limit : Nat) (supply : IdSupply) :
    ((cycles (limit + 1) state).run supply).events =
      cycleEvents specs (state.context.cycle + 1) state.sources ++
        if isBusy specs state.sources = true then
          ((cycles limit (state.next specs supply)).run (supplyLeft specs state.sources supply)).events
        else [] := by
  rw [cycles, Session.events_bind_of_value (run_cycle h supply), events_cycle h]
  dsimp only
  split <;> rfl

/-- What cycles log that begin with the sets, numbered on from a number. -/
def passEvents (specs : List RecipeSpec) : (number : UInt32) → List SourceSet → List Event
  | _, [] => []
  | number, sources :: rest => cycleEvents specs (number + 1) sources ++ passEvents specs (number + 1) rest

theorem passEvents_congr {specs' : List RecipeSpec} {R : SourceSet → SourceSet → Prop}
    (hcycle : ∀ {a b}, R a b → ∀ number, cycleEvents specs number a = cycleEvents specs' number b)
    {sets sets' : List SourceSet} (h : List.Forall₂ R sets sets') (number : UInt32) :
    passEvents specs number sets = passEvents specs' number sets' := by
  induction h generalizing number with
  | nil => rfl
  | cons hhead _ ih => rw [passEvents, passEvents, hcycle hhead, ih]

theorem events_cycles (h : state.recipes.map ActiveRecipe.spec = specs) (limit : Nat) (supply : IdSupply) :
    ((cycles limit state).run supply).events =
      passEvents specs state.context.cycle (passes specs limit state.sources supply) := by
  induction limit generalizing state supply with
  | zero => rfl
  | succ limit ih =>
      rw [events_cycles_succ h, passes, passEvents]
      split
      · rw [ih (map_spec_next specs state supply)]
        rfl
      · rfl

theorem events_start_of_cycles {ρ : Type} [Runnable ρ] {limit : UInt32} {recipes : List ρ} {sources : SourceSet}
    {supply left : IdSupply} {final : State ρ}
    (h : ((cycles limit.toNat ⟨recipes, sources, {}⟩).run supply).value = (final, left)) :
    ((start limit recipes sources).run supply).events =
      .runStarted recipes.length sources.size limit ::
        (((cycles limit.toNat ⟨recipes, sources, {}⟩).run supply).events ++
          [.runFinished (Change.between sources final.sources).length final.context.cycle final.context.filesVisited]) := by
  unfold start
  rw [Session.events_bind_of_value (Session.value_run_lift _ supply), Session.events_bind_of_value h,
    Session.events_run_lift]
  rfl

/-- A run logs that it starts, then what its cycles log, and at last its result. -/
theorem events_start (specs : List RecipeSpec) (limit : UInt32) (sources : SourceSet) (supply : IdSupply)
    {result : RunResult} (h : ((start limit (specs.map RecipeSpec.active) sources).run supply).value.1 = result) :
    ((start limit (specs.map RecipeSpec.active) sources).run supply).events =
      .runStarted specs.length sources.size limit ::
        (passEvents specs 0 (passes specs limit.toNat sources supply) ++
          [.runFinished result.changes.length result.cyclesRun
            ((passes specs limit.toNat sources supply).map SourceSet.size).sum]) := by
  have hcontext := context_cycles (map_spec_start specs sources) limit.toNat supply
  rw [Nat.zero_add] at hcontext
  rw [events_start_of_cycles rfl, events_cycles (map_spec_start specs sources), hcontext, List.length_map, ← h,
    value_start rfl, hcontext]

end Run

end SourceRecipes
