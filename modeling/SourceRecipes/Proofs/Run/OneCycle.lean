import SourceRecipes.Proofs.Run.Phases
import SourceRecipes.Proofs.SourceSet
import SourceRecipes.Run.Execute

/-!
# One cycle

A cycle does what its recipes ask for, whatever cycles came before it: the set it ends with is `nextSources`, and it is quiet
if no recipe creates a file and no file gets another fingerprint.
-/

namespace SourceRecipes

theorem Session.run_bind_of_value {α β : Type} {x : Session α} {f : α → Session β} {supply left : IdSupply} {a : α}
    (h : (x.run supply).value = (a, left)) : ((x >>= f).run supply).value = ((f a).run left).value := by
  rw [StateT.run_bind, Logged.value_bind, h]

theorem Session.value_run_lift {α : Type} (x : Logged α) (supply : IdSupply) :
    ((liftM x : Session α).run supply).value = (x.value, supply) := rfl

namespace Run

open RecipeSpec

/-! ### The scan -/

theorem map_begin {specs : List RecipeSpec} {recipes : List ActiveRecipe}
    (h : recipes.map ActiveRecipe.spec = specs) (context : Context) :
    (recipes.map fun r => Runnable.begin r context) = specs.map (scanned []) := by
  rw [← h, List.map_map]
  exact List.map_congr_left fun r _ => begin_eq_scanned r context

theorem value_mapM_scan (specs : List RecipeSpec) (seen : List SourceFile) (file : SourceFile) (context : Context) :
    ((specs.map (scanned seen)).mapM fun r => Runnable.scan r file context).value =
      specs.map (scanned (seen ++ [file])) := by
  rw [Logged.value_mapM, List.map_map]
  exact List.map_congr_left fun spec _ => spec.value_scan seen file context

theorem value_scanFiles (specs : List RecipeSpec) (seen files : List SourceFile) (context : Context) :
    (scanFiles (specs.map (scanned seen)) files context).value =
      (specs.map (scanned (seen ++ files)), { context with filesVisited := context.filesVisited + files.length }) := by
  induction files generalizing seen context with
  | nil => rw [List.append_nil]; rfl
  | cons file rest ih =>
      rw [scanFiles, Logged.value_bind, value_mapM_scan, ih, List.append_assoc, List.singleton_append]
      simp only [Context.countVisit, List.length_cons, Prod.mk.injEq, Context.mk.injEq, true_and]
      omega

/-- The scan of a cycle shows every recipe all files. -/
theorem run_scanFiles (specs : List RecipeSpec) (files : List SourceFile) (context : Context) (supply : IdSupply) :
    ((liftM (scanFiles (specs.map (scanned [])) files context.advance) :
      Session (List ActiveRecipe × Context)).run supply).value =
      ((specs.map (scanned files), ⟨context.cycle + 1, context.filesVisited + files.length⟩), supply) := by
  rw [Session.value_run_lift, value_scanFiles]
  rfl

/-! ### The generation -/

theorem run_generateFiles_cons {ρ : Type} [Runnable ρ] {r after : ρ} {rest : List ρ} {seen made : List SourceFile}
    {context : Context} {supply left : IdSupply}
    (h : ((Runnable.generate r seen context).run supply).value = ((made, after), left)) :
    ((generateFiles (r :: rest) seen context).run supply).value =
      ((((generateFiles rest (seen ++ made) context).run left).value.1.1,
        after :: ((generateFiles rest (seen ++ made) context).run left).value.1.2),
        ((generateFiles rest (seen ++ made) context).run left).value.2) := by
  rw [generateFiles]
  simp only [StateT.run_bind, Logged.value_bind, h]
  split <;> rfl

/-- The recipes generate what they are to create, behind what is there already, and stay as they are. -/
theorem run_generateFiles (specs : List RecipeSpec) (files seen : List SourceFile) (context : Context)
    (supply : IdSupply) :
    ((generateFiles (specs.map (scanned files)) seen context).run supply).value =
      ((seen ++ created supply (creators (files.map SourceFile.path ++ seen.map SourceFile.path) specs),
        specs.map (scanned files)),
        ⟨supply.next + (creators (files.map SourceFile.path ++ seen.map SourceFile.path) specs).length⟩) := by
  induction specs generalizing seen supply with
  | nil =>
      simp only [creators, created, List.append_nil]
      rfl
  | cons spec rest ih =>
      cases spec with
      | changeXmlAttribute r =>
          have hgenerate : ((Runnable.generate ((RecipeSpec.changeXmlAttribute r).scanned files) seen context).run
              supply).value = (([], (RecipeSpec.changeXmlAttribute r).scanned files), supply) := rfl
          rw [List.map_cons, run_generateFiles_cons hgenerate, List.append_nil, ih, creators]
      | appendToTextFile r =>
          have hgenerate := run_generate r files seen context supply
          rw [List.map_cons, creators]
          by_cases htaken : r.relativeFileName ∈ files.map SourceFile.path ++ seen.map SourceFile.path
          · rw [if_pos htaken] at hgenerate ⊢
            rw [run_generateFiles_cons hgenerate, List.append_nil, ih]
          · rw [if_neg htaken] at hgenerate ⊢
            rw [run_generateFiles_cons hgenerate, ih]
            simp only [List.map_append, List.append_assoc, created, List.length_cons, List.singleton_append,
              List.map_cons, List.map_nil, Prod.mk.injEq, true_and, IdSupply.mk.injEq, IdSupply.draw, SourceFile.path]
            omega

theorem run_generateFiles_nil (specs : List RecipeSpec) (files : List SourceFile) (context : Context)
    (supply : IdSupply) :
    ((generateFiles (specs.map (scanned files)) [] context).run supply).value =
      ((created supply (creators (files.map SourceFile.path) specs), specs.map (scanned files)),
        ⟨supply.next + (creators (files.map SourceFile.path) specs).length⟩) := by
  rw [run_generateFiles, List.map_nil, List.append_nil, List.nil_append]

/-! ### The edits -/

theorem getD_value_transformFile (specs : List RecipeSpec) (files : List SourceFile) {file : SourceFile}
    (h : file.path ∈ files.map SourceFile.path) (context : Context) :
    (transformFile (specs.map (scanned files)) file context).value.getD file = applyAll specs file := by
  induction specs generalizing file with
  | nil => rfl
  | cons spec rest ih =>
      rw [List.map_cons, transformFile, Logged.value_bind, value_transform h, applyAll_cons]
      by_cases hsame : spec.applyTo file = file
      · rw [differing_eq_none_iff.mpr hsame, hsame]
        exact ih h
      · rw [differing, if_neg hsame]
        exact ih (by rwa [path_applyTo])

theorem Outcome.changed_eq (o : Outcome) : o.changed = decide (o.after.fingerprint ≠ o.before.fingerprint) := by
  obtain ⟨before, edited⟩ := o
  cases edited with
  | none => exact (decide_eq_false (not_not.mpr rfl)).symm
  | some file => rfl

theorem run_mapM_transformFile {ρ : Type} [Runnable ρ] (recipes : List ρ) (files : List SourceFile)
    (context : Context) (supply : IdSupply) :
    ((files.mapM fun file => do
      return Outcome.mk file (← transformFile recipes file context) : Session (List Outcome)).run supply).value =
      (files.map fun file => ⟨file, (transformFile recipes file context).value⟩, supply) := by
  induction files generalizing supply with
  | nil => rfl
  | cons file rest ih =>
      rw [List.mapM_cons, StateT.run_bind, Logged.value_bind, StateT.run_bind, Logged.value_bind]
      have hfile : ((do
          return Outcome.mk file (← transformFile recipes file context) : Session Outcome).run supply).value =
          (⟨file, (transformFile recipes file context).value⟩, supply) := rfl
      rw [hfile, ih]
      rfl

/-! ### The cycle -/

/-- Whether a cycle creates a file or gives one another fingerprint. -/
def isBusy (specs : List RecipeSpec) (sources : SourceSet) : Bool :=
  !(creators sources.paths specs).isEmpty ||
    sources.files.any fun file => (applyAll specs file).fingerprint ≠ file.fingerprint

/-- What commutes with the recipes and keeps fingerprints does not tell which files get another one. -/
theorem any_fingerprint_ne_comm {f : SourceFile → SourceFile}
    (hcomm : ∀ spec file, f (applyTo spec file) = applyTo spec (f file))
    (hfingerprint : ∀ file, (f file).fingerprint = file.fingerprint) (specs : List RecipeSpec)
    (files : List SourceFile) :
    ((files.map f).any fun file => (applyAll specs file).fingerprint ≠ file.fingerprint) =
      files.any fun file => (applyAll specs file).fingerprint ≠ file.fingerprint := by
  simp only [List.any_map, Function.comp_def, ← applyAll_comm hcomm, hfingerprint]

/-- The state that a cycle leaves: the recipes have seen the files, the sources are those the recipes ask for, and every
file was visited. -/
def State.next (specs : List RecipeSpec) (state : State ActiveRecipe) (supply : IdSupply) : State ActiveRecipe where
  recipes := specs.map (scanned state.sources.files)
  sources := nextSources specs state.sources supply
  context := ⟨state.context.cycle + 1, state.context.filesVisited + state.sources.files.length⟩

/-- The supply that a cycle leaves: an identity was drawn for every file created. -/
def supplyLeft (specs : List RecipeSpec) (sources : SourceSet) (supply : IdSupply) : IdSupply :=
  ⟨supply.next + (creators sources.paths specs).length⟩

def outcomes (specs : List RecipeSpec) (files : List SourceFile) (context : Context) : List Outcome :=
  files.map fun file => ⟨file, (transformFile (specs.map (scanned files)) file context).value⟩

theorem after_of_mem {specs : List RecipeSpec} {files : List SourceFile} {file : SourceFile} (h : file ∈ files)
    (context : Context) :
    Outcome.after ⟨file, (transformFile (specs.map (scanned files)) file context).value⟩ = applyAll specs file :=
  getD_value_transformFile specs files (List.mem_map_of_mem h) context

theorem map_after_outcomes (specs : List RecipeSpec) (files : List SourceFile) (context : Context) :
    (outcomes specs files context).map Outcome.after = files.map (applyAll specs) := by
  rw [outcomes, List.map_map]
  exact List.map_congr_left fun file hfile => after_of_mem hfile context

theorem any_changed_outcomes (specs : List RecipeSpec) (files : List SourceFile) (context : Context) :
    (outcomes specs files context).any Outcome.changed =
      files.any fun file => (applyAll specs file).fingerprint ≠ file.fingerprint := by
  rw [outcomes, List.any_map, Bool.eq_iff_iff, List.any_eq_true, List.any_eq_true]
  refine exists_congr fun file => and_congr_right fun hfile => ?_
  rw [Function.comp_apply, Outcome.changed_eq, after_of_mem hfile]

theorem extend_ofList_eq_nextSources (specs : List RecipeSpec) (sources : SourceSet) (supply : IdSupply) :
    (SourceSet.ofList (sources.files.map (applyAll specs))).extend (created supply (creators sources.paths specs)) =
      nextSources specs sources supply := by
  have hedited : (SourceSet.ofList (sources.files.map (applyAll specs))).files = sources.files.map (applyAll specs) :=
    SourceSet.files_ofList (by rw [map_path_applyAll]; exact sources.nodup)
  apply SourceSet.ext_files
  rw [SourceSet.files_extend, hedited]
  · rfl
  · rw [hedited]
    exact nodup_nextSources specs sources supply

/-- A cycle does this from any state, whatever cycles came before it. -/
theorem run_cycle {specs : List RecipeSpec} {state : State ActiveRecipe}
    (h : state.recipes.map ActiveRecipe.spec = specs) (supply : IdSupply) :
    ((cycle state).run supply).value =
      ((state.next specs supply, isBusy specs state.sources), supplyLeft specs state.sources supply) := by
  obtain ⟨recipes, sources, context⟩ := state
  unfold cycle
  dsimp only
  rw [map_begin h, Session.run_bind_of_value (run_scanFiles specs sources.files context supply)]
  dsimp only
  rw [Session.run_bind_of_value (Session.value_run_lift _ supply),
    Session.run_bind_of_value (run_generateFiles_nil specs sources.files _ supply)]
  dsimp only
  rw [Session.run_bind_of_value (run_mapM_transformFile _ _ _ _),
    Session.run_bind_of_value (Session.value_run_lift _ _), ← outcomes, map_after_outcomes, any_changed_outcomes]
  have hsources := extend_ofList_eq_nextSources specs sources supply
  rw [SourceSet.paths] at hsources
  rw [hsources, isEmpty_created]
  rfl

theorem map_spec_next (specs : List RecipeSpec) (state : State ActiveRecipe) (supply : IdSupply) :
    (state.next specs supply).recipes.map ActiveRecipe.spec = specs := by
  rw [State.next, List.map_map]
  exact List.map_id'' (spec_scanned state.sources.files) specs

theorem map_spec_active (specs : List RecipeSpec) :
    (specs.map RecipeSpec.active).map ActiveRecipe.spec = specs := by
  rw [List.map_map]
  exact List.map_id'' spec_active specs

/-- The recipes that a run begins with are those it was given. -/
theorem map_spec_start (specs : List RecipeSpec) (sources : SourceSet) :
    (⟨specs.map RecipeSpec.active, sources, {}⟩ : State ActiveRecipe).recipes.map ActiveRecipe.spec = specs :=
  map_spec_active specs

theorem run_cycles_succ {specs : List RecipeSpec} {state : State ActiveRecipe}
    (h : state.recipes.map ActiveRecipe.spec = specs) (limit : Nat) (supply : IdSupply) :
    ((cycles (limit + 1) state).run supply).value =
      if isBusy specs state.sources = true then
        ((cycles limit (state.next specs supply)).run (supplyLeft specs state.sources supply)).value
      else (state.next specs supply, supplyLeft specs state.sources supply) := by
  rw [cycles, Session.run_bind_of_value (run_cycle h supply)]
  dsimp only
  split <;> rfl

/-! ### Runs -/

theorem value_start {ρ : Type} [Runnable ρ] {limit : UInt32} {recipes : List ρ} {sources : SourceSet}
    {supply left : IdSupply} {final : State ρ}
    (h : ((cycles limit.toNat ⟨recipes, sources, {}⟩).run supply).value = (final, left)) :
    ((start limit recipes sources).run supply).value =
      (⟨Change.between sources final.sources, final.sources, final.context.cycle⟩, left) := by
  unfold start
  rw [Session.run_bind_of_value (Session.value_run_lift _ supply), Session.run_bind_of_value h]
  rfl

theorem run_eq_ok {ρ : Type} [Runnable ρ] {limit : UInt32} {recipes : List ρ} (sources : SourceSet) (hlimit : limit ≠ 0)
    (h : ∀ r ∈ recipes, limit ≤ Runnable.maxCycles r) :
    run limit recipes sources = .ok (start limit recipes sources) := by
  have hnone : recipes.find? (fun r => Runnable.maxCycles r < limit) = none := by
    rw [List.find?_eq_none]
    intro r hr
    rw [decide_eq_true_eq, UInt32.not_lt]
    exact h r hr
  rw [run, mayBegin, if_neg hlimit, hnone]
  rfl

/-- A run of one cycle does what the recipes ask for. Every file that was there keeps its place and goes through all recipes;
behind them every missing target is created by the first recipe that names it. -/
theorem run_one_cycle (specs : List RecipeSpec) (sources : SourceSet) :
    (∃ session, run 1 (specs.map RecipeSpec.active) sources = .ok session ∧ ∀ supply,
      (session.run supply).value.1.sources.files =
        sources.files.map (applyAll specs) ++ created supply (creators sources.paths specs)) ∧
    ∀ r, r ∈ creators sources.paths specs ↔ IsFirst sources.paths specs r := by
  refine ⟨⟨start 1 (specs.map RecipeSpec.active) sources, run_eq_ok sources (by decide) ?_, fun supply => ?_⟩,
    fun r => mem_creators_iff⟩
  · intro r hr
    obtain ⟨spec, -, rfl⟩ := List.mem_map.mp hr
    cases spec with
    | changeXmlAttribute recipe => exact (by decide : (1 : UInt32) ≤ ChangeXmlAttribute.info.maxCycles)
    | appendToTextFile recipe => exact (by decide : (1 : UInt32) ≤ AppendToTextFile.info.maxCycles)
  · have hcycles : ((cycles (UInt32.toNat 1) ⟨specs.map RecipeSpec.active, sources, {}⟩).run supply).value =
        (State.next specs ⟨specs.map RecipeSpec.active, sources, {}⟩ supply, supplyLeft specs sources supply) := by
      have hone : UInt32.toNat 1 = 0 + 1 := rfl
      rw [hone, run_cycles_succ (map_spec_active specs)]
      split <;> rfl
    rw [value_start hcycles]
    rfl

end Run

end SourceRecipes
