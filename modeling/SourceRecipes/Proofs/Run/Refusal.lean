import SourceRecipes.Proofs.Recipe.Usability
import SourceRecipes.Proofs.Run.Admission
import SourceRecipes.Proofs.Run.Events
import SourceRecipes.Run.Load

/-!
# When a run is refused

Three checks stand before a run. The options of every recipe must be usable, there must be a cycle to run, and a recipe
that writes a text file takes part in one cycle only. `IsRefused` says for each of them what it finds, without saying how it
looks for it: the checks come in this order, and of several recipes with unusable options the first one is named. A run
that is refused logs nothing and draws no identity, whatever its recipes would do. The logging itself is set up between the
first check and the second.
-/

namespace SourceRecipes

open RecipeSpec

namespace RunConfig

/-! ### Validation -/

theorem validate_eq_error_iff (config : RunConfig) (cause : InvalidOptions) :
    config.validate = .error cause ↔ ∃ before r after,
      config.recipes = before ++ .changeXmlAttribute r :: after ∧ (∀ spec ∈ before, spec.IsUsable) ∧
        r.HasBlankName ∧ cause = ⟨ChangeXmlAttribute.info.name, r.complaints⟩ := by
  have hfind : ∀ spec, config.recipes.find? (fun spec => !spec.problems.isEmpty) = some spec ↔
      spec.problems ≠ [] ∧ ∃ before after, config.recipes = before ++ spec :: after ∧ ∀ s ∈ before, s.IsUsable := by
    intro spec
    simp only [List.find?_eq_some_iff_append, isUsable_iff, Bool.not_eq_true', List.isEmpty_eq_false_iff, ne_eq,
      Bool.not_not, List.isEmpty_iff]
  rw [validate]
  constructor
  · intro h
    cases hspec : config.recipes.find? fun spec => !spec.problems.isEmpty with
    | none =>
        rw [hspec] at h
        nomatch h
    | some spec =>
        rw [hspec] at h
        obtain ⟨hproblems, before, after, hrecipes, hbefore⟩ := (hfind spec).mp hspec
        obtain ⟨r, rfl, hblank⟩ := (problems_ne_nil_iff spec).mp hproblems
        refine ⟨before, r, after, hrecipes, hbefore, hblank, ?_⟩
        rw [← problems_changeXmlAttribute]
        exact (Except.error.inj h).symm
  · rintro ⟨before, r, after, hrecipes, hbefore, hblank, rfl⟩
    have hspec := (hfind (.changeXmlAttribute r)).mpr
      ⟨(problems_ne_nil_iff _).mpr ⟨r, rfl, hblank⟩, before, after, hrecipes, hbefore⟩
    rw [hspec]
    dsimp only
    rw [problems_changeXmlAttribute]
    rfl

theorem validate_eq_ok_iff (config : RunConfig) : config.validate = .ok () ↔ ∀ spec ∈ config.recipes, spec.IsUsable := by
  have hnone : config.validate = .ok () ↔ config.recipes.find? (fun spec => !spec.problems.isEmpty) = none := by
    rw [validate]
    cases config.recipes.find? fun spec => !spec.problems.isEmpty <;> simp
  simp only [hnone, List.find?_eq_none, isUsable_iff, Bool.not_eq_true', List.isEmpty_eq_false_iff, ne_eq, not_not]

/-! ### Refusals -/

/-- The causes for which a run is refused. -/
inductive IsRefused (config : RunConfig) : RunError → Prop
  | options {before : List RecipeSpec} {r : ChangeXmlAttribute} {after : List RecipeSpec}
      (hrecipes : config.recipes = before ++ .changeXmlAttribute r :: after) (hbefore : ∀ spec ∈ before, spec.IsUsable)
      (hblank : r.HasBlankName) : IsRefused config (.config ⟨"change_xml_attribute", r.complaints⟩)
  | noCycles (husable : ∀ spec ∈ config.recipes, spec.IsUsable) (hcycles : config.cycles = 0) :
      IsRefused config .noCycles
  | cycleLimit {r : AppendToTextFile} (husable : ∀ spec ∈ config.recipes, spec.IsUsable) (hcycles : 1 < config.cycles)
      (hr : .appendToTextFile r ∈ config.recipes) :
      IsRefused config (.cycleLimitExceeded "append_to_text_file" config.cycles 1)

/-- The run of a configuration with other recipes in the place of its own, which are the ones that it checks. -/
def executeWith {ρ : Type} [Runnable ρ] (config : RunConfig) (recipes : List ρ) (sources : SourceSet) :
    Except RunError (Session RunResult) :=
  match config.validate with
  | .error cause => .error (.config cause)
  | .ok () => run config.cycles recipes sources

end RunConfig

namespace Run

/-- What is asked of recipes before a run: how they are called, and in how many cycles they may take part. -/
def credentials {ρ : Type} [Runnable ρ] (r : ρ) : String × UInt32 :=
  (Runnable.name r, Runnable.maxCycles r)

theorem mayBegin_eq_find_credentials {ρ : Type} [Runnable ρ] (limit : UInt32) (recipes : List ρ) :
    mayBegin limit recipes =
      if limit = 0 then .error .noCycles
      else
        match (recipes.map credentials).find? fun c => c.2 < limit with
        | none => .ok ()
        | some c => .error (.cycleLimitExceeded c.1 limit c.2) := by
  have hfind : recipes.find? ((fun c : String × UInt32 => decide (c.2 < limit)) ∘ credentials) =
      recipes.find? fun r => Runnable.maxCycles r < limit := rfl
  rw [mayBegin, List.find?_map, hfind]
  cases recipes.find? fun r => Runnable.maxCycles r < limit <;> rfl

/-- A run that may be refused, as one session: a refusal is a value that it has at once. -/
def settled (outcome : Except RunError (Session RunResult)) : Session (Except RunError RunResult) :=
  match outcome with
  | .error cause => return .error cause
  | .ok session => return .ok (← session)

end Run

namespace RunConfig

open Run

variable {ρ : Type} [Runnable ρ] {config : RunConfig} {recipes : List ρ}

theorem executeWith_eq_map_start (h : recipes.map credentials = config.activeRecipes.map credentials)
    (sources : SourceSet) (husable : ∀ spec ∈ config.recipes, spec.IsUsable) :
    config.executeWith recipes sources =
      (if config.cycles = 0 then .error .noCycles
        else if config.recipes.any fun spec => spec.info.maxCycles < config.cycles then
          .error (.cycleLimitExceeded "append_to_text_file" config.cycles 1)
        else .ok () : Except RunError Unit).map fun _ => start config.cycles recipes sources := by
  have hbegin : mayBegin config.cycles recipes = mayBegin config.cycles config.activeRecipes := by
    rw [mayBegin_eq_find_credentials, mayBegin_eq_find_credentials, h]
  rw [executeWith, (validate_eq_ok_iff config).mpr husable]
  dsimp only
  rw [run_eq_map_start, hbegin, activeRecipes, mayBegin_active]
  rfl

theorem executeWith_of_isRefused (h : recipes.map credentials = config.activeRecipes.map credentials)
    (sources : SourceSet) {cause : RunError} (hcause : config.IsRefused cause) :
    config.executeWith recipes sources = .error cause := by
  cases hcause with
  | options hrecipes hbefore hblank =>
      have hvalidate := (validate_eq_error_iff config _).mpr ⟨_, _, _, hrecipes, hbefore, hblank, rfl⟩
      rw [executeWith, hvalidate]
      rfl
  | noCycles husable hcycles =>
      rw [executeWith_eq_map_start h sources husable, if_pos hcycles]
      rfl
  | cycleLimit husable hcycles hr =>
      have hzero : config.cycles ≠ 0 := by
        rintro hzero
        rw [hzero] at hcycles
        exact absurd hcycles (by decide)
      rw [executeWith_eq_map_start h sources husable, if_neg hzero, if_pos ((any_exceeds_iff _).mpr ⟨hcycles, _, hr⟩)]
      rfl

theorem executeWith_of_not_isRefused (h : recipes.map credentials = config.activeRecipes.map credentials)
    (sources : SourceSet) (hnone : ∀ cause, ¬ config.IsRefused cause) :
    config.executeWith recipes sources = .ok (start config.cycles recipes sources) := by
  have husable : ∀ spec ∈ config.recipes, spec.IsUsable := by
    rw [← validate_eq_ok_iff]
    cases hvalidate : config.validate with
    | ok _ => rfl
    | error cause =>
        obtain ⟨before, r, after, hrecipes, hbefore, hblank, -⟩ := (validate_eq_error_iff config cause).mp hvalidate
        exact absurd (.options hrecipes hbefore hblank) (hnone _)
  have hzero : config.cycles ≠ 0 := fun hcycles => hnone _ (.noCycles husable hcycles)
  have hany : ¬ (config.recipes.any fun spec => spec.info.maxCycles < config.cycles) = true := by
    rw [any_exceeds_iff]
    rintro ⟨hcycles, r, hr⟩
    exact hnone _ (.cycleLimit husable hcycles hr)
  rw [executeWith_eq_map_start h sources husable, if_neg hzero, if_neg hany]
  rfl

theorem executeWith_eq_error_iff (h : recipes.map credentials = config.activeRecipes.map credentials)
    (sources : SourceSet) (cause : RunError) :
    config.executeWith recipes sources = .error cause ↔ config.IsRefused cause := by
  refine ⟨fun herror => ?_, executeWith_of_isRefused h sources⟩
  by_cases hrefused : ∃ other, config.IsRefused other
  · obtain ⟨other, hother⟩ := hrefused
    rw [executeWith_of_isRefused h sources hother] at herror
    exact Except.error.inj herror ▸ hother
  · rw [executeWith_of_not_isRefused h sources (not_exists.mp hrefused)] at herror
    nomatch herror

/-- How a process logs once it was asked for a run: as it did if the options of a recipe cannot be used, for that is found out
before the logging is set up, and else by the configuration unless it was set up already. -/
def loggingAfter (config : RunConfig) (logging : Option LogConfig) : Option LogConfig :=
  if config.validate.isOk then logging.or (some config.logging) else logging

/-- Taking the steps one by one comes to the same as deciding on the run and then taking it. -/
theorem run_attemptWith (config : RunConfig) (recipes : List ρ) (sources : SourceSet) (logging : Option LogConfig) :
    (config.attemptWith recipes sources).run.run logging =
      (·, config.loggingAfter logging) <$> settled (config.executeWith recipes sources) := by
  rw [attemptWith, executeWith, loggingAfter]
  cases config.validate with
  | error cause => rfl
  | ok _ =>
      dsimp only
      rw [run_eq_map_start]
      cases mayBegin config.cycles recipes <;> rfl

theorem run_attemptWith_of_isRefused (h : recipes.map credentials = config.activeRecipes.map credentials)
    (sources : SourceSet) {cause : RunError} (hcause : config.IsRefused cause) (logging : Option LogConfig)
    (supply : IdSupply) :
    ((config.attemptWith recipes sources).run.run logging).run supply =
      ⟨((.error cause, config.loggingAfter logging), supply), []⟩ := by
  rw [run_attemptWith, executeWith_of_isRefused h sources hcause]
  rfl

/-- An admitted run at least says that it starts. -/
theorem events_attempt_ne_nil (sources : SourceSet) (hnone : ∀ cause, ¬ config.IsRefused cause)
    (logging : Option LogConfig) (supply : IdSupply) :
    (((config.attempt sources).run.run logging).run supply).events ≠ [] := by
  have hevents : ((settled (.ok (start config.cycles config.activeRecipes sources))).run supply).events =
      ((start config.cycles config.activeRecipes sources).run supply).events := List.append_nil _
  have hlogging : (((config.attempt sources).run.run logging).run supply).events =
      ((settled (.ok (start config.cycles config.activeRecipes sources))).run supply).events := by
    rw [attempt, run_attemptWith, executeWith_of_not_isRefused rfl sources hnone]
    exact List.append_nil _
  rw [hlogging, hevents, events_start_of_cycles rfl]
  exact List.cons_ne_nil _ _

/-- A configuration that was read from a text has no unusable options. -/
theorem validate_of_loaded {text : String} (h : ofJson text = .ok config ∨ ofYaml text = .ok config) :
    config.validate = .ok () := by
  have hchecked : ∀ read : RunConfig, read.checked = .ok config → config.validate = .ok () := by
    intro read hread
    rw [checked] at hread
    cases hvalidate : read.validate with
    | error cause =>
        rw [hvalidate] at hread
        nomatch hread
    | ok _ =>
        rw [hvalidate] at hread
        exact Except.ok.inj hread ▸ hvalidate
  rcases h with h | h
  · rw [ofJson] at h
    split at h
    · nomatch h
    · exact hchecked _ h
  · rw [ofYaml] at h
    split at h
    · nomatch h
    · exact hchecked _ h

/-- A run of a configuration is refused for these causes and no others, and is the run of its cycles else. If its steps are taken
one by one, the outcome is the same, and nothing is logged exactly when it is refused. Recipes that are called the same
and may take part in as many cycles, whatever their phases do, are refused alike over any files, with nothing logged and no
identity drawn: all that may be left is that the logging of the process is set up. If the configuration was read from a text, its
options are never the cause. -/
theorem execute_refusals (config : RunConfig) (sources : SourceSet) :
    (∀ cause, config.execute sources = .error cause ↔ config.IsRefused cause) ∧
    ((∀ cause, ¬ config.IsRefused cause) →
      config.execute sources = .ok (start config.cycles config.activeRecipes sources)) ∧
    (∀ logging, (config.attempt sources).run.run logging =
      (·, config.loggingAfter logging) <$> settled (config.execute sources)) ∧
    (∀ logging supply, (((config.attempt sources).run.run logging).run supply).events = [] ↔
      ∃ cause, config.IsRefused cause) ∧
    (∀ cause, config.IsRefused cause → ∀ (ρ : Type) [Runnable ρ] (recipes : List ρ) (others : SourceSet),
      recipes.map credentials = config.activeRecipes.map credentials →
        config.executeWith recipes others = .error cause ∧
        ∀ logging supply, ((config.attemptWith recipes others).run.run logging).run supply =
          ⟨((.error cause, config.loggingAfter logging), supply), []⟩) ∧
    ∀ text, ofJson text = .ok config ∨ ofYaml text = .ok config → ∀ cause, config.IsRefused cause →
      cause = .noCycles ∨ cause = .cycleLimitExceeded "append_to_text_file" config.cycles 1 := by
  refine ⟨executeWith_eq_error_iff rfl sources, executeWith_of_not_isRefused rfl sources,
    run_attemptWith config config.activeRecipes sources, fun logging supply => ⟨?_, ?_⟩, ?_, ?_⟩
  · intro hsilent
    by_contra hnone
    exact events_attempt_ne_nil sources (not_exists.mp hnone) logging supply hsilent
  · rintro ⟨cause, hcause⟩
    rw [attempt, run_attemptWith_of_isRefused rfl sources hcause]
  · intro cause hcause ρ _ recipes others h
    exact ⟨executeWith_of_isRefused h others hcause, run_attemptWith_of_isRefused h others hcause⟩
  · intro text htext cause hcause
    have husable := (validate_eq_ok_iff config).mp (validate_of_loaded htext)
    cases hcause with
    | options hrecipes _ hblank =>
        exact absurd hblank (husable _ (hrecipes ▸ List.mem_append_right _ List.mem_cons_self) _ rfl)
    | noCycles _ _ => exact Or.inl rfl
    | cycleLimit _ _ _ => exact Or.inr rfl

example : IsRefused
    ⟨0, {}, [.changeXmlAttribute ⟨"bean", "class", none, "x"⟩, .changeXmlAttribute ⟨"bean", "\t", none, "x"⟩,
      .changeXmlAttribute ⟨"", "", none, "x"⟩]⟩
    (.config ⟨"change_xml_attribute", ["attributeName must not be empty"]⟩) :=
  @IsRefused.options _ [.changeXmlAttribute ⟨"bean", "class", none, "x"⟩] ⟨"bean", "\t", none, "x"⟩ _ rfl
    (by decide) (by decide)

end RunConfig

end SourceRecipes
