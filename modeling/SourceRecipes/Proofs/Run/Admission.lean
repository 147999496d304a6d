import SourceRecipes.Proofs.Run.OneCycle

/-!
# Which runs are admitted

A run is refused without cycles, and beyond one cycle if some recipe writes a text file. All refusals of the second kind are
the same, whichever of these recipes comes first. An admitted run is the run of its cycles.
-/

namespace SourceRecipes.Run

open RecipeSpec

theorem run_eq_map_start {ρ : Type} [Runnable ρ] (limit : UInt32) (recipes : List ρ) (sources : SourceSet) :
    run limit recipes sources = (mayBegin limit recipes).map fun _ => start limit recipes sources := by
  rw [run]
  cases mayBegin limit recipes <;> rfl

theorem eq_start_of_run_eq_ok {ρ : Type} [Runnable ρ] {limit : UInt32} {recipes : List ρ} {sources : SourceSet}
    {session : Session RunResult} (h : run limit recipes sources = .ok session) :
    session = start limit recipes sources := by
  rw [run_eq_map_start] at h
  cases hbegin : mayBegin limit recipes with
  | error cause =>
      rw [hbegin] at h
      nomatch h
  | ok _ =>
      rw [hbegin] at h
      exact (Except.ok.inj h).symm

theorem maxCycles_active (spec : RecipeSpec) : Runnable.maxCycles spec.active = spec.info.maxCycles := by
  cases spec <;> rfl

theorem not_maxCycles_changeXmlAttribute_lt (limit : UInt32) : ¬ ChangeXmlAttribute.info.maxCycles < limit := by
  have hmax : ChangeXmlAttribute.info.maxCycles.toNat = 4294967295 := rfl
  have hbound := limit.toNat_lt
  rw [UInt32.lt_iff_toNat_lt]
  omega

/-- Only recipes that write a text file are ever named in a refusal. -/
theorem mayBegin_active (limit : UInt32) (specs : List RecipeSpec) :
    mayBegin limit (specs.map RecipeSpec.active) =
      if limit = 0 then .error .noCycles
      else if specs.any fun spec => spec.info.maxCycles < limit then
        .error (.cycleLimitExceeded AppendToTextFile.info.name limit AppendToTextFile.info.maxCycles)
      else .ok () := by
  rw [mayBegin]
  by_cases hzero : limit = 0
  · rw [if_pos hzero, if_pos hzero]
  · rw [if_neg hzero, if_neg hzero]
    cases hfind : (specs.map RecipeSpec.active).find? fun r => Runnable.maxCycles r < limit with
    | none =>
        have hnone : specs.any (fun spec => spec.info.maxCycles < limit) = false := by
          rw [List.any_eq_false]
          intro spec hspec
          rw [← maxCycles_active]
          exact List.find?_eq_none.mp hfind _ (List.mem_map_of_mem hspec)
        rw [if_neg (Bool.eq_false_iff.mp hnone)]
    | some r =>
        obtain ⟨spec, hspec, rfl⟩ := List.mem_map.mp (List.mem_of_find?_eq_some hfind)
        have hexceeds := List.find?_some hfind
        have hsome : specs.any (fun spec => spec.info.maxCycles < limit) = true := by
          rw [List.any_eq_true]
          refine ⟨spec, hspec, ?_⟩
          rw [← maxCycles_active]
          exact hexceeds
        rw [if_pos hsome]
        -- A rewrite may take part in every cycle there can be, so the recipe found writes a text file.
        cases spec with
        | changeXmlAttribute r => exact absurd (of_decide_eq_true hexceeds) (not_maxCycles_changeXmlAttribute_lt limit)
        | appendToTextFile r => rfl

theorem any_exceeds_iff {limit : UInt32} (specs : List RecipeSpec) :
    (specs.any fun spec => spec.info.maxCycles < limit) = true ↔ 1 < limit ∧ ∃ r, .appendToTextFile r ∈ specs := by
  rw [List.any_eq_true]
  constructor
  · rintro ⟨spec, hspec, hexceeds⟩
    cases spec with
    | changeXmlAttribute r => exact absurd (of_decide_eq_true hexceeds) (not_maxCycles_changeXmlAttribute_lt limit)
    | appendToTextFile r => exact ⟨of_decide_eq_true hexceeds, r, hspec⟩
  · rintro ⟨hlimit, r, hr⟩
    exact ⟨_, hr, decide_eq_true hlimit⟩

theorem admitted_of_run_eq_ok {limit : UInt32} {specs : List RecipeSpec} {sources : SourceSet}
    {session : Session RunResult} (h : run limit (specs.map RecipeSpec.active) sources = .ok session) :
    limit ≠ 0 ∧ (limit = 1 ∨ ∀ r, .appendToTextFile r ∉ specs) := by
  rw [run_eq_map_start, mayBegin_active] at h
  by_cases hzero : limit = 0
  · rw [if_pos hzero] at h
    nomatch h
  · refine ⟨hzero, ?_⟩
    by_contra hnone
    obtain ⟨hone, hwriter⟩ := not_or.mp hnone
    have hlimit : 1 < limit := by
      have hzero' : limit.toNat ≠ 0 := fun h => hzero (UInt32.toNat_inj.mp h)
      have hone' : limit.toNat ≠ 1 := fun h => hone (UInt32.toNat_inj.mp h)
      rw [UInt32.lt_iff_toNat_lt, UInt32.toNat_one]
      omega
    simp only [not_forall, not_not] at hwriter
    rw [if_neg hzero, if_pos ((any_exceeds_iff specs).mpr ⟨hlimit, hwriter⟩)] at h
    nomatch h

theorem run_active_eq_ok {limit : UInt32} {specs : List RecipeSpec} (sources : SourceSet) (hlimit : limit ≠ 0)
    (h : ∀ spec ∈ specs, ¬ spec.info.maxCycles < limit) :
    run limit (specs.map RecipeSpec.active) sources = .ok (start limit (specs.map RecipeSpec.active) sources) := by
  apply run_eq_ok sources hlimit
  intro r hr
  obtain ⟨spec, hspec, rfl⟩ := List.mem_map.mp hr
  rw [maxCycles_active]
  exact UInt32.not_lt.mp (h spec hspec)

/-- Every list of recipes may run for one cycle. -/
theorem run_one_eq_ok (specs : List RecipeSpec) (sources : SourceSet) :
    run 1 (specs.map RecipeSpec.active) sources = .ok (start 1 (specs.map RecipeSpec.active) sources) := by
  apply run_active_eq_ok sources (by decide)
  intro spec _
  cases spec with
  | changeXmlAttribute r => exact (by decide : ¬ ChangeXmlAttribute.info.maxCycles < 1)
  | appendToTextFile r => exact (by decide : ¬ AppendToTextFile.info.maxCycles < 1)

/-- After one cycle the sources are those that the recipes ask for. -/
theorem value_start_one (specs : List RecipeSpec) (sources : SourceSet) (supply : IdSupply) :
    ((start 1 (specs.map RecipeSpec.active) sources).run supply).value =
      (⟨Change.between sources (nextSources specs sources supply), nextSources specs sources supply, 1⟩,
        supplyLeft specs sources supply) := by
  have hcycles : ((cycles (UInt32.toNat 1) ⟨specs.map RecipeSpec.active, sources, {}⟩).run supply).value =
      (State.next specs ⟨specs.map RecipeSpec.active, sources, {}⟩ supply, supplyLeft specs sources supply) := by
    have hone : UInt32.toNat 1 = 0 + 1 := rfl
    rw [hone, run_cycles_succ (map_spec_active specs)]
    split <;> rfl
  rw [value_start hcycles]
  rfl

end SourceRecipes.Run
