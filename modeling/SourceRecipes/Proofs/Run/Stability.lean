import SourceRecipes.Proofs.Recipe.Stability
import SourceRecipes.Proofs.Run.Changes

/-!
# Running settled recipes again

After one cycle of stable recipes, each with a subject of its own, another cycle is quiet and ends with the files that it
began with. So a second run reports no change, and a run that may take many cycles ends with its second one at the latest.
-/

namespace SourceRecipes.Run

open RecipeSpec

variable {specs : List RecipeSpec}

theorem isBusy_nextSources (hdistinct : (specs.map subject).Nodup) (hstable : ∀ spec ∈ specs, spec.IsStable)
    (sources : SourceSet) (supply : IdSupply) : isBusy specs (nextSources specs sources supply) = false := by
  rw [isBusy, creators_nextSources, List.isEmpty_nil, Bool.not_true, Bool.false_or, List.any_eq_false]
  intro file hfile
  rw [applyAll_eq_self_of_mem_nextSources hdistinct hstable hfile]
  simp

theorem supplyLeft_nextSources (specs : List RecipeSpec) (sources : SourceSet) (supply supply' : IdSupply) :
    supplyLeft specs (nextSources specs sources supply) supply' = supply' := by
  rw [supplyLeft, creators_nextSources]
  rfl

/-- If no cycle leaves another one anything to do, at most two cycles run. -/
theorem cycle_run_cycles_le (hquiet : ∀ sources supply, isBusy specs (nextSources specs sources supply) = false)
    (limit : Nat) (sources : SourceSet) (supply : IdSupply) :
    ((cycles limit ⟨specs.map RecipeSpec.active, sources, {}⟩).run supply).value.1.context.cycle ≤ 2 := by
  cases limit with
  | zero => exact (by decide : (0 : UInt32) ≤ 2)
  | succ limit =>
      rw [run_cycles_succ (map_spec_active specs)]
      split
      · -- The first cycle was busy. If another one may run it is quiet, and the run ends with it.
        cases limit with
        | zero => exact (by decide : (0 + 1 : UInt32) ≤ 2)
        | succ limit =>
            have hsecond := hquiet sources supply
            rw [run_cycles_succ (map_spec_next specs _ supply), State.next, hsecond, if_neg Bool.false_ne_true]
            exact (by decide : (0 + 1 + 1 : UInt32) ≤ 2)
      · exact (by decide : (0 + 1 : UInt32) ≤ 2)

/-- Recipes that leave what they give, each with a subject of its own, have nothing to do a second time: a second run over
the files of a first one reports no change and ends with these files, identities included. If the recipes only rewrite
attributes, a run takes at most two cycles, however many it may take. -/
theorem run_again_changes_nothing (specs : List RecipeSpec) (hdistinct : (specs.map subject).Nodup)
    (hstable : ∀ spec ∈ specs, spec.IsStable) (sources : SourceSet) :
    (∃ session, run 1 (specs.map RecipeSpec.active) sources = .ok session ∧ ∀ supply, ∃ again,
      run 1 (specs.map RecipeSpec.active) (session.run supply).value.1.sources = .ok again ∧ ∀ supply',
        (again.run supply').value = (⟨[], (session.run supply).value.1.sources, 1⟩, supply')) ∧
    ((∀ spec ∈ specs, ∃ r, spec = changeXmlAttribute r) → ∀ limit, limit ≠ 0 →
      ∃ session, run limit (specs.map RecipeSpec.active) sources = .ok session ∧ ∀ supply,
        (session.run supply).value.1.cyclesRun ≤ 2) := by
  constructor
  · refine ⟨_, run_one_eq_ok specs sources, fun supply => ⟨_, run_one_eq_ok specs _, fun supply' => ?_⟩⟩
    have hsame : nextSources specs (nextSources specs sources supply) supply' = nextSources specs sources supply :=
      nextSources_nextSources hdistinct hstable sources supply supply'
    have hnone : Change.between (nextSources specs sources supply) (nextSources specs sources supply) = [] :=
      SourceSet.between_eq_nil_of_sameFiles (SourceSet.sameFiles_self _)
    rw [value_start_one, value_start_one, hsame, hnone, supplyLeft_nextSources]
  · intro hchanges limit hlimit
    refine ⟨_, run_active_eq_ok sources hlimit fun spec hspec => ?_, fun supply => ?_⟩
    · obtain ⟨r, rfl⟩ := hchanges spec hspec
      exact not_maxCycles_changeXmlAttribute_lt limit
    · rw [value_start rfl]
      exact cycle_run_cycles_le (isBusy_nextSources hdistinct hstable) limit.toNat sources supply

theorem run_again_changes_nothing_of_sample :
    (∃ session, run 1 (sampleSpecs.map RecipeSpec.active) sampleSources = .ok session ∧ ∀ supply, ∃ again,
      run 1 (sampleSpecs.map RecipeSpec.active) (session.run supply).value.1.sources = .ok again ∧ ∀ supply',
        (again.run supply').value = (⟨[], (session.run supply).value.1.sources, 1⟩, supply')) ∧
    ∃ session, run 5 [(changeXmlAttribute ⟨"bean", "class", some "old", "new"⟩).active] sampleSources = .ok session ∧
      ∀ supply, (session.run supply).value.1.cyclesRun ≤ 2 :=
  ⟨(run_again_changes_nothing sampleSpecs (by decide) (by decide) sampleSources).1,
    (run_again_changes_nothing [changeXmlAttribute ⟨"bean", "class", some "old", "new"⟩] (by decide) (by decide)
      sampleSources).2 (by simp) 5 (by decide)⟩

end SourceRecipes.Run
