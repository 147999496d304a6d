import SourceRecipes.Proofs.Run.Changes
import SourceRecipes.Proofs.Run.Messages

/-!
# What the log says of a run

The log of a run can be checked against its result: the reports at the ends of its cycles against their number, the files it
said it would create against those that it generated, and the visits against the files there were. A recipe that writes
a file takes part in one cycle only, so the other messages of a run are those of its first cycle.
-/

namespace SourceRecipes.Run

open RecipeSpec Event

/-! ### The cycles of a run -/

section Passes

variable {specs : List RecipeSpec}

theorem timesLogged_passEvents {text : String} {count : SourceSet → Nat}
    (h : ∀ number sources, timesLogged text (cycleEvents specs number sources) = count sources) (number : UInt32)
    (sets : List SourceSet) : timesLogged text (passEvents specs number sets) = (sets.map count).sum := by
  induction sets generalizing number with
  | nil => rfl
  | cons sources rest ih => rw [passEvents, timesLogged_append, h, ih, List.map_cons, List.sum_cons]

theorem reports_passEvents_cons (specs : List RecipeSpec) (number : UInt32) (sources : SourceSet)
    (rest : List SourceSet) :
    (passEvents specs number (sources :: rest)).filterMap report? =
      ((number + 1).toNat, isBusy specs sources) :: (passEvents specs (number + 1) rest).filterMap report? := by
  rw [passEvents, List.filterMap_append, reports_cycleEvents]
  rfl

theorem toNat_add_one {number : UInt32} (h : number.toNat + 1 < 2 ^ 32) : (number + 1).toNat = number.toNat + 1 := by
  rw [UInt32.toNat_add, UInt32.toNat_one, Nat.mod_eq_of_lt h]

/-- The cycles are numbered on, and every one that is followed by another has changed something. -/
theorem reports_passEvents (specs : List RecipeSpec) (limit : Nat) {number : UInt32}
    (hnumber : number.toNat + (limit + 1) < 2 ^ 32) (sources : SourceSet) (supply : IdSupply) :
    ∃ k last, (passes specs (limit + 1) sources supply).length = k + 1 ∧
      (passEvents specs number (passes specs (limit + 1) sources supply)).filterMap report? =
        (List.range' (number.toNat + 1) k).map (·, true) ++ [(number.toNat + 1 + k, last)] ∧
      (k < limit → last = false) := by
  induction limit generalizing number sources supply with
  | zero =>
      refine ⟨0, isBusy specs sources, ?_, ?_, fun h => absurd h (Nat.not_lt_zero 0)⟩
      · rw [passes, passes, ite_self]
        rfl
      · rw [passes, passes, ite_self, reports_passEvents_cons, toNat_add_one hnumber]
        rfl
  | succ limit ih =>
      have hnext : (number + 1).toNat = number.toNat + 1 := toNat_add_one (by omega)
      rw [passes]
      by_cases hbusy : isBusy specs sources = true
      · rw [if_pos hbusy]
        have hroom : (number + 1).toNat + (limit + 1) < 2 ^ 32 := by omega
        obtain ⟨k, last, hlength, hreports, hlast⟩ :=
          ih hroom (nextSources specs sources supply) (supplyLeft specs sources supply)
        refine ⟨k + 1, last, by rw [List.length_cons, hlength], ?_, fun h => hlast (Nat.lt_of_succ_lt_succ h)⟩
        rw [reports_passEvents_cons, hreports, hnext, hbusy, List.range'_succ, List.map_cons, List.cons_append,
          Nat.add_assoc _ 1 k, Nat.add_comm 1 k]
      · rw [if_neg hbusy]
        refine ⟨0, false, rfl, ?_, fun _ => rfl⟩
        rw [reports_passEvents_cons, hnext, Bool.eq_false_iff.mpr hbusy]
        rfl

theorem countP_targetsMarkup_eq_zero (hfree : ∀ r, .appendToTextFile r ∉ specs) (files : List SourceFile) :
    (specs.countP fun spec => files.any spec.targetsMarkup) = 0 := by
  rw [List.countP_eq_zero]
  intro spec hspec
  cases spec with
  | changeXmlAttribute r => simp [targetsMarkup]
  | appendToTextFile r => exact absurd hspec (hfree r)

theorem sum_size_passes {limit : UInt32} (hadmitted : limit = 1 ∨ ∀ r, .appendToTextFile r ∉ specs)
    (sources : SourceSet) (supply : IdSupply) :
    ((passes specs limit.toNat sources supply).map SourceSet.size).sum =
      (passes specs limit.toNat sources supply).length * sources.size := by
  have hsize : ∀ s ∈ passes specs limit.toNat sources supply, s.size = sources.size := by
    intro s hs
    rcases hadmitted with rfl | hfree
    · rw [UInt32.toNat_one, passes_one, List.mem_singleton] at hs
      rw [hs]
    · exact size_of_mem_passes hfree hs
  rw [List.map_congr_left hsize, List.map_const', List.sum_replicate_nat]

/-- No run that is given at most `2 ^ 32` files counts to `2 ^ 64` visits, for its cycles are counted in 32 bits. -/
theorem filesVisited_cycles_lt {limit : UInt32} (hadmitted : limit = 1 ∨ ∀ r, .appendToTextFile r ∉ specs)
    {sources : SourceSet} (hsize : sources.size ≤ 2 ^ 32) (supply : IdSupply) :
    ((cycles limit.toNat ⟨specs.map RecipeSpec.active, sources, {}⟩).run supply).value.1.context.filesVisited < 2 ^ 64 := by
  have hcycles : (passes specs limit.toNat sources supply).length < 2 ^ 32 :=
    Nat.lt_of_le_of_lt (length_passes_le specs limit.toNat sources supply) limit.toNat_lt
  rw [context_cycles (map_spec_start specs sources)]
  calc 0 + ((passes specs limit.toNat sources supply).map SourceSet.size).sum
      = (passes specs limit.toNat sources supply).length * sources.size := by
        rw [Nat.zero_add, sum_size_passes hadmitted]
    _ ≤ (passes specs limit.toNat sources supply).length * 2 ^ 32 := Nat.mul_le_mul_left _ hsize
    _ < 2 ^ 32 * 2 ^ 32 := Nat.mul_lt_mul_of_pos_right hcycles (by decide)

theorem sum_countP_passes {limit : UInt32} (hadmitted : limit = 1 ∨ ∀ r, .appendToTextFile r ∉ specs)
    (sources : SourceSet) (supply : IdSupply) :
    ((passes specs limit.toNat sources supply).map fun s => specs.countP fun spec => s.files.any spec.targetsMarkup).sum =
      specs.countP fun spec => sources.files.any spec.targetsMarkup := by
  rcases hadmitted with rfl | hfree
  · rw [UInt32.toNat_one, passes_one, List.map_singleton, List.sum_singleton]
  · simp only [countP_targetsMarkup_eq_zero hfree, List.map_const', List.sum_replicate_nat, Nat.mul_zero]

end Passes

/-! ### Runs -/

theorem cyclesRun_start (specs : List RecipeSpec) (limit : UInt32) (sources : SourceSet) (supply : IdSupply) :
    ((start limit (specs.map RecipeSpec.active) sources).run supply).value.1.cyclesRun.toNat =
      (passes specs limit.toNat sources supply).length := by
  have hbound := Nat.lt_of_le_of_lt (length_passes_le specs limit.toNat sources supply) limit.toNat_lt_size
  rw [value_start rfl]
  dsimp only
  rw [context_cycles (map_spec_start specs sources)]
  dsimp only
  rw [UInt32.zero_add]
  exact UInt32.toNat_ofNat_of_lt' hbound

theorem length_generated_start (specs : List RecipeSpec) (limit : UInt32) (sources : SourceSet) (supply : IdSupply) :
    ((start limit (specs.map RecipeSpec.active) sources).run supply).value.1.generated.length =
      ((passes specs limit.toNat sources supply).map fun s => (creators s.paths specs).length).sum := by
  have hsize := (descends_start specs limit sources supply).size_add_length_generated
  rw [← changes_start] at hsize
  have hfinal : ((start limit (specs.map RecipeSpec.active) sources).run supply).value.1.sources.size =
      sources.size + ((passes specs limit.toNat sources supply).map fun s => (creators s.paths specs).length).sum := by
    rw [value_start rfl]
    exact size_cycles (map_spec_start specs sources) limit.toNat supply
  exact Nat.add_left_cancel (hsize.trans hfinal)

/-- The log of a run agrees with its result. Its cycles are numbered from one without a gap, each but the last changed
something, and the last one did not if the run ended early. There is one message for every file that was generated, and one
for every recipe whose target is markup. At the end it gives the number of changes and of cycles, and as many visits as every
cycle makes to every file that was there. -/
theorem log_agrees_with_result (specs : List RecipeSpec) (limit : UInt32) (sources : SourceSet)
    (session : Session RunResult) (hrun : run limit (specs.map RecipeSpec.active) sources = .ok session)
    (supply left : IdSupply) (result : RunResult) (events : List Event)
    (houtcome : session.run supply = ⟨(result, left), events⟩) :
    (∃ k last, result.cyclesRun.toNat = k + 1 ∧
      events.filterMap report? = (List.range' 1 k).map (·, true) ++ [(k + 1, last)] ∧
      (result.cyclesRun < limit → last = false)) ∧
    timesLogged "creating text file" events = result.generated.length ∧
    timesLogged "target is not a plain text file, leaving it" events =
      (specs.countP fun spec => sources.files.any spec.targetsMarkup) ∧
    events.getLast? = some (.runFinished result.changes.length result.cyclesRun
      (result.cyclesRun.toNat * sources.size)) := by
  obtain ⟨hlimit, hadmitted⟩ := admitted_of_run_eq_ok hrun
  rw [eq_start_of_run_eq_ok hrun] at houtcome
  have hresult : ((start limit (specs.map RecipeSpec.active) sources).run supply).value.1 = result := by
    rw [houtcome]
  have hcycles : result.cyclesRun.toNat = (passes specs limit.toNat sources supply).length := by
    rw [← hresult, cyclesRun_start]
  have hevents : events = .runStarted specs.length sources.size limit ::
      (passEvents specs 0 (passes specs limit.toNat sources supply) ++ [.runFinished result.changes.length result.cyclesRun
        (result.cyclesRun.toNat * sources.size)]) := by
    rw [hcycles, ← sum_size_passes hadmitted, ← events_start specs limit sources supply hresult, houtcome]
  refine ⟨?_, ?_, ?_, ?_⟩
  · have hpos : limit.toNat ≠ 0 := fun h => hlimit (UInt32.toNat_inj.mp h)
    obtain ⟨n, hn⟩ := Nat.exists_eq_succ_of_ne_zero hpos
    have hroom : (0 : UInt32).toNat + (n + 1) < 2 ^ 32 := by
      have hbound := limit.toNat_lt
      rw [UInt32.toNat_zero]
      omega
    obtain ⟨k, last, hlength, hreports, hlast⟩ := reports_passEvents specs n hroom sources supply
    rw [hn] at hcycles hevents
    refine ⟨k, last, hcycles.trans hlength, ?_, fun hless => hlast ?_⟩
    · rw [hevents, List.filterMap_cons_none rfl, List.filterMap_append, hreports, UInt32.toNat_zero, Nat.zero_add,
        Nat.add_comm 1 k]
      exact List.append_nil _
    · rw [UInt32.lt_iff_toNat_lt, hcycles, hlength, hn] at hless
      omega
  · rw [hevents, timesLogged_between_ends (by decide), timesLogged_passEvents (timesLogged_cycleEvents_creating specs),
      ← length_generated_start specs limit, hresult]
  · rw [hevents, timesLogged_between_ends (by decide), timesLogged_passEvents (timesLogged_cycleEvents_leaving specs),
      sum_countP_passes hadmitted]
  · rw [hevents, List.getLast?_cons, List.getLast?_append]
    rfl

/-- The sample recipes with one more that is meant for a text file where there is markup. -/
def misdirectedSpecs : List RecipeSpec :=
  .appendToTextFile ⟨(beanFile "old.A").path, "x", none, none, some .replace⟩ :: sampleSpecs

theorem log_agrees_with_result_of_sample :
    ∃ session result left events, run 1 (misdirectedSpecs.map RecipeSpec.active) sampleSources = .ok session ∧
      session.run ⟨0⟩ = ⟨(result, left), events⟩ ∧
      (events.filterMap report?).length = result.cyclesRun.toNat ∧
      timesLogged "creating text file" events = result.generated.length ∧
      timesLogged "target is not a plain text file, leaving it" events = 1 ∧
      events.getLast? = some (.runFinished result.changes.length result.cyclesRun (result.cyclesRun.toNat * 2)) := by
  have hrun := run_one_eq_ok misdirectedSpecs sampleSources
  obtain ⟨⟨⟨result, left⟩, events⟩, houtcome⟩ : ∃ outcome,
      (start 1 (misdirectedSpecs.map RecipeSpec.active) sampleSources).run ⟨0⟩ = outcome := ⟨_, rfl⟩
  obtain ⟨⟨k, last, hcycles, hreports, -⟩, hcreated, hleft, hend⟩ :=
    log_agrees_with_result misdirectedSpecs 1 sampleSources _ hrun ⟨0⟩ left result events houtcome
  refine ⟨_, result, left, events, hrun, houtcome, ?_, hcreated, hleft.trans (by decide), hend⟩
  rw [hreports, hcycles, List.length_append, List.length_map, List.length_range', List.length_singleton]

end SourceRecipes.Run
