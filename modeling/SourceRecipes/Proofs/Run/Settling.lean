import Mathlib.Logic.Function.Iterate
import Mathlib.Order.Bounds.Basic
import SourceRecipes.Proofs.Digest.Edits
import SourceRecipes.Proofs.Run.OneCycle

/-!
# Runs that settle

A run ends early after a cycle that changes nothing. For recipes that only rewrite attributes such a cycle is a fixed point,
so no later one would change anything either, and the run ends where all of its cycles would have ended.
-/

namespace SourceRecipes

/-! ### Repeating until nothing changes -/

section Repeating

variable {α : Type}

/-- Application number `k` is the last one if it changes nothing or reaches the limit. -/
def MayStopAt (f : α → α) (limit : Nat) (x : α) (k : Nat) : Prop :=
  1 ≤ k ∧ k ≤ limit ∧ (f^[k] x = f^[k - 1] x ∨ k = limit)

theorem mayStopAt_succ_iff {f : α → α} {limit : Nat} {x : α} {k : Nat} :
    MayStopAt f (limit + 1) x (k + 1) ↔ k = 0 ∧ (f x = x ∨ limit = 0) ∨ MayStopAt f limit (f x) k := by
  cases k with
  | zero =>
      constructor
      · rintro ⟨-, -, hfixed | hlast⟩
        · exact Or.inl ⟨rfl, Or.inl hfixed⟩
        · exact Or.inl ⟨rfl, Or.inr (by omega)⟩
      · rintro (⟨-, hfixed | hlast⟩ | ⟨hpos, -⟩)
        · exact ⟨by omega, by omega, Or.inl hfixed⟩
        · exact ⟨by omega, by omega, Or.inr (by omega)⟩
        · omega
  | succ k =>
      constructor
      · rintro ⟨-, hle, hstop⟩
        exact Or.inr ⟨by omega, by omega, hstop.imp_right (by omega)⟩
      · rintro (⟨hzero, -⟩ | ⟨-, hle, hstop⟩)
        · omega
        · exact ⟨by omega, by omega, hstop.imp_right (by omega)⟩

variable [DecidableEq α]

/-- How often a function is applied, at most `limit` times, if one application that changes nothing is the last. -/
def timesApplied (f : α → α) : (limit : Nat) → α → Nat
  | 0, _ => 0
  | limit + 1, x => if f x = x then 1 else timesApplied f limit (f x) + 1

theorem timesApplied_le (f : α → α) (limit : Nat) (x : α) : timesApplied f limit x ≤ limit := by
  induction limit generalizing x with
  | zero => exact Nat.le_refl 0
  | succ limit ih =>
      rw [timesApplied]
      split
      · omega
      · exact Nat.succ_le_succ (ih (f x))

/-- The applications stop as soon as they may. -/
theorem isLeast_timesApplied (f : α → α) {limit : Nat} (hlimit : limit ≠ 0) (x : α) :
    IsLeast {k | MayStopAt f limit x k} (timesApplied f limit x) := by
  induction limit generalizing x with
  | zero => exact absurd rfl hlimit
  | succ limit ih =>
      rw [timesApplied]
      by_cases hfixed : f x = x
      · rw [if_pos hfixed]
        exact ⟨mayStopAt_succ_iff.mpr (Or.inl ⟨rfl, Or.inl hfixed⟩), fun k hk => hk.1⟩
      · rw [if_neg hfixed]
        by_cases hlast : limit = 0
        · subst hlast
          exact ⟨mayStopAt_succ_iff.mpr (Or.inl ⟨rfl, Or.inr rfl⟩), fun k hk => hk.1⟩
        · obtain ⟨hstop, hleast⟩ := ih hlast (f x)
          refine ⟨mayStopAt_succ_iff.mpr (Or.inr hstop), fun k hk => ?_⟩
          obtain ⟨j, rfl⟩ := Nat.exists_eq_add_of_le' hk.1
          rcases mayStopAt_succ_iff.mp hk with ⟨-, hfirst | hfirst⟩ | hlater
          · exact absurd hfirst hfixed
          · exact absurd hfirst hlast
          · exact Nat.succ_le_succ (hleast hlater)

end Repeating

namespace Run

open RecipeSpec

/-- The files after a cycle of recipes that rewrite attributes: every file goes through all of them in order. -/
def editFiles (recipes : List ChangeXmlAttribute) (files : List SourceFile) : List SourceFile :=
  files.map (applyAll (recipes.map .changeXmlAttribute))

theorem files_nextSources_changes (recipes : List ChangeXmlAttribute) (sources : SourceSet) (supply : IdSupply) :
    (nextSources (recipes.map .changeXmlAttribute) sources supply).files =
      editFiles recipes sources.files := by
  have hfiles : (nextSources (recipes.map .changeXmlAttribute) sources supply).files =
      editFiles recipes sources.files ++
        created supply (creators sources.paths (recipes.map .changeXmlAttribute)) := rfl
  rw [hfiles, creators_changes, created, List.append_nil]

theorem supplyLeft_changes (recipes : List ChangeXmlAttribute) (sources : SourceSet) (supply : IdSupply) :
    supplyLeft (recipes.map .changeXmlAttribute) sources supply = supply := by
  rw [supplyLeft, creators_changes]
  rfl

theorem editFiles_eq_self_iff {recipes : List ChangeXmlAttribute} {files : List SourceFile} :
    editFiles recipes files = files ↔
      ∀ file ∈ files, applyAll (recipes.map .changeXmlAttribute) file = file := by
  constructor
  · intro h
    exact List.map_inj_left.mp (h.trans (List.map_id _).symm)
  · intro h
    exact (List.map_congr_left h).trans (List.map_id _)

theorem applyAll_eq_self_of_stream_eq {recipes : List ChangeXmlAttribute} {file : SourceFile} (hfile : file.Fits)
    (hedited : (applyAll (recipes.map .changeXmlAttribute) file).Fits)
    (h : (applyAll (recipes.map .changeXmlAttribute) file).stream = file.stream) :
    applyAll (recipes.map .changeXmlAttribute) file = file := by
  rw [applyAll_changes] at hedited h ⊢
  exact SourceFile.mapTexts_eq_self_of_stream_eq hfile hedited h

/-- A cycle is busy exactly if it edits a file, as edits show in the streams and different streams have different
digests. -/
theorem isBusy_changes_iff {recipes : List ChangeXmlAttribute} {sources : SourceSet}
    (hfits : ∀ file ∈ sources.files, file.Fits) (hedited : ∀ file ∈ editFiles recipes sources.files, file.Fits)
    (hdigests : ∀ a ∈ sources.files, ∀ b ∈ editFiles recipes sources.files,
      b.fingerprint = a.fingerprint → b.stream = a.stream) :
    isBusy (recipes.map .changeXmlAttribute) sources = true ↔ editFiles recipes sources.files ≠ sources.files := by
  have hsame : ∀ file ∈ sources.files, (applyAll (recipes.map .changeXmlAttribute) file).fingerprint =
      file.fingerprint ↔ applyAll (recipes.map .changeXmlAttribute) file = file := by
    intro file hfile
    have hmem : applyAll (recipes.map .changeXmlAttribute) file ∈ editFiles recipes sources.files :=
      List.mem_map_of_mem hfile
    constructor
    · intro h
      exact applyAll_eq_self_of_stream_eq (hfits file hfile) (hedited _ hmem) (hdigests file hfile _ hmem h)
    · exact congrArg SourceFile.fingerprint
  rw [isBusy, creators_changes, List.isEmpty_nil, Bool.not_true, Bool.false_or, List.any_eq_true, ne_eq,
    editFiles_eq_self_iff]
  simp only [not_forall, decide_eq_true_eq]
  apply exists_congr
  intro file
  rw [exists_prop]
  exact and_congr_right fun hfile => not_congr (hsame file hfile)

/-! ### The cycles of a run -/

theorem run_cycles_changes {recipes : List ChangeXmlAttribute} {limit : Nat} (state : State ActiveRecipe)
    (hspecs : state.recipes.map ActiveRecipe.spec = recipes.map .changeXmlAttribute)
    (hfits : ∀ i ≤ limit, ∀ file ∈ (editFiles recipes)^[i] state.sources.files, file.Fits)
    (hdigests : ∀ i ≤ limit, ∀ j ≤ limit, ∀ a ∈ (editFiles recipes)^[i] state.sources.files,
      ∀ b ∈ (editFiles recipes)^[j] state.sources.files, b.fingerprint = a.fingerprint → b.stream = a.stream)
    (supply : IdSupply) :
    ∃ final, ((cycles limit state).run supply).value = (final, supply) ∧
      final.sources.files = (editFiles recipes)^[limit] state.sources.files ∧
      final.context.cycle =
        state.context.cycle + UInt32.ofNat (timesApplied (editFiles recipes) limit state.sources.files) := by
  induction limit generalizing state with
  | zero => exact ⟨state, rfl, rfl, (UInt32.add_zero _).symm⟩
  | succ limit ih =>
      have hnext : (state.next (recipes.map .changeXmlAttribute) supply).sources.files =
          editFiles recipes state.sources.files := files_nextSources_changes recipes state.sources supply
      have hbusy := isBusy_changes_iff (hfits 0 (by omega)) (hfits 1 (by omega)) (hdigests 0 (by omega) 1 (by omega))
      rw [run_cycles_succ hspecs, supplyLeft_changes, timesApplied]
      by_cases hfixed : editFiles recipes state.sources.files = state.sources.files
      · rw [if_neg (mt hbusy.mp (not_not.mpr hfixed)), if_pos hfixed]
        refine ⟨_, rfl, ?_, rfl⟩
        rw [hnext, Function.iterate_succ_apply, hfixed, Function.iterate_fixed hfixed]
      · rw [if_pos (hbusy.mpr hfixed), if_neg hfixed]
        obtain ⟨final, hrun, hfiles, hcycle⟩ := ih _ (map_spec_next _ state supply)
          (fun i hi => by rw [hnext]; exact hfits (i + 1) (by omega))
          (fun i hi j hj => by rw [hnext]; exact hdigests (i + 1) (by omega) (j + 1) (by omega))
        rw [hnext] at hfiles hcycle
        refine ⟨final, hrun, hfiles, ?_⟩
        have hadvance : (state.next (recipes.map .changeXmlAttribute) supply).context.cycle =
            state.context.cycle + UInt32.ofNat 1 := rfl
        rw [hcycle, hadvance, UInt32.add_assoc, ← UInt32.ofNat_add, Nat.add_comm 1]

/-- A run of recipes that rewrite attributes ends where all cycles it may take would end, and takes no more of them than
until the first that changes no file. The texts of the run fit their fields, and different streams that occur in it
have different digests. -/
theorem run_changes_stops_early (recipes : List ChangeXmlAttribute) (sources : SourceSet) (limit : UInt32)
    (hlimit : 1 ≤ limit)
    (hfits : ∀ i ≤ limit.toNat, ∀ file ∈ (editFiles recipes)^[i] sources.files, file.Fits)
    (hdigests : ∀ i ≤ limit.toNat, ∀ j ≤ limit.toNat, ∀ a ∈ (editFiles recipes)^[i] sources.files,
      ∀ b ∈ (editFiles recipes)^[j] sources.files, b.fingerprint = a.fingerprint → b.stream = a.stream) :
    ∃ session, run limit ((recipes.map .changeXmlAttribute).map RecipeSpec.active) sources = .ok session ∧
      ∀ supply, ∃ result, (session.run supply).value = (result, supply) ∧
        result.sources.files = (editFiles recipes)^[limit.toNat] sources.files ∧
        IsLeast {k | 1 ≤ k ∧ k ≤ limit.toNat ∧
          ((editFiles recipes)^[k] sources.files = (editFiles recipes)^[k - 1] sources.files ∨ k = limit.toNat)}
          result.cyclesRun.toNat := by
  have hpos : limit.toNat ≠ 0 := Nat.ne_of_gt (UInt32.le_iff_toNat_le.mp hlimit)
  refine ⟨start limit _ sources, run_eq_ok sources (fun h => hpos (congrArg UInt32.toNat h)) ?_, fun supply => ?_⟩
  · intro r hr
    obtain ⟨spec, hspec, rfl⟩ := List.mem_map.mp hr
    obtain ⟨recipe, -, rfl⟩ := List.mem_map.mp hspec
    have hmax : (4294967295 : UInt32).toNat = 4294967295 := rfl
    have hbound := limit.toNat_lt
    exact UInt32.le_iff_toNat_le.mpr (show limit.toNat ≤ (4294967295 : UInt32).toNat by omega)
  · obtain ⟨final, hrun, hfiles, hcycle⟩ := run_cycles_changes
      ⟨(recipes.map .changeXmlAttribute).map RecipeSpec.active, sources, {}⟩ (map_spec_active _) hfits hdigests supply
    have hcyclesRun : final.context.cycle.toNat = timesApplied (editFiles recipes) limit.toNat sources.files := by
      rw [hcycle, UInt32.zero_add]
      exact UInt32.toNat_ofNat_of_lt' (Nat.lt_of_le_of_lt (timesApplied_le _ _ _) limit.toNat_lt_size)
    refine ⟨_, value_start hrun, hfiles, ?_⟩
    dsimp only
    rw [hcyclesRun]
    exact isLeast_timesApplied (editFiles recipes) hpos sources.files

def beanFile (text : String) : SourceFile :=
  .markup {
    id := .blank
    path := ⟨false, ["a.xml"], by simp, by simp [IsSegment, isKept, isSeparator]⟩
    prolog := none
    root := ⟨.blank, "", "bean", [Attribute.new .blank .blank "class" text], none, ""⟩ }

theorem fingerprint_beanFile_ne : (beanFile "old.A").fingerprint ≠ (beanFile "new.A").fingerprint := by
  intro h
  have hbytes := congrArg ContentHash.bytes h
  simp only [SourceFile.fingerprint, ContentHash.ofBytes] at hbytes
  rw [Blake3.hash_of_length_le (by decide +kernel), Blake3.hash_of_length_le (by decide +kernel)] at hbytes
  revert hbytes
  decide +kernel

theorem iterate_editFiles_beanFile (i : Nat) :
    (editFiles [⟨"bean", "class", some "old", "new"⟩])^[i + 1] [beanFile "old.A"] = [beanFile "new.A"] := by
  have hfirst : editFiles [⟨"bean", "class", some "old", "new"⟩] [beanFile "old.A"] = [beanFile "new.A"] := by
    decide +kernel
  have hfixed : editFiles [⟨"bean", "class", some "old", "new"⟩] [beanFile "new.A"] = [beanFile "new.A"] := by
    decide +kernel
  rw [Function.iterate_succ_apply, hfirst, Function.iterate_fixed hfixed]

/-- The second cycle of three changes nothing, so the third is not run. -/
theorem run_changes_stops_early_at_two :
    ∃ session, run 3 [(RecipeSpec.changeXmlAttribute ⟨"bean", "class", some "old", "new"⟩).active]
        (SourceSet.ofList [beanFile "old.A"]) = .ok session ∧
      ∀ supply, ∃ result, (session.run supply).value = (result, supply) ∧
        result.sources.files = [beanFile "new.A"] ∧ result.cyclesRun.toNat = 2 := by
  have hfiles : ∀ i, ∀ file ∈ (editFiles [⟨"bean", "class", some "old", "new"⟩])^[i] [beanFile "old.A"],
      file = beanFile "old.A" ∨ file = beanFile "new.A" := by
    intro i file hfile
    cases i with
    | zero => exact Or.inl (List.mem_singleton.mp hfile)
    | succ i =>
        rw [iterate_editFiles_beanFile] at hfile
        exact Or.inr (List.mem_singleton.mp hfile)
  obtain ⟨session, hsession, hresult⟩ := run_changes_stops_early [⟨"bean", "class", some "old", "new"⟩]
    (SourceSet.ofList [beanFile "old.A"]) 3 (by decide)
    (fun i _ file hfile => by rcases hfiles i file hfile with rfl | rfl <;> decide)
    (fun i _ j _ a ha b hb hsame => by
      rcases hfiles i a ha with rfl | rfl <;> rcases hfiles j b hb with rfl | rfl
      · rfl
      · exact absurd hsame.symm fingerprint_beanFile_ne
      · exact absurd hsame fingerprint_beanFile_ne
      · rfl)
  refine ⟨session, hsession, fun supply => ?_⟩
  obtain ⟨result, hvalue, hsources, ⟨hone, hthree, hstop⟩, hleast⟩ := hresult supply
  have htwo : result.cyclesRun.toNat ≤ 2 :=
    hleast ⟨by decide, by decide, Or.inl ((iterate_editFiles_beanFile 1).trans (iterate_editFiles_beanFile 0).symm)⟩
  have hone' : result.cyclesRun.toNat ≠ 1 := by
    intro hcycles
    rw [hcycles] at hstop
    rcases hstop with hfixed | hlast
    · exact absurd ((iterate_editFiles_beanFile 0).symm.trans hfixed) (by decide)
    · exact absurd hlast (by decide)
  exact ⟨result, hvalue, hsources.trans (iterate_editFiles_beanFile 2), by omega⟩

end Run

end SourceRecipes
