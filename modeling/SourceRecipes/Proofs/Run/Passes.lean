import Mathlib.Algebra.GroupWithZero.Nat
import Mathlib.Data.List.Forall2
import SourceRecipes.Proofs.Run.OneCycle

/-!
# The passes of a run

A run passes over its files once in every cycle. What it counts, and what its cycles add to the files, is read off
the sets that they begin with. Two runs are compared pass by pass: if a relation of their sets makes them busy alike
and is kept by their cycles, it holds of all their passes and of the sets that they end with.
-/

namespace SourceRecipes.Run

open RecipeSpec

/-- The sets that the cycles of a run begin with: a busy cycle is followed by another one, up to the limit. -/
def passes (specs : List RecipeSpec) : (limit : Nat) → SourceSet → IdSupply → List SourceSet
  | 0, _, _ => []
  | limit + 1, sources, supply =>
    sources ::
      if isBusy specs sources then
        passes specs limit (nextSources specs sources supply) (supplyLeft specs sources supply)
      else []

theorem passes_one (specs : List RecipeSpec) (sources : SourceSet) (supply : IdSupply) :
    passes specs 1 sources supply = [sources] := by
  rw [passes, passes, ite_self]

theorem length_passes_le (specs : List RecipeSpec) (limit : Nat) (sources : SourceSet) (supply : IdSupply) :
    (passes specs limit sources supply).length ≤ limit := by
  induction limit generalizing sources supply with
  | zero => exact Nat.le_refl 0
  | succ limit ih =>
      rw [passes, List.length_cons]
      split
      · exact Nat.succ_le_succ (ih _ _)
      · exact Nat.succ_le_succ (Nat.zero_le limit)

variable {specs : List RecipeSpec} {state : State ActiveRecipe}

theorem context_cycles (h : state.recipes.map ActiveRecipe.spec = specs) (limit : Nat) (supply : IdSupply) :
    ((cycles limit state).run supply).value.1.context =
      ⟨state.context.cycle + UInt32.ofNat (passes specs limit state.sources supply).length,
        state.context.filesVisited + ((passes specs limit state.sources supply).map SourceSet.size).sum⟩ := by
  induction limit generalizing state supply with
  | zero =>
      have hzero : UInt32.ofNat 0 = 0 := rfl
      simp only [passes, List.length_nil, List.map_nil, List.sum_nil, hzero, UInt32.add_zero, Nat.add_zero]
      rfl
  | succ limit ih =>
      rw [run_cycles_succ h, passes]
      split
      · rw [ih (map_spec_next specs state supply), State.next, List.length_cons, List.map_cons, List.sum_cons,
          Nat.add_comm (List.length _) 1, UInt32.ofNat_add, ← UInt32.add_assoc, ← Nat.add_assoc]
        rfl
      · rfl

/-- What the cycles add to the set is what they create. -/
theorem size_cycles {state : State ActiveRecipe} (h : state.recipes.map ActiveRecipe.spec = specs) (limit : Nat)
    (supply : IdSupply) :
    ((cycles limit state).run supply).value.1.sources.size =
      state.sources.size +
        ((passes specs limit state.sources supply).map fun s => (creators s.paths specs).length).sum := by
  induction limit generalizing state supply with
  | zero => rfl
  | succ limit ih =>
      rw [run_cycles_succ h, passes]
      split
      · rw [ih (map_spec_next specs state supply), State.next, size_nextSources, List.map_cons, List.sum_cons,
          Nat.add_assoc]
      · exact size_nextSources specs state.sources supply

/-- Without a recipe that writes a file every pass is over as many files. -/
theorem size_of_mem_passes (hfree : ∀ r, .appendToTextFile r ∉ specs) {limit : Nat} {sources s : SourceSet}
    {supply : IdSupply} (h : s ∈ passes specs limit sources supply) : s.size = sources.size := by
  induction limit generalizing sources supply with
  | zero => exact absurd h List.not_mem_nil
  | succ limit ih =>
      rw [passes] at h
      rcases List.mem_cons.mp h with rfl | h
      · rfl
      · split at h
        · rw [ih h, size_nextSources, creators_eq_nil_of_forall_not_mem hfree, List.length_nil, Nat.add_zero]
        · exact absurd h List.not_mem_nil

/-- Two runs go in step, as long as their cycles keep the sets related and related sets are busy alike. -/
theorem run_cycles_related {specs' : List RecipeSpec} {R : SourceSet → SourceSet → Prop}
    (hbusy : ∀ {a b}, R a b → isBusy specs a = isBusy specs' b)
    (hnext : ∀ {a b}, R a b → ∀ supply supply', R (nextSources specs a supply) (nextSources specs' b supply'))
    (limit : Nat) (state state' : State ActiveRecipe) (hstate : state.recipes.map ActiveRecipe.spec = specs)
    (hstate' : state'.recipes.map ActiveRecipe.spec = specs') (hsources : R state.sources state'.sources)
    (supply supply' : IdSupply) :
    R ((cycles limit state).run supply).value.1.sources ((cycles limit state').run supply').value.1.sources ∧
      List.Forall₂ R (passes specs limit state.sources supply) (passes specs' limit state'.sources supply') := by
  induction limit generalizing state state' supply supply' with
  | zero => exact ⟨hsources, .nil⟩
  | succ limit ih =>
      have hnext' : R (state.next specs supply).sources (state'.next specs' supply').sources :=
        hnext hsources supply supply'
      rw [run_cycles_succ hstate, run_cycles_succ hstate', passes, passes, hbusy hsources]
      split
      · obtain ⟨hfinal, hpasses⟩ := ih _ _ (map_spec_next specs state supply) (map_spec_next specs' state' supply')
          hnext' (supplyLeft specs state.sources supply) (supplyLeft specs' state'.sources supply')
        exact ⟨hfinal, .cons hsources hpasses⟩
      · exact ⟨hnext', .cons hsources .nil⟩

end SourceRecipes.Run
