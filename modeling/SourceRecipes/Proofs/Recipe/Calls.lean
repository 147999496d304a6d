import Mathlib.Data.List.Induction
import SourceRecipes.Recipe.AppendToTextFile

/-!
# Phases in any order

A host may call the phases of a recipe in any order and as often as it likes. What a recipe that appends to a text file
holds is told by the calls made so far: nothing before the first one that needs an accumulator, and after that whether
the target was scanned since the last cycle began. Every call keeps this true, so all of them do, and it decides
what the recipe generates and transforms next.
-/

namespace SourceRecipes

/-- A call of a phase. -/
inductive PhaseCall where
  | begin
  | scan (file : SourceFile)
  | generate (seen : List SourceFile)
  | transform (file : SourceFile)

namespace PhaseCall

variable {ρ : Type} [Runnable ρ]

def perform (call : PhaseCall) (context : Context) (r : ρ) : Session ρ :=
  match call with
  | begin => pure (Runnable.begin r context)
  | scan file => Runnable.scan r file context
  | generate seen => do return (← Runnable.generate r seen context).2
  | transform file => do
    let _ ← Runnable.transform r file context
    return r

def performAll (calls : List (PhaseCall × Context)) (r : ρ) : Session ρ :=
  calls.foldlM (fun r call => call.1.perform call.2 r) r

theorem value_performAll_append_singleton (calls : List (PhaseCall × Context)) (call : PhaseCall) (context : Context)
    (r : ρ) (supply : IdSupply) :
    ((performAll (calls ++ [(call, context)]) r).run supply).value =
      ((call.perform context ((performAll calls r).run supply).value.1).run
        ((performAll calls r).run supply).value.2).value := by
  have hsplit : performAll (calls ++ [(call, context)]) r = performAll calls r >>= call.perform context := by
    unfold performAll
    rw [List.foldlM_append]
    apply bind_congr
    intro r
    rw [List.foldlM_cons]
    exact bind_pure _
  rw [hsplit, StateT.run_bind, Logged.value_bind]

/-- The calls before which a recipe need not have an accumulator, and after which it has one. -/
def NeedsAccumulator : PhaseCall → Prop
  | begin | scan _ | generate _ => True
  | transform _ => False

end PhaseCall

namespace AppendToTextFile

open PhaseCall

variable {recipe : AppendToTextFile} {calls : List (PhaseCall × Context)} {context : Context}

/-- A file at the target path was scanned, and no cycle began after that. -/
def WasMet (recipe : AppendToTextFile) (calls : List (PhaseCall × Context)) : Prop :=
  ∃ before file context after, calls = before ++ (.scan file, context) :: after ∧
    file.path = recipe.relativeFileName ∧ ∀ call ∈ after, call.1 ≠ .begin

theorem wasMet_append_singleton_iff {call : PhaseCall} :
    recipe.WasMet (calls ++ [(call, context)]) ↔
      (∃ file, call = .scan file ∧ file.path = recipe.relativeFileName) ∨ call ≠ .begin ∧ recipe.WasMet calls := by
  constructor
  · rintro ⟨before, file, context', after, hcalls, hpath, hafter⟩
    rcases List.eq_nil_or_concat after with rfl | ⟨after, last, rfl⟩
    · have hlast := List.append_inj_right' hcalls rfl
      cases hlast
      exact Or.inl ⟨file, rfl, hpath⟩
    · rw [List.concat_eq_append, List.forall_mem_append] at hafter
      rw [List.concat_eq_append, ← List.cons_append, ← List.append_assoc] at hcalls
      have hlast := List.append_inj_right' hcalls rfl
      cases hlast
      exact Or.inr ⟨hafter.2 _ List.mem_cons_self, before, file, context', after, List.append_cancel_right hcalls, hpath,
        hafter.1⟩
  · rintro (⟨file, rfl, hpath⟩ | ⟨hcall, before, file, context', after, rfl, hpath, hafter⟩)
    · exact ⟨calls, file, context, [], rfl, hpath, by simp⟩
    · refine ⟨before, file, context', after ++ [(call, context)], by simp, hpath, ?_⟩
      rw [List.forall_mem_append]
      exact ⟨hafter, by simpa using hcall⟩

/-! ### What the calls leave -/

/-- The recipe holds what the calls made so far tell. -/
structure Follows (recipe : AppendToTextFile) (calls : List (PhaseCall × Context))
    (r : Scanning AppendToTextFile Presence) : Prop where
  recipe_eq : r.recipe = recipe
  accumulator_eq_none_iff : r.accumulator = none ↔ ∀ call ∈ calls, ¬ call.1.NeedsAccumulator
  isPresent_iff : (∃ presence, r.accumulator = some presence ∧ presence.isPresent = true) ↔ recipe.WasMet calls

theorem follows_nil (recipe : AppendToTextFile) : Follows recipe [] { recipe } := by
  refine ⟨rfl, by simp, ?_⟩
  constructor
  · rintro ⟨presence, hpresence, -⟩
    nomatch hpresence
  · rintro ⟨before, file, context, after, hcalls, -⟩
    exact absurd hcalls.symm (by simp)

variable {r : Scanning AppendToTextFile Presence}

theorem Follows.isPresent_current_iff (h : Follows recipe calls r) (context : Context) :
    (r.current context).isPresent = true ↔ recipe.WasMet calls := by
  rw [← h.isPresent_iff, Scanning.current]
  cases hacc : r.accumulator with
  | none => simp [ScanningRecipe.initial]
  | some presence => simp

theorem value_scan (recipe : AppendToTextFile) (presence : Presence) (file : SourceFile) :
    (recipe.scan presence file).value = ⟨presence.isPresent || recipe.targets file⟩ := by
  obtain ⟨isPresent⟩ := presence
  unfold scan
  cases isPresent <;> cases recipe.targets file <;> rfl

/-- What a call that needs an accumulator leaves is known by whether the target counts as met after it. -/
theorem Follows.append_of_needs {call : PhaseCall} (hcall : call.NeedsAccumulator) {presence : Presence}
    (hrecipe : r.recipe = recipe)
    (hpresence : presence.isPresent = true ↔ recipe.WasMet (calls ++ [(call, context)])) :
    Follows recipe (calls ++ [(call, context)]) { r with accumulator := some presence } := by
  refine ⟨hrecipe, ?_, by simpa using hpresence⟩
  constructor
  · intro hnone
    nomatch hnone
  · intro hnever
    exact absurd hcall (hnever (call, context) (List.mem_append_right _ List.mem_cons_self))

theorem Follows.perform (h : Follows recipe calls r) (call : PhaseCall) (context : Context) (supply : IdSupply) :
    Follows recipe (calls ++ [(call, context)]) ((call.perform context r).run supply).value.1 := by
  cases call with
  | begin =>
      have hneeds : begin.NeedsAccumulator := trivial
      apply Follows.append_of_needs hneeds h.recipe_eq
      simp [wasMet_append_singleton_iff, ScanningRecipe.initial]
  | scan file =>
      have hstate : (((PhaseCall.scan file).perform context r).run supply).value.1 =
          { r with accumulator := some (r.recipe.scan (r.current context) file).value } := rfl
      have hneeds : (PhaseCall.scan file).NeedsAccumulator := trivial
      rw [hstate]
      apply Follows.append_of_needs hneeds h.recipe_eq
      rw [value_scan, Bool.or_eq_true, h.isPresent_current_iff, h.recipe_eq, wasMet_append_singleton_iff]
      simp [targets, or_comm]
  | generate seen =>
      have hstate : (((PhaseCall.generate seen).perform context r).run supply).value.1 =
          { r with accumulator := some (r.current context) } := rfl
      have hneeds : (PhaseCall.generate seen).NeedsAccumulator := trivial
      rw [hstate]
      apply Follows.append_of_needs hneeds h.recipe_eq
      rw [h.isPresent_current_iff, wasMet_append_singleton_iff]
      simp
  | transform file =>
      have hstate : (((PhaseCall.transform file).perform context r).run supply).value.1 = r := rfl
      rw [hstate]
      refine ⟨h.recipe_eq, ?_, ?_⟩
      · rw [h.accumulator_eq_none_iff, List.forall_mem_append, List.forall_mem_singleton]
        exact (and_iff_left id).symm
      · rw [h.isPresent_iff, wasMet_append_singleton_iff]
        simp

theorem follows_performAll (recipe : AppendToTextFile) (calls : List (PhaseCall × Context)) (supply : IdSupply) :
    Follows recipe calls ((performAll calls ({ recipe } : Scanning AppendToTextFile Presence)).run supply).value.1 := by
  induction calls using List.reverseRecOn with
  | nil => exact follows_nil recipe
  | append_singleton calls call ih =>
      obtain ⟨call, context⟩ := call
      rw [value_performAll_append_singleton]
      exact ih.perform call context _

/-! ### What the recipe does next -/

theorem Follows.value_generate (h : Follows recipe calls r) (seen : List SourceFile) (context : Context)
    (supply : IdSupply) :
    (recipe.WasMet calls ∨ (∃ file ∈ seen, file.path = recipe.relativeFileName) →
      ((Runnable.generate r seen context).run supply).value.1.1 = []) ∧
    (¬ recipe.WasMet calls → (∀ file ∈ seen, file.path ≠ recipe.relativeFileName) →
      ((Runnable.generate r seen context).run supply).value.1.1 =
        [.plainText ⟨supply.draw.1, recipe.relativeFileName, recipe.newText⟩]) := by
  have hfiles : ((Runnable.generate r seen context).run supply).value.1.1 =
      ((recipe.generate (r.current context) seen).run supply).value.1 := by
    rw [← h.recipe_eq]
    rfl
  have hmet : ((r.current context).isPresent || seen.any recipe.targets) = true ↔
      recipe.WasMet calls ∨ ∃ file ∈ seen, file.path = recipe.relativeFileName := by
    rw [Bool.or_eq_true, h.isPresent_current_iff, List.any_eq_true]
    simp only [targets, decide_eq_true_eq]
  rw [hfiles, AppendToTextFile.generate]
  constructor
  · intro hthere
    rw [if_pos (hmet.mpr hthere)]
    rfl
  · intro hmissing hother
    rw [if_neg (by rw [hmet, not_or, not_exists]; exact ⟨hmissing, fun file hfile => hother file hfile.1 hfile.2⟩)]
    rfl

theorem value_mergeInto_eq_some_iff {t : PlainText} {edited : SourceFile} :
    (recipe.mergeInto t).value = some edited ↔
      ∃ text, recipe.merged? t.text = some text ∧ text ≠ t.text ∧ edited = .plainText { t with text } := by
  unfold mergeInto
  cases hmerged : recipe.merged? t.text with
  | none => simp
  | some text =>
      by_cases hsame : text = t.text
      · simp [hsame]
      · dsimp only
        rw [if_neg hsame]
        change some (SourceFile.plainText { t with text }) = some edited ↔ _
        simp [hsame, eq_comm]

theorem Follows.value_transform (h : Follows recipe calls r) (file : SourceFile) (context : Context)
    (edited : SourceFile) :
    (Runnable.transform r file context).value = some edited ↔
      recipe.WasMet calls ∧ ∃ t text, file = .plainText t ∧ t.path = recipe.relativeFileName ∧
        recipe.merged? t.text = some text ∧ text ≠ t.text ∧ edited = .plainText { t with text } := by
  have hpresent := h.isPresent_iff
  obtain ⟨own, accumulator⟩ := r
  obtain rfl : own = recipe := h.recipe_eq
  cases accumulator with
  | none =>
      have hnot : ¬ own.WasMet calls := by simpa using hpresent.mpr
      have hnone : (Runnable.transform (⟨own, none⟩ : Scanning AppendToTextFile Presence) file context).value = none := rfl
      simp [hnone, hnot]
  | some presence =>
      have htransform : (Runnable.transform (⟨own, some presence⟩ : Scanning AppendToTextFile Presence) file context).value =
          (own.transform presence file).value := rfl
      have hmet : (presence.isPresent && own.targets file) = true ↔
          own.WasMet calls ∧ file.path = own.relativeFileName := by
        rw [Bool.and_eq_true, ← hpresent]
        simp [targets]
      rw [htransform, AppendToTextFile.transform.eq_def]
      by_cases hboth : own.WasMet calls ∧ file.path = own.relativeFileName
      · rw [if_pos (hmet.mpr hboth)]
        obtain ⟨hwas, hpath⟩ := hboth
        cases file with
        | plainText t =>
            have hpath' : t.path = own.relativeFileName := hpath
            simp [value_mergeInto_eq_some_iff, hwas, hpath']
        | markup d =>
            change none = some edited ↔ _
            simp
      · rw [if_neg (mt hmet.mp hboth)]
        constructor
        · intro hnone
          nomatch hnone
        · rintro ⟨hwas, t, text, rfl, hpath, -⟩
          exact absurd ⟨hwas, hpath⟩ hboth

/-- After any calls in any order the recipe has an accumulator exactly if one of them needed it, and the accumulator says
that the target was met exactly if a file there was scanned and no cycle began after that. The recipe then generates one new
file at its target unless that was met or is among the files generated before, and transforms exactly a plain text at its
target that was met and that the merge gives another text, in nothing but that text. -/
theorem phases_in_any_order (recipe : AppendToTextFile) (calls : List (PhaseCall × Context)) (supply : IdSupply) :
    ∃ r, ((performAll calls ({ recipe } : Scanning AppendToTextFile Presence)).run supply).value.1 = r ∧
      r.recipe = recipe ∧
      (r.accumulator = none ↔ ∀ call ∈ calls, ¬ call.1.NeedsAccumulator) ∧
      ((∃ presence, r.accumulator = some presence ∧ presence.isPresent = true) ↔ recipe.WasMet calls) ∧
      (∀ seen context supply,
        (recipe.WasMet calls ∨ (∃ file ∈ seen, file.path = recipe.relativeFileName) →
          ((Runnable.generate r seen context).run supply).value.1.1 = []) ∧
        (¬ recipe.WasMet calls → (∀ file ∈ seen, file.path ≠ recipe.relativeFileName) →
          ((Runnable.generate r seen context).run supply).value.1.1 =
            [.plainText ⟨supply.draw.1, recipe.relativeFileName, recipe.newText⟩])) ∧
      ∀ file context edited, (Runnable.transform r file context).value = some edited ↔
        recipe.WasMet calls ∧ ∃ t text, file = .plainText t ∧ t.path = recipe.relativeFileName ∧
          recipe.merged? t.text = some text ∧ text ≠ t.text ∧ edited = .plainText { t with text } := by
  have h := follows_performAll recipe calls supply
  exact ⟨_, rfl, h.recipe_eq, h.accumulator_eq_none_iff, h.isPresent_iff, h.value_generate, h.value_transform⟩

end AppendToTextFile

end SourceRecipes
