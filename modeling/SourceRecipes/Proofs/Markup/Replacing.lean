import SourceRecipes.Proofs.Markup.Visits

/-!
# Replacing by index

Items that are replaced one by one can be written into a copy by their index, where the copy is made for the first replacement only.
The questions are about the old items all the same, each is asked once and in order, and the answer to it decides about its own
place alone.
-/

namespace SourceRecipes

/-! ### Writing into a copy -/

section Loop

variable {α : Type} {m : Type → Type} [Monad m]

/-- The copy of the items after an answer about the one at an index. No copy is made for an item that stays. -/
def copyAfter (items : List α) (copy : Option (List α)) (index : Nat) : Option α → Option (List α)
  | none => copy
  | some replacement => some ((copy.getD items).set index replacement)

/-- Asks `f` for replacements of the items from an index on and writes them into the copy. -/
def replaceFrom (f : α → m (Option α)) (items : List α) :
    (rest : List α) → (index : Nat) → (copy : Option (List α)) → m (Option (List α))
  | [], _, copy => pure copy
  | item :: rest, index, copy => do
    let answer ← f item
    replaceFrom f items rest (index + 1) (copyAfter items copy index answer)

/-- Asks about all items, which stay as they are, and begins without a copy. -/
def replaceByIndex (f : α → m (Option α)) (items : List α) : m (Option (List α)) :=
  replaceFrom f items items 0 none

/-- The items of two lists after replacements in one or both, if there was any. -/
def joined (front others : List α) : Option (List α) → Option (List α) → Option (List α)
  | none, none => none
  | newFront, newOthers => some (newFront.getD front ++ newOthers.getD others)

theorem joined_assoc (a b c : List α) (newA newB newC : Option (List α)) :
    joined (a ++ b) c (joined a b newA newB) newC = joined a (b ++ c) newA (joined b c newB newC) := by
  cases newA <;> cases newB <;> cases newC <;> simp [joined]

theorem joined_replaced (front rest : List α) (newFront : Option (List α)) (item : α) (answer : Option α)
    (newRest : Option (List α)) :
    joined front (item :: rest) newFront (replaced item rest answer newRest) =
      joined (front ++ [item]) rest (joined front [item] newFront (answer.map fun new => [new])) newRest := by
  have hreplaced : replaced item rest answer newRest = joined [item] rest (answer.map fun new => [new]) newRest := by
    cases answer <;> cases newRest <;> rfl
  rw [hreplaced, joined_assoc, List.singleton_append]

section Front

variable {front : List α} {newFront : Option (List α)} (hlength : ∀ new ∈ newFront, new.length = front.length)

include hlength

/-- Behind what the loop has passed, the copy still has the old items. -/
theorem copyAfter_append (item : α) (rest : List α) (answer : Option α) :
    copyAfter (front ++ item :: rest) (newFront.map (· ++ item :: rest)) front.length answer =
      (joined front [item] newFront (answer.map fun new => [new])).map (· ++ rest) := by
  cases answer with
  | none => cases newFront <;> simp [copyAfter, joined]
  | some replacement =>
      cases newFront with
      | none => simp [copyAfter, joined]
      | some new =>
          have hnew : new.length = front.length := hlength new rfl
          simp [copyAfter, joined, ← hnew]

theorem length_of_mem_joined (item : α) (answer : Option α) :
    ∀ new ∈ joined front [item] newFront (answer.map fun new => [new]), new.length = (front ++ [item]).length := by
  cases newFront with
  | none => cases answer <;> simp [joined]
  | some new =>
      have hnew : new.length = front.length := hlength new rfl
      cases answer <;> simp [joined, hnew]

/-- The loop goes on from the items in front, which were replaced or not, as if it only began with the rest. -/
theorem replaceFrom_eq_map_replaceEach [LawfulMonad m] (f : α → m (Option α)) (rest : List α) :
    replaceFrom f (front ++ rest) rest front.length (newFront.map (· ++ rest)) =
      joined front rest newFront <$> replaceEach f rest := by
  induction rest generalizing front newFront with
  | nil =>
      rw [replaceFrom, replaceEach, map_pure]
      cases newFront <;> simp [joined]
  | cons item rest ih =>
      simp only [replaceFrom, replaceEach, map_bind, map_pure, copyAfter_append hlength, joined_replaced]
      congr 1
      funext answer
      have hstep := ih (length_of_mem_joined hlength item answer)
      rw [List.append_assoc, List.singleton_append, List.length_append, List.length_singleton] at hstep
      rw [hstep, map_eq_pure_bind]

end Front

theorem replaceEach_eq_replaceByIndex [LawfulMonad m] (f : α → m (Option α)) (items : List α) :
    replaceEach f items = replaceByIndex f items := by
  have hnone : ∀ new ∈ (none : Option (List α)), new.length = ([] : List α).length := nofun
  have hloop := replaceFrom_eq_map_replaceEach hnone f items
  have hjoined : joined [] items none = id := by
    funext newItems
    cases newItems <;> rfl
  rw [hjoined, id_map] at hloop
  exact hloop.symm

end Loop

/-! ### Questions and answers -/

section Questions

variable {α σ : Type}

/-- The state that questions about items leave, each of which meets the state that the one before it left. -/
def stateAfter (f : α → StateM σ (Option α)) (s : σ) (items : List α) : σ :=
  items.foldl (fun s item => ((f item).run s).2) s

/-- The answer about the item at an index, once it was asked about all items before it. -/
def answerAt (f : α → StateM σ (Option α)) (s : σ) (items : List α) (index : Nat) : Option α :=
  items[index]?.bind fun item => ((f item).run (stateAfter f s (items.take index))).1

/-- Asks as `f` does and writes down the item. -/
def noting (f : α → StateM σ (Option α)) (item : α) : StateM (σ × List α) (Option α) :=
  fun t => (((f item).run t.1).1, ((f item).run t.1).2, t.2 ++ [item])

variable (f : α → StateM σ (Option α))

theorem run_replaceEach_noting (items noted : List α) (s : σ) :
    (replaceEach (noting f) items).run (s, noted) =
      (((replaceEach f items).run s).1, ((replaceEach f items).run s).2, noted ++ items) := by
  induction items generalizing s noted with
  | nil =>
      rw [List.append_nil]
      rfl
  | cons item rest ih =>
      have hitem : (noting f item).run (s, noted) = (((f item).run s).1, ((f item).run s).2, noted ++ [item]) := rfl
      rw [run_replaceEach_cons, run_replaceEach_cons, hitem, ih, List.append_assoc, List.singleton_append]

theorem run_replaceEach_snd (items : List α) (s : σ) : ((replaceEach f items).run s).2 = stateAfter f s items := by
  induction items generalizing s with
  | nil => rfl
  | cons item rest ih => rw [run_replaceEach_cons, ih, stateAfter, stateAfter, List.foldl_cons]

theorem answerAt_cons_zero (item : α) (rest : List α) (s : σ) : answerAt f s (item :: rest) 0 = ((f item).run s).1 := rfl

theorem answerAt_cons_succ (item : α) (rest : List α) (s : σ) (index : Nat) :
    answerAt f s (item :: rest) (index + 1) = answerAt f ((f item).run s).2 rest index := rfl

theorem run_replaceEach_eq_none_iff (items : List α) (s : σ) :
    ((replaceEach f items).run s).1 = none ↔ ∀ index, answerAt f s items index = none := by
  induction items generalizing s with
  | nil => exact iff_of_true rfl fun _ => rfl
  | cons item rest ih =>
      rw [run_replaceEach_cons, replaced_eq_none_iff, ih]
      constructor
      · rintro ⟨hfirst, hothers⟩ index
        cases index with
        | zero => exact hfirst
        | succ index => exact hothers index
      · intro h
        exact ⟨h 0, fun index => h (index + 1)⟩

theorem getElem?_getD_replaceEach (items : List α) (s : σ) (index : Nat) :
    (((replaceEach f items).run s).1.getD items)[index]? = (answerAt f s items index).or items[index]? := by
  induction items generalizing s index with
  | nil => rfl
  | cons item rest ih =>
      rw [run_replaceEach_cons, getD_replaced]
      cases index with
      | zero =>
          rw [answerAt_cons_zero, List.getElem?_cons_zero, List.getElem?_cons_zero]
          cases ((f item).run s).1 <;> rfl
      | succ index =>
          rw [answerAt_cons_succ, List.getElem?_cons_succ, List.getElem?_cons_succ]
          exact ih _ index

theorem length_getD_replaceEach (items : List α) (s : σ) :
    (((replaceEach f items).run s).1.getD items).length = items.length := by
  induction items generalizing s with
  | nil => rfl
  | cons item rest ih => rw [run_replaceEach_cons, getD_replaced, List.length_cons, ih, List.length_cons]

/-- Every item is asked about once, in order and with the state that the question before it left, whatever became of the items
before it, as in a loop that writes into a copy by index. There is no new list if all answers are `none`, else one of the old length in
which every item with an answer is replaced by it and all others stay. -/
theorem replaceEach_is_pointwise (items : List α) (s : σ) :
    replaceEach f items = replaceByIndex f items ∧
    (replaceEach (noting f) items).run (s, []) =
      (((replaceEach f items).run s).1, ((replaceEach f items).run s).2, items) ∧
    ((replaceEach f items).run s).2 = stateAfter f s items ∧
    (((replaceEach f items).run s).1 = none ↔ ∀ index, answerAt f s items index = none) ∧
    ∀ new, ((replaceEach f items).run s).1 = some new ↔
      (∃ index, answerAt f s items index ≠ none) ∧ new.length = items.length ∧
        ∀ index, new[index]? = (answerAt f s items index).or items[index]? := by
  refine ⟨replaceEach_eq_replaceByIndex f items, run_replaceEach_noting f items [] s, run_replaceEach_snd f items s,
    run_replaceEach_eq_none_iff f items s, fun new => ?_⟩
  have hnone := run_replaceEach_eq_none_iff f items s
  have hlength := length_getD_replaceEach f items s
  have hplaces := getElem?_getD_replaceEach f items s
  cases hrun : ((replaceEach f items).run s).1 with
  | none =>
      refine iff_of_false nofun ?_
      rintro ⟨⟨index, hanswer⟩, -⟩
      exact hanswer (hnone.mp hrun index)
  | some newItems =>
      rw [hrun] at hnone hlength hplaces
      have hanswer : ∃ index, answerAt f s items index ≠ none := by
        by_contra hall
        nomatch hnone.mpr (by simpa using hall)
      constructor
      · intro h
        obtain rfl := Option.some.inj h
        exact ⟨hanswer, hlength, hplaces⟩
      · rintro ⟨-, -, hnew⟩
        exact congrArg some (List.ext_getElem? fun index => (hplaces index).trans (hnew index).symm)

example : (replaceEach (fun n => do modify (· + 1); return if n = 3 then some 30 else none) [1, 2, 3, 4, 5] :
    StateM Nat (Option (List Nat))).run 0 = (some [1, 2, 30, 4, 5], 5) := rfl

end Questions

end SourceRecipes
