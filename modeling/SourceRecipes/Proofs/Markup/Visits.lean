import Mathlib.Data.List.Basic
import SourceRecipes.Markup.Visitor
import SourceRecipes.Proofs.Markup.Elements

/-!
# Visits that replace in place

A visit answers `none` for what it leaves as it is. `differing` is the answer of a visit that only replaces by what is
different. Visits of this kind go through lists and contexts: a list differs if one of its items does, and an element
if its children do.
-/

namespace SourceRecipes

/-- The new value, or `none` if it is the old one. -/
def differing {α : Type} [DecidableEq α] (old new : α) : Option α :=
  if new = old then none else some new

section Differing

variable {α : Type} [DecidableEq α]

@[simp]
theorem differing_self (a : α) : differing a a = none := by
  simp [differing]

@[simp]
theorem getD_differing (old new : α) : (differing old new).getD old = new := by
  by_cases h : new = old <;> simp [differing, h]

theorem differing_eq_none_iff {old new : α} : differing old new = none ↔ new = old := by
  simp [differing]

theorem map_differing {β : Type} [DecidableEq β] {f : α → β} (hf : Function.Injective f) (old new : α) :
    (differing old new).map f = differing (f old) (f new) := by
  by_cases h : new = old <;> simp [differing, h, hf.eq_iff]

theorem replaced_differing (a b : α) (as bs : List α) :
    replaced a as (differing a b) (differing as bs) = differing (a :: as) (b :: bs) := by
  by_cases hhead : b = a <;> by_cases htail : bs = as <;> simp [differing, replaced, hhead, htail]

end Differing

theorem replaced_eq_none_iff {α : Type} {a : α} {as : List α} {first : Option α} {others : Option (List α)} :
    replaced a as first others = none ↔ first = none ∧ others = none := by
  cases first <;> cases others <;> simp [replaced]

theorem getD_replaced {α : Type} (a : α) (as : List α) (first : Option α) (others : Option (List α)) :
    (replaced a as first others).getD (a :: as) = first.getD a :: others.getD as := by
  cases first <;> cases others <;> rfl

/-! ### Visits of lists -/

theorem run_mapM_cons {α β σ : Type} (f : α → StateM σ β) (a : α) (rest : List α) (s : σ) :
    ((a :: rest).mapM f).run s =
      (((f a).run s).1 :: ((rest.mapM f).run ((f a).run s).2).1, ((rest.mapM f).run ((f a).run s).2).2) := by
  rw [List.mapM_cons]
  rfl

theorem run_replaceEach_cons {α σ : Type} (f : α → StateM σ (Option α)) (a : α) (rest : List α) (s : σ) :
    (replaceEach f (a :: rest)).run s =
      (replaced a rest ((f a).run s).1 ((replaceEach f rest).run ((f a).run s).2).1,
        ((replaceEach f rest).run ((f a).run s).2).2) := rfl

/-- A visit whose answers depend on the items alone replaces each item on its own. What it adds to the count is the number of
events among those of all items. -/
theorem run_replaceEach {α β : Type} [DecidableEq α] {f : α → StateM Nat (Option α)} {g : α → α}
    {events : α → List β} {p : β → Bool} {items : List α}
    (h : ∀ a ∈ items, ∀ n, (f a).run n = (differing a (g a), n + (events a).countP p)) (n : Nat) :
    (replaceEach f items).run n = (differing items (items.map g), n + (items.flatMap events).countP p) := by
  induction items generalizing n with
  | nil => rfl
  | cons a rest ih =>
      simp only [List.mem_cons, forall_eq_or_imp] at h
      rw [run_replaceEach_cons, h.1, ih h.2, replaced_differing, List.flatMap_cons, List.countP_append,
        Nat.add_assoc, List.map_cons]

theorem run_replaceEach_none {α σ : Type} (items : List α) (s : σ) :
    (replaceEach (fun _ => (pure none : StateM σ (Option α))) items).run s = (none, s) := by
  induction items with
  | nil => rfl
  | cons a rest ih =>
      have hhead : (pure none : StateM σ (Option α)).run s = (none, s) := rfl
      rw [run_replaceEach_cons, hhead, ih]
      rfl

theorem Visitor.visitElement_eq {σ : Type} (v : Visitor σ) (e : Element) :
    v.visitElement e = v.onElement e do
      let attributes ← replaceEach v.onAttribute e.attributes
      let children ← v.visitContent e.content
      return rebuild e attributes children := by
  obtain ⟨id, leading, name, attributes, content, beforeDelimiter⟩ := e
  rfl

theorem Visitor.rebuild_eq_none_iff {e : Element} {attributes : Option (List Attribute)} {children : Option (List Child)} :
    rebuild e attributes children = none ↔ attributes = none ∧ children = none := by
  cases attributes <;> cases children <;> simp [rebuild]

theorem Visitor.getD_rebuild (e : Element) (attributes : Option (List Attribute)) (children : Option (List Child)) :
    (rebuild e attributes children).getD e =
      { e with attributes := attributes.getD e.attributes, content := children.or e.content } := by
  cases attributes <;> cases children <;> rfl

theorem Visitor.rebuild_content (e : Element) (g : Child → Child) :
    rebuild e none (e.content.bind fun children => differing children (children.map g)) =
      differing e { e with content := e.content.map (List.map g) } := by
  obtain ⟨id, leading, name, attributes, content, beforeDelimiter⟩ := e
  cases content with
  | none => exact (differing_self _).symm
  | some children =>
      by_cases hsame : children.map g = children
      · simp [rebuild, differing, hsame]
      · simp [rebuild, differing, hsame]

end SourceRecipes
