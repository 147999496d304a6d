import SourceRecipes.Data.Value
import Mathlib.Data.List.Perm.Basic

/-!
# The keys of mappings

A mapping may have several entries with one key. Setting a key leaves one entry with it and keeps all others.
-/

namespace SourceRecipes

def hasKey (key : String) (entry : Value × Value) : Bool :=
  match entry.1 with
  | .string text => text == key
  | _ => false

@[simp]
theorem hasKey_string (key text : String) (v : Value) : hasKey key (.string text, v) = (text == key) := rfl

theorem hasKey_iff {entry : Value × Value} : hasKey key entry = true ↔ entry.1 = .string key := by
  obtain ⟨k, v⟩ := entry
  cases k <;> simp [hasKey]

/-- That all keys are texts, as they are in JSON. -/
def StringKeyed (entries : List (Value × Value)) : Prop :=
  ∀ e ∈ entries, ∃ key, e.1 = .string key

theorem stringKeyed_cons {entry : Value × Value} {entries : List (Value × Value)} :
    StringKeyed (entry :: entries) ↔ (∃ key, entry.1 = .string key) ∧ StringKeyed entries :=
  List.forall_mem_cons

theorem filter_hasKey_filter_not {key other : String} (h : key ≠ other) (entries : List (Value × Value)) :
    (entries.filter fun e => !hasKey other e).filter (hasKey key) = entries.filter (hasKey key) := by
  rw [List.filter_filter]
  apply List.filter_congr
  intro entry _
  by_cases hkey : hasKey key entry = true
  · have hother : hasKey other entry = false := by
      rw [← Bool.not_eq_true, hasKey_iff, hasKey_iff.mp hkey]
      simpa using h
    simp [hkey, hother]
  · simp [hkey]

/-- That a mapping is another one with a key set to a value. Its entries may stand in another order. -/
structure IsUpdate (key : String) (v : Value) (base entries : List (Value × Value)) : Prop where
  set : entries.filter (hasKey key) = [(.string key, v)]
  kept : (entries.filter fun e => !hasKey key e).Perm (base.filter fun e => !hasKey key e)

theorem IsUpdate.perm_of_ne {key other : String} {v : Value} {base entries : List (Value × Value)}
    (h : IsUpdate key v base entries) (hne : other ≠ key) :
    (entries.filter (hasKey other)).Perm (base.filter (hasKey other)) := by
  have hkept := h.kept.filter (hasKey other)
  rwa [filter_hasKey_filter_not hne, filter_hasKey_filter_not hne] at hkept

/-- What an update sets does not depend on what stood there. -/
theorem IsUpdate.of_others {key : String} {v : Value} {base entries : List (Value × Value)}
    (h : IsUpdate key v (base.filter fun e => !hasKey key e) entries) : IsUpdate key v base entries where
  set := h.set
  kept := by simpa using h.kept

end SourceRecipes
