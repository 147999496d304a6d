import Mathlib.Data.String.Basic
import SourceRecipes.Proofs.Text.Utf8

/-!
# The order of texts

Texts that are compared character by character are compared byte by byte as well: UTF-8 keeps the order of characters.
-/

namespace SourceRecipes.Text

/-- Lists that are written item by item are in order if their items are: the writings of two items in order differ at a place that
both have, so what follows does not matter. -/
theorem flatMap_lt_flatMap {α β : Type} [LT α] [LT β] {f : α → List β} (hne : ∀ a, f a ≠ [])
    (hlt : ∀ {a b}, a < b → ∀ x y, f a ++ x < f b ++ y) {s t : List α} (h : s < t) : s.flatMap f < t.flatMap f := by
  induction h with
  | nil =>
    rw [List.flatMap_nil, List.flatMap_cons]
    obtain ⟨b, rest, hwriting⟩ := List.exists_cons_of_ne_nil (hne _)
    rw [hwriting]
    exact List.nil_lt_cons _ _
  | cons _ ih =>
    rw [List.flatMap_cons, List.flatMap_cons]
    exact List.append_left_lt ih
  | rel hitems =>
    rw [List.flatMap_cons, List.flatMap_cons]
    exact hlt hitems _ _

theorem flatMap_lt_flatMap_iff {α β : Type} [LT α] [LT β] [Std.Irrefl fun a b : α => a < b]
    [Std.Asymm fun a b : α => a < b] [Std.Trichotomous fun a b : α => a < b] [Std.Asymm fun a b : β => a < b]
    {f : α → List β} (hne : ∀ a, f a ≠ []) (hlt : ∀ {a b}, a < b → ∀ x y, f a ++ x < f b ++ y) {s t : List α} :
    s.flatMap f < t.flatMap f ↔ s < t := by
  constructor
  · intro h
    by_contra hnot
    rcases List.le_iff_lt_or_eq.mp (List.not_lt.mp hnot) with hgt | rfl
    · exact List.lt_asymm h (flatMap_lt_flatMap hne hlt hgt)
    · exact List.lt_asymm h h
  · exact flatMap_lt_flatMap hne hlt

/-- The bytes of two different characters first differ at a byte that both have, so what follows does not matter. -/
theorem utf8EncodeChar_append_lt {c d : Char} (h : c < d) (x y : List UInt8) :
    String.utf8EncodeChar c ++ x < String.utf8EncodeChar d ++ y := by
  have hlt : c.val.toNat < d.val.toNat := h
  have hd : d.val.toNat < 0x110000 := by
    rcases d.valid with hvalid | hvalid <;> omega
  unfold String.utf8EncodeChar
  dsimp only
  generalize c.val.toNat = v at *
  generalize d.val.toNat = w at *
  -- All digits to the base 64 are taken from quotients by 64, which makes them comparable one by one.
  have hv : v / 4096 = v / 64 / 64 ∧ v / 262144 = v / 64 / 64 / 64 := by omega
  have hw : w / 4096 = w / 64 / 64 ∧ w / 262144 = w / 64 / 64 / 64 := by omega
  rw [hv.1, hv.2, hw.1, hw.2]
  clear hv hw
  split_ifs
  all_goals
    simp only [List.cons_append, List.nil_append, List.cons_lt_cons_iff, UInt8.lt_iff_toNat_lt, ← UInt8.toNat_inj,
      UInt8.toNat_ofNat']
    omega

theorem utf8_lt_iff (s t : String) : utf8 s < utf8 t ↔ s < t := by
  rw [utf8_eq_flatMap, utf8_eq_flatMap, String.lt_iff_toList_lt]
  exact flatMap_lt_flatMap_iff (fun _ => String.utf8EncodeChar_ne_nil) utf8EncodeChar_append_lt

end SourceRecipes.Text
