import SourceRecipes.Json.Skip
import SourceRecipes.Proofs.Json.Grammar

/-!
# Skipping values

What spells a value can be skipped, and skipping ends where the value does. The skipping keeps the open arrays and objects on
a stack of frames, so what is shown of a value holds below any frames.
-/

namespace SourceRecipes.Json

variable {text rest : List Char}

/-- How the skipping goes on after a complete item. -/
def afterItem (fuel : Nat) (frames : List Frame) (rest : List Char) : Except Error (List Char) := do
  match ← closeFrames frames rest with
  | ([], rest) => return rest
  | (inner :: outer, rest) => skipItems fuel (inner :: outer) (← skipKey inner rest)

def Frame.opening : Frame → Char
  | array => '['
  | object => '{'

theorem closeFrames_dropBlanks (frame : Frame) (outer : List Frame) (text : List Char) :
    closeFrames (frame :: outer) (dropBlanks text) = closeFrames (frame :: outer) text := by
  induction text with
  | nil => rfl
  | cons c text ih =>
    by_cases hc : isBlank c = true
    · rw [closeFrames, if_pos hc, ← ih]
      simp [dropBlanks, hc]
    · rw [dropBlanks_of_not_isBlank (by simpa using hc)]

theorem afterItem_nil (fuel : Nat) (rest : List Char) : afterItem fuel [] rest = .ok rest := by
  rw [afterItem, closeFrames]
  rfl

theorem afterItem_comma {frame : Frame} {frames : List Frame} {fuel : Nat} (h : dropBlanks text = ',' :: rest) :
    afterItem fuel (frame :: frames) text = skipKey frame rest >>= skipItems fuel (frame :: frames) := by
  have hclose : closeFrames (frame :: frames) text = .ok (frame :: frames, rest) := by
    rw [← closeFrames_dropBlanks, h]
    rfl
  rw [afterItem, hclose]
  rfl

theorem afterItem_closing {frame : Frame} {frames : List Frame} {fuel : Nat}
    (h : dropBlanks text = frame.closing :: rest) : afterItem fuel (frame :: frames) text = afterItem fuel frames rest := by
  have hclose : closeFrames (frame :: frames) text = closeFrames frames rest := by
    rw [← closeFrames_dropBlanks, h]
    cases frame <;> rfl
  rw [afterItem, hclose]
  rfl

theorem skipItems_dropBlanks (fuel : Nat) (frames : List Frame) (text : List Char) :
    skipItems fuel frames (dropBlanks text) = skipItems fuel frames text := by
  cases fuel with
  | zero => rfl
  | succ fuel => simp only [skipItems, dropBlanks_dropBlanks]

theorem skipItems_startsNumber {fuel : Nat} {frames : List Frame} {c : Char} (htext : dropBlanks text = c :: rest)
    (hc : StartsNumber c) : skipItems (fuel + 1) frames text = skipNumber (c :: rest) >>= afterItem fuel frames := by
  have hn : c ≠ 'n' := hc.ne (by decide)
  have ht : c ≠ 't' := hc.ne (by decide)
  have hf : c ≠ 'f' := hc.ne (by decide)
  have hquote : c ≠ '"' := hc.ne (by decide)
  have hsequence : c ≠ '[' := hc.ne (by decide)
  have hmapping : c ≠ '{' := hc.ne (by decide)
  have hnumber : (c = '-' || Text.isDigit c) = true := by simpa [StartsNumber] using hc
  rw [skipItems, htext]
  simp only [hnumber, if_true]
  rfl

theorem skipItems_scalar {fuel : Nat} {frames : List Frame} {v : Value} (h : Scalar (dropBlanks text) v rest) :
    skipItems (fuel + 1) frames text = afterItem fuel frames rest := by
  generalize htext : dropBlanks text = start at h
  have hword : ∀ word rest : List Char, dropWord word (word ++ rest) = .ok rest := fun _ _ => dropWord_eq_ok_iff.mpr rfl
  cases h with
  | null rest =>
    rw [skipItems, htext]
    exact congrArg (· >>= afterItem fuel frames) (hword "ull".toList rest)
  | true rest =>
    rw [skipItems, htext]
    exact congrArg (· >>= afterItem fuel frames) (hword "rue".toList rest)
  | false rest =>
    rw [skipItems, htext]
    exact congrArg (· >>= afterItem fuel frames) (hword "alse".toList rest)
  | string h =>
    rw [skipItems, htext]
    simp only [skipString_of_readString h]
    rfl
  | number h =>
    obtain ⟨c, tail, rfl, hc⟩ := startsNumber_of_readNumber h
    rw [skipItems_startsNumber htext hc, skipNumber_of_readNumber h]
    rfl

theorem skipItems_opening_closing {frame : Frame} {frames : List Frame} {fuel : Nat} {inner : List Char}
    (htext : dropBlanks text = frame.opening :: inner) (hinner : dropBlanks inner = frame.closing :: rest) :
    skipItems (fuel + 1) frames text = afterItem fuel frames rest := by
  cases frame
  all_goals
    rw [Frame.opening] at htext
    rw [skipItems, htext]
    simp only [hinner]
    rfl

theorem skipItems_opening {frame : Frame} {frames : List Frame} {fuel : Nat} {inner : List Char} {c : Char}
    (htext : dropBlanks text = frame.opening :: inner) (hinner : dropBlanks inner = c :: rest) (hc : c ≠ frame.closing) :
    skipItems (fuel + 1) frames text = skipKey frame (c :: rest) >>= skipItems fuel (frame :: frames) := by
  cases frame
  all_goals
    rw [Frame.opening] at htext
    rw [skipItems, htext]
    simp only [hinner, if_neg hc]

theorem skipKey_object {start key colon inner : List Char} (hstart : dropBlanks text = '"' :: start)
    (hkey : readString .plain start = .ok (key, colon)) (hcolon : dropBlanks colon = ':' :: inner) :
    skipKey .object text = .ok inner := by
  simp only [skipKey, hstart, skipString_of_readString hkey, bind, Except.bind, hcolon]
  rfl

/-! ### What can be skipped -/

/-- That an item is skipped within as many steps as it has characters. -/
def Skippable (text rest : List Char) : Prop :=
  ∃ steps, steps + rest.length ≤ text.length ∧
    ∀ fuel frames, skipItems (fuel + steps) frames text = afterItem fuel frames rest

theorem Skippable.of_dropBlanks (h : Skippable (dropBlanks text) rest) : Skippable text rest := by
  have hle := length_dropBlanks_le text
  obtain ⟨steps, hsteps, hskip⟩ := h
  refine ⟨steps, by omega, fun fuel frames => ?_⟩
  rw [← skipItems_dropBlanks]
  exact hskip fuel frames

/-- That what comes after an item is skipped up to and with the bracket that closes its frame. -/
inductive SkipsTo (frame : Frame) : (text rest : List Char) → Prop
  | done {text rest : List Char} (h : dropBlanks text = frame.closing :: rest) : SkipsTo frame text rest
  | next {text after start mid rest : List Char} (hcomma : dropBlanks text = ',' :: after)
      (hkey : skipKey frame after = .ok start) (hlength : start.length ≤ after.length) (hitem : Skippable start mid)
      (hrest : SkipsTo frame mid rest) : SkipsTo frame text rest

theorem SkipsTo.exists_steps {frame : Frame} (h : SkipsTo frame text rest) :
    ∃ steps, steps + rest.length < text.length ∧
      ∀ fuel frames, afterItem (fuel + steps) (frame :: frames) text = afterItem fuel frames rest := by
  induction h with
  | done h =>
    have hlt := length_lt_of_dropBlanks h
    exact ⟨0, by omega, fun fuel frames => afterItem_closing h⟩
  | @next text after start mid rest hcomma hkey hlength hitem _ ih =>
    have hlt := length_lt_of_dropBlanks hcomma
    obtain ⟨first, hfirst, hskip⟩ := hitem
    obtain ⟨others, hothers, hafter⟩ := ih
    refine ⟨others + first, by omega, fun fuel frames => ?_⟩
    calc afterItem (fuel + (others + first)) (frame :: frames) text
        = skipItems (fuel + others + first) (frame :: frames) start := by
          rw [afterItem_comma hcomma, hkey, ← Nat.add_assoc]
          rfl
      _ = afterItem (fuel + others) (frame :: frames) mid := hskip (fuel + others) (frame :: frames)
      _ = afterItem fuel frames rest := hafter fuel frames

theorem skippable_of_closing {frame : Frame} {inner : List Char} (htext : dropBlanks text = frame.opening :: inner)
    (hinner : dropBlanks inner = frame.closing :: rest) : Skippable text rest := by
  have hopening := length_lt_of_dropBlanks htext
  have hclosing := length_lt_of_dropBlanks hinner
  exact ⟨1, by omega, fun fuel frames => skipItems_opening_closing htext hinner⟩

theorem skippable_of_skipsTo {frame : Frame} {inner start mid : List Char} {c : Char} {tail : List Char}
    (htext : dropBlanks text = frame.opening :: inner) (hinner : dropBlanks inner = c :: tail) (hc : c ≠ frame.closing)
    (hkey : skipKey frame (c :: tail) = .ok start) (hlength : start.length ≤ (c :: tail).length)
    (hitem : Skippable start mid) (hrest : SkipsTo frame mid rest) : Skippable text rest := by
  have hopening := length_lt_of_dropBlanks htext
  have hinside := length_dropBlanks_le inner
  rw [hinner] at hinside
  obtain ⟨first, hfirst, hskip⟩ := hitem
  obtain ⟨others, hothers, hafter⟩ := hrest.exists_steps
  refine ⟨others + first + 1, by omega, fun fuel frames => ?_⟩
  calc skipItems (fuel + (others + first + 1)) frames text
      = skipItems (fuel + others + first) (frame :: frames) start := by
        rw [← Nat.add_assoc, skipItems_opening htext hinner hc, hkey, ← Nat.add_assoc]
        rfl
    _ = afterItem (fuel + others) (frame :: frames) mid := hskip (fuel + others) (frame :: frames)
    _ = afterItem fuel frames rest := hafter fuel frames

section

variable {item : List Char → Value → List Char → Prop} (hskip : ∀ {text v rest}, item text v rest → Skippable text rest)

include hskip

theorem Elements.skipsTo {items : List Value} (h : Elements item false text items rest) : SkipsTo .array text rest := by
  generalize hfirst : false = first at h
  induction h with
  | done h => exact .done h
  | next hstart hitem _ ih =>
    subst hfirst
    cases hstart with
    | later hcomma hafter _ =>
      have hskippable := hskip hitem
      rw [← hafter] at hskippable
      exact .next hcomma rfl (Nat.le_refl _) hskippable.of_dropBlanks (ih rfl)

theorem Members.skipsTo {entries : List (Value × Value)} (h : Members item false text entries rest) :
    SkipsTo .object text rest := by
  generalize hfirst : false = first at h
  induction h with
  | done h => exact .done h
  | next hstart hkey hcolon hitem _ ih =>
    subst hfirst
    cases hstart with
    | later hcomma hafter =>
      have hquote := length_lt_of_dropBlanks hafter
      have hkeyEnd := length_of_readString hkey
      have hinner := length_lt_of_dropBlanks hcolon
      exact .next hcomma (skipKey_object hafter hkey hcolon) (by omega) (hskip hitem) (ih rfl)

theorem skippable_of_elements {inner : List Char} {items : List Value} (htext : dropBlanks text = '[' :: inner)
    (h : Elements item true inner items rest) : Skippable text rest := by
  change dropBlanks text = Frame.array.opening :: inner at htext
  cases h with
  | done hclosing => exact skippable_of_closing htext hclosing
  | next hstart hitem hrest =>
    cases hstart with
    | first hinner hc =>
      exact skippable_of_skipsTo htext hinner hc rfl (Nat.le_refl _) (hskip hitem) (hrest.skipsTo hskip)

theorem skippable_of_members {inner : List Char} {entries : List (Value × Value)} (htext : dropBlanks text = '{' :: inner)
    (h : Members item true inner entries rest) : Skippable text rest := by
  change dropBlanks text = Frame.object.opening :: inner at htext
  cases h with
  | done hclosing => exact skippable_of_closing htext hclosing
  | next hstart hkey hcolon hitem hrest =>
    cases hstart with
    | first hinner =>
      have hkeyEnd := length_of_readString hkey
      have hcolonEnd := length_lt_of_dropBlanks hcolon
      have hquote := skipKey_object (dropBlanks_of_not_isBlank rfl _) hkey hcolon
      refine skippable_of_skipsTo htext hinner (by decide) hquote ?_ (hskip hitem) (hrest.skipsTo hskip)
      rw [List.length_cons]
      omega

end

theorem skippable_of_spells {levels : Nat} {v : Value} (h : Spells levels text v rest) : Skippable text rest := by
  have hscalar : ∀ {text v rest}, Scalar (dropBlanks text) v rest → Skippable text rest := by
    intro text v rest h
    have hlt := h.length_lt
    have hle := length_dropBlanks_le text
    exact ⟨1, by omega, fun fuel frames => skipItems_scalar h⟩
  induction levels generalizing text v rest with
  | zero => exact hscalar h
  | succ levels ih =>
    cases h with
    | scalar h => exact hscalar h
    | sequence htext hitems => exact skippable_of_elements ih htext hitems
    | mapping htext hentries => exact skippable_of_members ih htext hentries

theorem skipValue_of_spells {levels : Nat} {v : Value} (h : Spells levels text v rest) :
    skipValue text = .ok rest := by
  obtain ⟨steps, hsteps, hskip⟩ := skippable_of_spells h
  calc skipValue text
      = skipItems (text.length + 1 - steps + steps) [] text := by
        rw [skipValue, Nat.sub_add_cancel (by omega)]
    _ = afterItem (text.length + 1 - steps) [] rest := hskip _ _
    _ = .ok rest := afterItem_nil _ _

end SourceRecipes.Json
