import SourceRecipes.Proofs.Data.Entries
import SourceRecipes.Proofs.Json.Skipping
import SourceRecipes.Proofs.Json.Spelling
import Mathlib.Data.List.Forall2

/-!
# Reading texts and reading values

To read from a text as a record, a string or anything else is the same as to read its value first and then to read from
that, whatever is asked for, as far as there is a result. Only texts that are no JSON at all may be read in part: what
is skipped need not be a value.
-/

namespace SourceRecipes.Json

open Reader

variable {α β δ : Type}

/-- That a reader of texts makes the same of a text as a reader of values makes of its value. -/
def Agrees (p : Reader α) (q : FromValue α) : Prop :=
  ∀ {levels : Nat} {text rest : List Char} {v : Value}, Spells levels text v rest →
    result? p (levels + 1) text = (q v).toOption.map (·, rest)

theorem Spells.scalar_or_nested {levels : Nat} {text rest : List Char} {v : Value} (h : Spells levels text v rest) :
    Scalar (dropBlanks text) v rest ∨
      (∃ inside inner items, levels = inside + 1 ∧ v = .sequence items ∧ dropBlanks text = '[' :: inner ∧
        Elements (Spells inside) true inner items rest) ∨
      ∃ inside inner entries, levels = inside + 1 ∧ v = .mapping entries ∧ dropBlanks text = '{' :: inner ∧
        Members (Spells inside) true inner entries rest := by
  cases levels with
  | zero => exact .inl h
  | succ levels =>
    cases h with
    | scalar h => exact .inl h
    | sequence htext hitems => exact .inr (.inl ⟨levels, _, _, rfl, rfl, htext, hitems⟩)
    | mapping htext hentries => exact .inr (.inr ⟨levels, _, _, rfl, rfl, htext, hentries⟩)

section

variable {depth : Nat} {text rest : List Char} {v : Value}

@[simp]
theorem result?_unexpected (c : Char) (expected : Expected) :
    result? (unexpected c expected : Reader α) depth text = none := by
  unfold unexpected
  split
  · rfl
  · rfl
  · rw [result?_bind]
    cases result? (scalar c) depth text <;> rfl

end

theorem agrees_string : Agrees (DataSource.string : Reader String) DataSource.string := by
  intro levels text rest v h
  change result? Reader.string _ _ = _
  obtain h | ⟨_, _, _, rfl, rfl, htext, -⟩ | ⟨_, _, _, rfl, rfl, htext, -⟩ := h.scalar_or_nested
  · generalize htext : dropBlanks text = start at h
    cases h with
    | null | true | false => simp [Reader.string, DataSource.string, htext]
    | string h => simp [Reader.string, DataSource.string, htext, h]
    | @number _ _ n h =>
      obtain ⟨c, tail, rfl, hc⟩ := startsNumber_of_readNumber h
      have hquote : c ≠ '"' := hc.ne (by decide)
      cases n <;> simp [Reader.string, DataSource.string, Number.value, htext]
  · simp [Reader.string, DataSource.string, htext]
  · simp [Reader.string, DataSource.string, htext]

theorem agrees_boolean : Agrees (DataSource.boolean : Reader Bool) DataSource.boolean := by
  intro levels text rest v h
  change result? Reader.boolean _ _ = _
  obtain h | ⟨_, _, _, rfl, rfl, htext, -⟩ | ⟨_, _, _, rfl, rfl, htext, -⟩ := h.scalar_or_nested
  · generalize htext : dropBlanks text = start at h
    cases h with
    | null | string => simp [Reader.boolean, DataSource.boolean, htext]
    | true | false =>
      rw [Reader.boolean, result?_bind, result?_start, htext]
      exact result?_word_eq_some_iff.mpr ⟨rfl, rfl⟩
    | @number _ _ n h =>
      obtain ⟨c, tail, rfl, hc⟩ := startsNumber_of_readNumber h
      have ht : c ≠ 't' := hc.ne (by decide)
      have hf : c ≠ 'f' := hc.ne (by decide)
      cases n <;> simp [Reader.boolean, DataSource.boolean, Number.value, htext]
  · simp [Reader.boolean, DataSource.boolean, htext]
  · simp [Reader.boolean, DataSource.boolean, htext]

theorem result?_word_of_not_startsNumber {depth : Nat} {text tail : List Char} {c : Char}
    (htext : dropBlanks text = c :: tail) (hc : ¬ StartsNumber c) : result? Reader.word depth text = none := by
  have hnumber : ¬ (c = '-' ∨ Text.isDigit c = true) := hc
  rw [Reader.word, result?_bind, result?_start, htext]
  simp [hnumber]

theorem agrees_word : Agrees (DataSource.word : Reader UInt32) DataSource.word := by
  intro levels text rest v h
  change result? Reader.word _ _ = _
  obtain h | ⟨_, _, _, rfl, rfl, htext, -⟩ | ⟨_, _, _, rfl, rfl, htext, -⟩ := h.scalar_or_nested
  · generalize htext : dropBlanks text = start at h
    cases h with
    | null | true | false | string => exact result?_word_of_not_startsNumber htext (by decide)
    | @number _ _ n h =>
      obtain ⟨c, tail, rfl, hc⟩ := startsNumber_of_readNumber h
      have hnumber : c = '-' ∨ Text.isDigit c = true := hc
      cases n <;> simp [Reader.word, DataSource.word, Number.value, htext, hnumber, h]
  · exact result?_word_of_not_startsNumber htext (by decide)
  · exact result?_word_of_not_startsNumber htext (by decide)

theorem Spells.head_ne_of_ne_null {levels : Nat} {text rest : List Char} {v : Value} (h : Spells levels text v rest)
    (hnull : v ≠ .null) : (Json.dropBlanks text).head? ≠ some 'n' := by
  obtain h | ⟨_, _, _, -, -, htext, -⟩ | ⟨_, _, _, -, -, htext, -⟩ := h.scalar_or_nested
  · generalize Json.dropBlanks text = start at h
    cases h with
    | null => contradiction
    | true | false | string => simp
    | number h =>
      obtain ⟨c, tail, rfl, hc⟩ := startsNumber_of_readNumber h
      simpa using hc.ne (by decide)
  · simp [htext]
  · simp [htext]

theorem Spells.eq_null_append {levels : Nat} {text rest : List Char} (h : Spells levels text .null rest) :
    Json.dropBlanks text = "null".toList ++ rest := by
  obtain h | ⟨_, _, _, _, hv, _⟩ | ⟨_, _, _, _, hv, _⟩ := h.scalar_or_nested
  · generalize Json.dropBlanks text = start at h
    generalize hv : Value.null = v at h
    cases h with
    | null => rfl
    | true | false | string => contradiction
    | @number _ _ n h => cases n <;> contradiction
  · contradiction
  · contradiction

theorem Agrees.optional {p : Reader α} {q : FromValue α} (h : Agrees p q) :
    Agrees (DataSource.optional p) (DataSource.optional q) := by
  intro levels text rest v hspells
  change result? (Reader.optional p) _ _ = _
  by_cases hnull : v = .null
  · subst hnull
    rw [Reader.optional, result?_bind, result?_peek, hspells.eq_null_append]
    exact result?_word_eq_some_iff.mpr ⟨rfl, rfl⟩
  · have hhead := hspells.head_ne_of_ne_null hnull
    have hvalue : (DataSource.optional q : FromValue (Option α)) v = (q v).map some := by
      cases v <;> first | contradiction | rfl
    rw [Reader.optional, result?_bind, result?_peek, hvalue]
    generalize (Json.dropBlanks text).head? = head at hhead
    have hread : result? (do return some (← p)) (levels + 1) (Json.dropBlanks text) =
        ((q v).map some).toOption.map (·, rest) := by
      rw [bind_pure_comp, result?_map, h hspells.of_blanks, toOption_map, Option.map_map, Option.map_map]
      rfl
    rw [Option.bind_some, ← hread]
    split
    · contradiction
    · rfl

/-- Reads an item and puts it in front of those that were read before. -/
def readNext (q : Value → Except Fault α) (before : List α) (v : Value) : Except Fault (List α) :=
  (q v).map (· :: before)

theorem foldlM_readNext (q : Value → Except Fault α) (items : List Value) (before : List α) :
    items.foldlM (readNext q) before = (items.mapM q).map fun read => read.reverse ++ before := by
  induction items generalizing before with
  | nil => rfl
  | cons v items ih =>
    rw [List.foldlM_cons, List.mapM_cons, readNext]
    cases q v with
    | error fault => rfl
    | ok a =>
      change items.foldlM (readNext q) (a :: before) = _
      rw [ih]
      cases items.mapM q with
      | error fault => rfl
      | ok read => simp [Except.map, bind, Except.bind, pure, Except.pure]

theorem Agrees.list {p : Reader α} {q : FromValue α} (h : Agrees p q) :
    Agrees (DataSource.list p) (DataSource.list q) := by
  intro levels text rest v hspells
  change result? (Reader.list p) _ _ = _
  obtain hscalar | ⟨inside, inner, items, rfl, rfl, htext, hitems⟩ | ⟨_, _, _, rfl, rfl, htext, -⟩ :=
    hspells.scalar_or_nested
  · obtain ⟨c, tail, htext, hsequence, -, -, -⟩ := result?_scalar_of_scalar levels hscalar
    have hvalue : ((DataSource.list q : FromValue (List α)) v).toOption = none := by
      generalize dropBlanks text = start at hscalar
      cases hscalar with
      | @number _ _ n _ => cases n <;> rfl
      | _ => rfl
    simp [Reader.list, htext, hvalue]
  · have hstep : ∀ (before : List α) {text v rest}, Spells inside text v rest →
        result? (do return (← p) :: before) (inside + 1) text = (readNext q before v).toOption.map (·, rest) := by
      intro before text v rest hv
      rw [bind_pure_comp, result?_map, h hv, readNext, toOption_map, Option.map_map, Option.map_map]
      rfl
    rw [Reader.list, result?_bind, result?_start, htext]
    change result? (List.reverse <$> array (fun before => do return (← p) :: before) []) (inside + 2) ('[' :: inner) = _
    rw [result?_map, result?_array Spells.length_lt hstep hitems, foldlM_readNext, toOption_map]
    change _ = (items.mapM q).toOption.map (·, rest)
    cases (items.mapM q).toOption <;> simp
  · simp [Reader.list, DataSource.list, htext]

theorem result?_skip {levels : Nat} {text rest : List Char} {v : Value} (h : Spells levels text v rest) {depth : Nat} :
    result? skip depth text = some ((), rest) := by
  rw [skip, result?_drop, skipValue_of_spells h]
  rfl

/-- What is done with an item that does not matter. -/
def discard (_ : Unit) (_ : β) : Except Fault Unit :=
  .ok ()

theorem foldlM_discard (items : List β) : items.foldlM discard () = .ok () := by
  induction items with
  | nil => rfl
  | cons b items ih => exact ih

/-- What is inside brackets is passed over whether there is an answer to it first or afterwards. -/
theorem result?_nested_answer (answer : Except Fault α) (inside : Nat → Reader Unit) (bracket : Char) (depth : Nat)
    (text : List Char) :
    result? (do
      let a ← nested do
        let a ← ofExcept answer
        inside (← remaining)
        return a
      close bracket
      return a) depth text =
      (result? (do
        let result ← nested do inside (← remaining)
        close bracket
        return result) depth text).bind fun read => answer.toOption.map (·, read.2) := by
  rcases depth with _ | _ | depth
  · rfl
  · rfl
  · simp only [result?_bind, result?_nested, result?_ofExcept, result?_remaining, Option.bind_some]
    cases answer with
    | error fault => simp
    | ok a =>
      simp only [toOption_ok, Option.map_some, Option.bind_some, result?_pure]
      generalize (inside text.tail.length).result? (depth + 1) text.tail = read?
      cases read? with
      | none => rfl
      | some read => cases h : (close bracket).result? (depth + 2) read.2 <;> simp [h]

theorem result?_any {handler : Handler α} {depth : Nat} {text tail : List Char} {c : Char}
    (htext : dropBlanks text = c :: tail) :
    result? (any handler) depth text =
      if c = '[' then
        (result? (array (fun _ => skip) ()) depth (c :: tail)).bind fun read =>
          (handler.orFault .sequence handler.sequence).toOption.map (·, read.2)
      else if c = '{' then
        (result? (object (fun _ _ => do colon; skip) ()) depth (c :: tail)).bind fun read =>
          (handler.orFault .mapping handler.mapping).toOption.map (·, read.2)
      else (result? (scalar c) depth (c :: tail)).bind fun read => (handler.onValue read.1).toOption.map (·, read.2) := by
  by_cases hsequence : c = '['
  · subst hsequence
    rw [Reader.any, result?_bind, result?_start, htext, if_pos rfl]
    exact result?_nested_answer (handler.orFault .sequence handler.sequence) (fun n => elements (fun _ => skip) (n + 1) true ())
      ']' depth ('[' :: tail)
  · by_cases hmapping : c = '{'
    · subst hmapping
      rw [Reader.any, result?_bind, result?_start, htext, if_neg (by decide), if_pos rfl]
      exact result?_nested_answer (handler.orFault .mapping handler.mapping)
        (fun n => members (fun _ _ => do colon; skip) (n + 1) true ()) '}' depth ('{' :: tail)
    · simp [Reader.any, htext, hsequence, hmapping]

theorem agrees_any (handler : Handler α) : Agrees (DataSource.any handler : Reader α) (DataSource.any handler) := by
  intro levels text rest v h
  change result? (Reader.any handler) _ _ = (handler.onValue v).toOption.map (·, rest)
  obtain hscalar | ⟨inside, inner, items, rfl, rfl, htext, hitems⟩ | ⟨inside, inner, entries, rfl, rfl, htext, hentries⟩ :=
    h.scalar_or_nested
  · obtain ⟨c, tail, htext, hsequence, hmapping, -, hresult⟩ := result?_scalar_of_scalar (levels + 1) hscalar
    rw [htext] at hresult
    rw [result?_any htext, if_neg hsequence, if_neg hmapping, hresult, Option.bind_some]
  · have hstep : ∀ (before : Unit) {text v rest}, Spells inside text v rest →
        result? skip (inside + 1) text = (discard before v).toOption.map (·, rest) := fun _ _ _ _ hv => result?_skip hv
    rw [result?_any htext, if_pos rfl, result?_array Spells.length_lt hstep hitems, foldlM_discard]
    rfl
  · have hstep : ∀ (before : Unit) (key : String) {after text v rest}, dropBlanks after = ':' :: text →
        Spells inside text v rest →
        result? (do colon; skip) (inside + 1) after = (discard before (Value.string key, v)).toOption.map (·, rest) := by
      intro before key after text v rest hcolon hv
      rw [result?_bind, result?_colon hcolon, Option.bind_some, result?_skip hv]
      rfl
    rw [result?_any htext, if_neg (by decide), if_pos rfl, result?_object Spells.length_lt hstep hentries, foldlM_discard]
    rfl

/-- What becomes of the value that was read does not depend on where it was read from. -/
theorem Agrees.bind {p : Reader α} {q : FromValue α} (h : Agrees p q) {f : α → Reader β} {g : α → FromValue β}
    (hf : ∀ a depth text v, result? (f a) depth text = (g a v).toOption.map (·, text)) : Agrees (p >>= f) (q >>= g) := by
  intro levels text rest v hspells
  have hvalue : (q >>= g) v = q v >>= fun a => g a v := rfl
  rw [result?_bind, h hspells, hvalue, toOption_bind]
  cases (q v).toOption with
  | none => rfl
  | some a => exact hf a _ rest v

theorem Agrees.map {p : Reader α} {q : FromValue α} (h : Agrees p q) (f : α → β) :
    Agrees (do return f (← p)) (do return f (← q)) :=
  Agrees.bind h fun _ _ _ _ => rfl

/-- A text of a value is read successfully just when its value is, and as the same. -/
theorem Agrees.read_eq_ok_iff {p : Reader α} {q : FromValue α} (h : Agrees p q) {text : String} {v : Value}
    (hparse : parse text = .ok v) {a : α} : read p text = .ok a ↔ q v = .ok a := by
  obtain ⟨rest, hspells, hrest⟩ := parse_eq_ok_iff.mp hparse
  have hresult : result? p depthLimit text.toList = (q v).toOption.map (·, rest) := h hspells
  rw [Json.read_eq_ok_iff, hresult]
  constructor
  · rintro ⟨after, hread, -⟩
    obtain ⟨b, hb, hpair⟩ := Option.map_eq_some_iff.mp hread
    obtain ⟨rfl, -⟩ := Prod.mk.inj hpair
    exact toOption_eq_some_iff.mp hb
  · intro hvalue
    exact ⟨rest, by simp [hvalue], hrest⟩

end SourceRecipes.Json
