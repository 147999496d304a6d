import SourceRecipes.Proofs.Json.Result

/-!
# The reader of values

It takes exactly what the grammar allows.
-/

namespace SourceRecipes.Json

namespace Reader

variable {α σ : Type} {depth : Nat} {text rest : List Char}

theorem scalar_of_startsNumber {c : Char} (h : StartsNumber c) :
    scalar c = do return (← take readNumber).value := by
  have hn : c ≠ 'n' := h.ne (by decide)
  have ht : c ≠ 't' := h.ne (by decide)
  have hf : c ≠ 'f' := h.ne (by decide)
  have hquote : c ≠ '"' := h.ne (by decide)
  have hnumber : (c = '-' || Text.isDigit c) = true := by simpa [StartsNumber] using h
  simp [scalar, hnumber]

theorem result?_scalar_of_scalar (depth : Nat) {v : Value} (h : Scalar text v rest) :
    ∃ c tail, text = c :: tail ∧ c ≠ '[' ∧ c ≠ '{' ∧ isBlank c = false ∧ result? (scalar c) depth text = some (v, rest) := by
  cases h with
  | null rest => exact ⟨'n', _, rfl, by decide, by decide, by decide, rfl⟩
  | true rest => exact ⟨'t', _, rfl, by decide, by decide, by decide, rfl⟩
  | false rest => exact ⟨'f', _, rfl, by decide, by decide, by decide, rfl⟩
  | @string tail s rest h => exact ⟨'"', tail, rfl, by decide, by decide, by decide, by simp [scalar, h]⟩
  | number h =>
    obtain ⟨c, tail, rfl, hc⟩ := startsNumber_of_readNumber h
    refine ⟨c, tail, rfl, hc.ne (by decide), hc.ne (by decide), ?_, ?_⟩
    · exact hc.not_isBlank
    · simp [scalar_of_startsNumber hc, h]

theorem result?_word_eq_some_iff {word : List Char} {a b : α} :
    result? (do drop (dropWord word); return a) depth text = some (b, rest) ↔ b = a ∧ text = word ++ rest := by
  simp only [bind_pure_comp, result?_map, result?_drop, Option.map_map, Option.map_eq_some_iff, Function.comp_apply,
    Prod.mk.injEq, toOption_eq_some_iff, dropWord_eq_ok_iff]
  constructor
  · rintro ⟨after, htext, rfl, rfl⟩
    exact ⟨rfl, htext⟩
  · rintro ⟨rfl, htext⟩
    exact ⟨rest, htext, rfl, rfl⟩

theorem scalar_of_result?_scalar {c : Char} {tail : List Char} {v : Value}
    (h : result? (scalar c) depth (c :: tail) = some (v, rest)) : Scalar (c :: tail) v rest := by
  unfold scalar at h
  split at h
  · obtain ⟨rfl, htext⟩ := result?_word_eq_some_iff.mp h
    exact htext ▸ .null rest
  · obtain ⟨rfl, htext⟩ := result?_word_eq_some_iff.mp h
    exact htext ▸ .true rest
  · obtain ⟨rfl, htext⟩ := result?_word_eq_some_iff.mp h
    exact htext ▸ .false rest
  · simp only [bind_pure_comp, result?_bind, result?_advance, List.tail_cons, Option.bind_some, result?_map, result?_take,
      Option.map_eq_some_iff, Prod.mk.injEq, toOption_eq_some_iff] at h
    obtain ⟨⟨s, after⟩, hread, rfl, rfl⟩ := h
    exact .string hread
  · split_ifs at h with hnumber
    · simp only [bind_pure_comp, result?_map, result?_take, Option.map_eq_some_iff, Prod.mk.injEq,
        toOption_eq_some_iff] at h
      obtain ⟨⟨n, after⟩, hread, rfl, rfl⟩ := h
      exact .number hread
    · contradiction

section

variable {item : List Char → Value → List Char → Prop} {p : Reader Value}
  (hitem : ∀ {text v rest}, result? p depth text = some (v, rest) → item text v rest)

include hitem

theorem elements_of_result? {fuel : Nat} {first : Bool} {read before : List Value}
    (h : result? (elements (fun items => do return (← p) :: items) fuel first before) depth text = some (read, rest)) :
    ∃ items after, Elements item first text items after ∧ read = items.reverse ++ before ∧ rest = ']' :: after := by
  induction fuel generalizing first text before with
  | zero => simp [elements] at h
  | succ fuel ih =>
    simp only [elements, result?_bind, Option.bind_eq_some_iff] at h
    obtain ⟨⟨follows, start⟩, hfollows, h⟩ := h
    obtain ⟨rfl, htext, hhead⟩ | ⟨rfl, hstart⟩ := close_or_starts_of_hasElement hfollows
    · simp only [Bool.false_eq_true, if_false, result?_pure, Option.some.injEq, Prod.mk.injEq] at h
      obtain ⟨rfl, rfl⟩ := h
      obtain ⟨after, rfl⟩ := List.head?_eq_some_iff.mp hhead
      exact ⟨[], after, .done htext, rfl, rfl⟩
    · simp only [if_true, result?_bind, Option.bind_eq_some_iff] at h
      obtain ⟨⟨_, inner⟩, ⟨⟨v, _⟩, hv, hpair⟩, h⟩ := h
      obtain ⟨rfl, rfl⟩ := Prod.mk.inj (Option.some.inj hpair)
      obtain ⟨items, after, hitems, rfl, rfl⟩ := ih h
      exact ⟨v :: items, after, .next hstart (hitem hv) hitems, by simp, rfl⟩

theorem members_of_result? {fuel : Nat} {first : Bool} {read before : List (Value × Value)}
    (h : result? (members (fun key entries => do
        colon
        return (.string key, ← p) :: entries) fuel first before) depth text = some (read, rest)) :
    ∃ entries after, Members item first text entries after ∧ read = entries.reverse ++ before ∧ rest = '}' :: after := by
  induction fuel generalizing first text before with
  | zero => simp [members] at h
  | succ fuel ih =>
    simp only [members, result?_bind, Option.bind_eq_some_iff] at h
    obtain ⟨⟨follows, start⟩, hfollows, h⟩ := h
    obtain ⟨rfl, htext, hhead⟩ | ⟨rfl, hstart⟩ := close_or_starts_of_hasMember hfollows
    · simp only [Bool.false_eq_true, if_false, result?_pure, Option.some.injEq, Prod.mk.injEq] at h
      obtain ⟨rfl, rfl⟩ := h
      obtain ⟨after, rfl⟩ := List.head?_eq_some_iff.mp hhead
      exact ⟨[], after, .done htext, rfl, rfl⟩
    · simp only [if_true, result?_bind, Option.bind_eq_some_iff, result?_take, toOption_eq_some_iff,
        result?_pure] at h
      obtain ⟨⟨key, _⟩, hkey, ⟨_, inner⟩, ⟨_, hcolon, ⟨v, _⟩, hv, hpair⟩, h⟩ := h
      obtain ⟨rfl, rfl⟩ := Prod.mk.inj (Option.some.inj hpair)
      obtain ⟨entries, after, hentries, rfl, rfl⟩ := ih h
      exact ⟨(.string (String.ofList key), v) :: entries, after,
        .next hstart hkey (result?_colon_eq_some_iff.mp hcolon) (hitem hv) hentries, by simp, rfl⟩

end

theorem result?_array_eq_some_iff {step : σ → Reader σ} {s s' : σ} {inner : List Char} :
    result? (array step s) (depth + 2) ('[' :: inner) = some (s', rest) ↔
      ∃ after, result? (elements step (inner.length + 1) true s) (depth + 1) inner = some (s', after) ∧
        dropBlanks after = ']' :: rest := by
  simp only [array, bind_pure_comp, result?_bind, result?_nested, List.tail_cons, result?_remaining, Option.bind_some,
    result?_map, Option.bind_eq_some_iff, Option.map_eq_some_iff, Prod.mk.injEq]
  constructor
  · rintro ⟨⟨_, after⟩, helements, ⟨_, _⟩, hclose, rfl, rfl⟩
    exact ⟨after, helements, result?_close_eq_some_iff.mp hclose⟩
  · rintro ⟨after, helements, hclose⟩
    exact ⟨(s', after), helements, ((), rest), result?_close_eq_some_iff.mpr hclose, rfl, rfl⟩

theorem result?_object_eq_some_iff {step : String → σ → Reader σ} {s s' : σ} {inner : List Char} :
    result? (object step s) (depth + 2) ('{' :: inner) = some (s', rest) ↔
      ∃ after, result? (members step (inner.length + 1) true s) (depth + 1) inner = some (s', after) ∧
        dropBlanks after = '}' :: rest := by
  simp only [object, bind_pure_comp, result?_bind, result?_nested, List.tail_cons, result?_remaining, Option.bind_some,
    result?_map, Option.bind_eq_some_iff, Option.map_eq_some_iff, Prod.mk.injEq]
  constructor
  · rintro ⟨⟨_, after⟩, hmembers, ⟨_, _⟩, hclose, rfl, rfl⟩
    exact ⟨after, hmembers, result?_close_eq_some_iff.mp hclose⟩
  · rintro ⟨after, hmembers, hclose⟩
    exact ⟨(s', after), hmembers, ((), rest), result?_close_eq_some_iff.mpr hclose, rfl, rfl⟩

theorem result?_valueWithin_zero {c : Char} {tail : List Char} (htext : dropBlanks text = c :: tail) :
    result? (valueWithin 0) depth text = if c = '[' ∨ c = '{' then none else result? (scalar c) depth (c :: tail) := by
  by_cases hsequence : c = '['
  · subst hsequence
    simp [valueWithin, htext]
  · by_cases hmapping : c = '{'
    · subst hmapping
      simp [valueWithin, htext]
    · simp [valueWithin, htext, hsequence, hmapping]

theorem result?_valueWithin_succ {levels : Nat} {c : Char} {tail : List Char} (htext : dropBlanks text = c :: tail) :
    result? (valueWithin (levels + 1)) depth text =
      if c = '[' then
        (result? (array (fun items => do return (← valueWithin levels) :: items) []) depth (c :: tail)).map
          fun r => (.sequence r.1.reverse, r.2)
      else if c = '{' then
        (result? (object (fun key entries => do
            colon
            return (.string key, ← valueWithin levels) :: entries) []) depth (c :: tail)).map
          fun r => (.mapping r.1.reverse, r.2)
      else result? (scalar c) depth (c :: tail) := by
  by_cases hsequence : c = '['
  · subst hsequence
    simp [valueWithin, htext]
  · by_cases hmapping : c = '{'
    · subst hmapping
      simp [valueWithin, htext]
    · simp [valueWithin, htext, hsequence, hmapping]

theorem spells_of_result?_valueWithin {levels : Nat} {v : Value}
    (h : result? (valueWithin levels) (levels + 1) text = some (v, rest)) : Spells levels text v rest := by
  induction levels generalizing text v rest with
  | zero =>
    cases htext : dropBlanks text with
    | nil => simp [valueWithin, htext] at h
    | cons c tail =>
      rw [result?_valueWithin_zero htext] at h
      split_ifs at h
      unfold Spells
      exact htext ▸ scalar_of_result?_scalar h
  | succ levels ih =>
    cases htext : dropBlanks text with
    | nil => simp [valueWithin, htext] at h
    | cons c tail =>
      rw [result?_valueWithin_succ htext] at h
      split_ifs at h with hsequence hmapping
      · subst hsequence
        obtain ⟨⟨read, _⟩, harray, hpair⟩ := Option.map_eq_some_iff.mp h
        obtain ⟨rfl, rfl⟩ := Prod.mk.inj hpair
        obtain ⟨after, helements, hclose⟩ := result?_array_eq_some_iff.mp harray
        obtain ⟨items, closed, hitems, rfl, rfl⟩ := elements_of_result? ih helements
        obtain ⟨-, rfl⟩ := List.cons.inj ((dropBlanks_of_not_isBlank rfl closed).symm.trans hclose)
        rw [List.append_nil, List.reverse_reverse]
        exact .sequence htext hitems
      · subst hmapping
        obtain ⟨⟨read, _⟩, hobject, hpair⟩ := Option.map_eq_some_iff.mp h
        obtain ⟨rfl, rfl⟩ := Prod.mk.inj hpair
        obtain ⟨after, hmembers, hclose⟩ := result?_object_eq_some_iff.mp hobject
        obtain ⟨entries, closed, hentries, rfl, rfl⟩ := members_of_result? ih hmembers
        obtain ⟨-, rfl⟩ := List.cons.inj ((dropBlanks_of_not_isBlank rfl closed).symm.trans hclose)
        rw [List.append_nil, List.reverse_reverse]
        exact .mapping htext hentries
      · exact .scalar (htext ▸ scalar_of_result?_scalar h)

/-- Puts what was read in front of what was read before. -/
def collect (before : List α) (a : α) : Except Fault (List α) :=
  .ok (a :: before)

theorem foldlM_collect (items before : List α) : items.foldlM collect before = .ok (items.reverse ++ before) := by
  induction items generalizing before with
  | nil => rfl
  | cons a items ih =>
    rw [List.foldlM_cons, collect, List.reverse_cons, List.append_assoc]
    exact ih (a :: before)

theorem result?_valueWithin_of_spells {levels : Nat} {v : Value} (h : Spells levels text v rest) :
    result? (valueWithin levels) (levels + 1) text = some (v, rest) := by
  induction levels generalizing text v rest with
  | zero =>
    obtain ⟨c, tail, htext, hsequence, hmapping, -, hscalar⟩ := result?_scalar_of_scalar _ h
    rw [result?_valueWithin_zero htext, if_neg (by simp [hsequence, hmapping])]
    exact htext ▸ hscalar
  | succ levels ih =>
    cases h with
    | scalar h =>
      obtain ⟨c, tail, htext, hsequence, hmapping, -, hscalar⟩ := result?_scalar_of_scalar _ h
      rw [result?_valueWithin_succ htext, if_neg hsequence, if_neg hmapping]
      exact htext ▸ hscalar
    | sequence htext hitems =>
      have hstep : ∀ (before : List Value) {text v rest}, Spells levels text v rest →
          result? (do return (← valueWithin levels) :: before) (levels + 1) text = (collect before v).toOption.map (·, rest) := by
        intro before text v rest hv
        simp [ih hv, collect]
      rw [result?_valueWithin_succ htext, if_pos rfl, result?_array Spells.length_lt hstep hitems, foldlM_collect]
      simp
    | mapping htext hentries =>
      have hstep : ∀ (before : List (Value × Value)) (key : String) {after text v rest}, dropBlanks after = ':' :: text →
          Spells levels text v rest →
          result? (do
            colon
            return (.string key, ← valueWithin levels) :: before) (levels + 1) after =
            (collect before (.string key, v)).toOption.map (·, rest) := by
        intro before key after text v rest hcolon hv
        simp [result?_colon hcolon, ih hv, collect]
      rw [result?_valueWithin_succ htext, if_neg (by decide), if_pos rfl, result?_object Spells.length_lt hstep hentries,
        foldlM_collect]
      simp

end Reader

/-! ### Whole texts -/

theorem read_eq_ok_iff {α : Type} {reader : Reader α} {text : String} {a : α} :
    read reader text = .ok a ↔
      ∃ rest, reader.result? depthLimit text.toList = some (a, rest) ∧ dropBlanks rest = [] := by
  unfold read Reader.result?
  cases reader depthLimit text.toList with
  | error error => simp
  | ok r =>
    obtain ⟨b, rest⟩ := r
    by_cases hrest : dropBlanks rest = []
    · simp [hrest]
    · simp only [List.isEmpty_iff, hrest, if_false, reduceCtorEq, toOption_ok, Option.some.injEq, Prod.mk.injEq, false_iff]
      rintro ⟨_, ⟨-, rfl⟩, hempty⟩
      exact hrest hempty

/-- What a text is read as is the value that it spells, up to blanks after it. -/
theorem parse_eq_ok_iff {text : String} {v : Value} :
    parse text = .ok v ↔ ∃ rest, Spells (depthLimit - 1) text.toList v rest ∧ dropBlanks rest = [] := by
  rw [parse, read_eq_ok_iff]
  have hvalue : Reader.value.result? depthLimit text.toList =
      (Reader.valueWithin (depthLimit - 1)).result? depthLimit text.toList := by
    simp [Reader.value]
  rw [hvalue]
  constructor
  · rintro ⟨rest, hread, hrest⟩
    exact ⟨rest, Reader.spells_of_result?_valueWithin hread, hrest⟩
  · rintro ⟨rest, hspells, hrest⟩
    exact ⟨rest, Reader.result?_valueWithin_of_spells hspells, hrest⟩

/-- A text of a mapping is an object with nothing but blanks around it. -/
theorem exists_members_of_parse {text : String} {entries : List (Value × Value)} (h : parse text = .ok (.mapping entries)) :
    ∃ inner rest, dropBlanks text.toList = '{' :: inner ∧ Members (Spells (depthLimit - 2)) true inner entries rest ∧
      dropBlanks rest = [] := by
  obtain ⟨rest, hspells, hrest⟩ := parse_eq_ok_iff.mp h
  cases hspells with
  | scalar h =>
    -- No scalar is a mapping.
    generalize dropBlanks text.toList = start at h
    generalize hv : Value.mapping entries = v at h
    cases h with
    | @number _ _ n _ => cases n <;> contradiction
    | _ => contradiction
  | mapping htext hentries => exact ⟨_, rest, htext, hentries, hrest⟩

theorem stringKeyed_of_parse {text : String} {entries : List (Value × Value)} (h : parse text = .ok (.mapping entries)) :
    StringKeyed entries := by
  obtain ⟨_, _, -, hentries, -⟩ := exists_members_of_parse h
  exact hentries.stringKeyed

end SourceRecipes.Json
