import SourceRecipes.Proofs.Json.Grammar

/-!
# What readers make of a text

Which error a reader ends with does not matter here: a reader has a result or none. The loops over the elements of an array
and the members of an object are folds over what the grammar finds there.
-/

namespace SourceRecipes.Json

namespace Reader

variable {α β σ : Type} {depth : Nat} {text rest : List Char}

def result? (p : Reader α) (depth : Nat) (text : List Char) : Option (α × List Char) :=
  (p depth text).toOption

@[simp]
theorem result?_pure (a : α) : result? (pure a) depth text = some (a, text) := rfl

@[simp]
theorem result?_raise (error : Error) : result? (raise error : Reader α) depth text = none := rfl

@[simp]
theorem result?_bind (p : Reader α) (f : α → Reader β) :
    result? (p >>= f) depth text = (result? p depth text).bind fun r => result? (f r.1) depth r.2 := by
  change ((p depth text) >>= fun r => f r.1 depth r.2).toOption = _
  exact toOption_bind _ _

@[simp]
theorem result?_map (f : α → β) (p : Reader α) :
    result? (f <$> p) depth text = (result? p depth text).map fun r => (f r.1, r.2) := by
  rw [map_eq_pure_bind, result?_bind]
  cases result? p depth text <;> rfl

@[simp]
theorem result?_ofExcept (x : Except Fault α) : result? (ofExcept x) depth text = x.toOption.map (·, text) := by
  cases x <;> rfl

@[simp]
theorem result?_take (f : List Char → Except Error (α × List Char)) :
    result? (take f) depth text = (f text).toOption := rfl

@[simp]
theorem result?_drop (f : List Char → Except Error (List Char)) :
    result? (drop f) depth text = (f text).toOption.map ((), ·) :=
  toOption_map _ _

@[simp]
theorem result?_peek : result? peek depth text = some ((dropBlanks text).head?, dropBlanks text) := rfl

@[simp]
theorem result?_advance : result? advance depth text = some ((), text.tail) := rfl

@[simp]
theorem result?_remaining : result? remaining depth text = some (text.length, text) := rfl

@[simp]
theorem result?_read : result? (MonadReader.read : Reader Nat) depth text = some (depth, text) := rfl

@[simp]
theorem result?_nested (inside : Reader α) : result? (nested inside) (depth + 2) text = result? inside (depth + 1) text.tail :=
  rfl

@[simp]
theorem result?_start :
    result? start depth text = (dropBlanks text).head?.map (·, dropBlanks text) := by
  rw [start, result?_bind, result?_peek]
  cases (dropBlanks text).head? <;> rfl

theorem result?_close_eq_some_iff {bracket : Char} {u : Unit} :
    result? (close bracket) depth text = some (u, rest) ↔ dropBlanks text = bracket :: rest := by
  cases htext : dropBlanks text with
  | nil => simp [close, htext]
  | cons c tail =>
    by_cases hc : c = bracket
    · simp [close, htext, hc]
    · simp [close, htext, hc]

theorem result?_close {bracket : Char} (h : dropBlanks text = bracket :: rest) :
    result? (close bracket) depth text = some ((), rest) :=
  result?_close_eq_some_iff.mpr h

theorem result?_colon_eq_some_iff {u : Unit} :
    result? colon depth text = some (u, rest) ↔ dropBlanks text = ':' :: rest := by
  cases htext : dropBlanks text with
  | nil => simp [colon, htext]
  | cons c tail =>
    by_cases hc : c = ':'
    · simp [colon, htext, hc]
    · simp [colon, htext, hc]

theorem result?_colon (h : dropBlanks text = ':' :: rest) : result? colon depth text = some ((), rest) :=
  result?_colon_eq_some_iff.mpr h

/-! ### Elements and members -/

theorem result?_hasElement_of_close {first : Bool} (h : dropBlanks text = ']' :: rest) :
    result? (hasElement first) depth text = some (false, ']' :: rest) := by
  simp [hasElement, h]

theorem result?_hasElement_of_starts {first : Bool} {start : List Char} (h : StartsElement first text start) :
    result? (hasElement first) depth text = some (true, start) := by
  cases h with
  | @first _ tail c htext hc =>
    by_cases hcomma : c = ','
    · simp [hasElement, htext, hcomma]
    · simp [hasElement, htext]
  | later htext hafter hc => simp [hasElement, htext, hafter]

/-- Nothing else counts as the end of an array or as the beginning of an element. -/
theorem close_or_starts_of_hasElement {first follows : Bool}
    (h : result? (hasElement first) depth text = some (follows, rest)) :
    follows = false ∧ dropBlanks text = rest ∧ rest.head? = some ']' ∨ follows = true ∧ StartsElement first text rest := by
  cases htext : dropBlanks text with
  | nil => simp [hasElement, htext] at h
  | cons c tail =>
    by_cases hclose : c = ']'
    · subst hclose
      rw [result?_hasElement_of_close htext] at h
      obtain ⟨rfl, rfl⟩ := Prod.mk.inj (Option.some.inj h)
      exact .inl ⟨rfl, rfl, rfl⟩
    · cases first with
      | true =>
        rw [result?_hasElement_of_starts (.first htext hclose)] at h
        obtain ⟨rfl, rfl⟩ := Prod.mk.inj (Option.some.inj h)
        exact .inr ⟨rfl, .first htext hclose⟩
      | false =>
        by_cases hcomma : c = ','
        · subst hcomma
          cases hafter : dropBlanks tail with
          | nil => simp [hasElement, htext, hafter] at h
          | cons d after =>
            by_cases hd : d = ']'
            · simp [hasElement, htext, hafter, hd] at h
            · rw [result?_hasElement_of_starts (.later htext hafter hd)] at h
              obtain ⟨rfl, rfl⟩ := Prod.mk.inj (Option.some.inj h)
              exact .inr ⟨rfl, .later htext hafter hd⟩
        · simp [hasElement, htext] at h

theorem result?_hasMember_of_close {first : Bool} (h : dropBlanks text = '}' :: rest) :
    result? (hasMember first) depth text = some (false, '}' :: rest) := by
  simp [hasMember, h]

theorem result?_hasMember_of_starts {first : Bool} {start : List Char} (h : StartsMember first text start) :
    result? (hasMember first) depth text = some (true, start) := by
  cases h with
  | first htext => simp [hasMember, htext]
  | later htext hafter => simp [hasMember, htext, hafter]

/-- Nothing else counts as the end of an object or as the beginning of a member. -/
theorem close_or_starts_of_hasMember {first follows : Bool}
    (h : result? (hasMember first) depth text = some (follows, rest)) :
    follows = false ∧ dropBlanks text = rest ∧ rest.head? = some '}' ∨ follows = true ∧ StartsMember first text rest := by
  cases htext : dropBlanks text with
  | nil => simp [hasMember, htext] at h
  | cons c tail =>
    by_cases hclose : c = '}'
    · subst hclose
      rw [result?_hasMember_of_close htext] at h
      obtain ⟨rfl, rfl⟩ := Prod.mk.inj (Option.some.inj h)
      exact .inl ⟨rfl, rfl, rfl⟩
    · by_cases hcomma : c = ','
      · subst hcomma
        cases first with
        | true => simp [hasMember, htext] at h
        | false =>
          cases hafter : dropBlanks tail with
          | nil => simp [hasMember, htext, hafter] at h
          | cons d after =>
            by_cases hquote : d = '"'
            · subst hquote
              rw [result?_hasMember_of_starts (.later htext hafter)] at h
              obtain ⟨rfl, rfl⟩ := Prod.mk.inj (Option.some.inj h)
              exact .inr ⟨rfl, .later htext hafter⟩
            · simp [hasMember, htext, hafter] at h
      · by_cases hquote : c = '"'
        · subst hquote
          cases first with
          | true =>
            rw [result?_hasMember_of_starts (.first htext)] at h
            obtain ⟨rfl, rfl⟩ := Prod.mk.inj (Option.some.inj h)
            exact .inr ⟨rfl, .first htext⟩
          | false => simp [hasMember, htext] at h
        · simp [hasMember, htext] at h

section

variable {item : List Char → Value → List Char → Prop} {first : Bool}

/-- Elements that one step takes into a state are taken into it one by one. -/
theorem result?_elements {step : σ → Reader σ} {f : σ → Value → Except Fault σ}
    (hstep : ∀ s {text v rest}, item text v rest → result? (step s) depth text = (f s v).toOption.map (·, rest))
    {items : List Value} (h : Elements item first text items rest) {fuel : Nat} (hfuel : items.length < fuel) (s : σ) :
    result? (elements step fuel first s) depth text = (items.foldlM f s).toOption.map (·, ']' :: rest) := by
  induction h generalizing fuel s with
  | done h =>
    obtain ⟨fuel, rfl⟩ := Nat.exists_eq_add_one.mpr hfuel
    simp [elements, result?_hasElement_of_close h]
  | @next _ text start after rest v items hstart hitem _ ih =>
    obtain ⟨fuel, rfl⟩ := Nat.exists_eq_add_one.mpr (Nat.zero_lt_of_lt hfuel)
    rw [List.length_cons] at hfuel
    simp only [elements, result?_bind, result?_hasElement_of_starts hstart, Option.bind_some, if_true, hstep s hitem,
      List.foldlM_cons]
    cases f s v with
    | error fault => rfl
    | ok s' => exact ih (by omega) s'

theorem result?_members {step : String → σ → Reader σ} {f : σ → Value × Value → Except Fault σ}
    (hstep : ∀ s key {colon text v rest}, dropBlanks colon = ':' :: text → item text v rest →
      result? (step key s) depth colon = (f s (.string key, v)).toOption.map (·, rest))
    {entries : List (Value × Value)} (h : Members item first text entries rest) {fuel : Nat} (hfuel : entries.length < fuel)
    (s : σ) : result? (members step fuel first s) depth text = (entries.foldlM f s).toOption.map (·, '}' :: rest) := by
  induction h generalizing fuel s with
  | done h =>
    obtain ⟨fuel, rfl⟩ := Nat.exists_eq_add_one.mpr hfuel
    simp [members, result?_hasMember_of_close h]
  | @next _ text start key colon inner after rest v entries hstart hkey hcolon hitem _ ih =>
    obtain ⟨fuel, rfl⟩ := Nat.exists_eq_add_one.mpr (Nat.zero_lt_of_lt hfuel)
    rw [List.length_cons] at hfuel
    simp only [members, result?_bind, result?_hasMember_of_starts hstart, Option.bind_some, if_true, result?_take, hkey,
      toOption_ok, hstep s (String.ofList key) hcolon hitem, List.foldlM_cons]
    cases f s (.string (String.ofList key), v) with
    | error fault => rfl
    | ok s' => exact ih (by omega) s'

variable (hlength : ∀ {text v rest}, item text v rest → rest.length < text.length)

include hlength

theorem result?_array {step : σ → Reader σ} {f : σ → Value → Except Fault σ}
    (hstep : ∀ s {text v rest}, item text v rest → result? (step s) (depth + 1) text = (f s v).toOption.map (·, rest))
    {items : List Value} {inner : List Char} (h : Elements item true inner items rest) (s : σ) :
    result? (array step s) (depth + 2) ('[' :: inner) = (items.foldlM f s).toOption.map (·, rest) := by
  have hfuel := h.length_lt hlength
  rw [array, result?_bind, result?_nested, result?_bind, result?_remaining, Option.bind_some, List.tail_cons,
    result?_elements hstep h (by omega)]
  cases items.foldlM f s with
  | error fault => rfl
  | ok s' => simp [result?_close (dropBlanks_of_not_isBlank (show isBlank ']' = false from rfl) rest)]

theorem result?_object {step : String → σ → Reader σ} {f : σ → Value × Value → Except Fault σ}
    (hstep : ∀ s key {colon text v rest}, dropBlanks colon = ':' :: text → item text v rest →
      result? (step key s) (depth + 1) colon = (f s (.string key, v)).toOption.map (·, rest))
    {entries : List (Value × Value)} {inner : List Char} (h : Members item true inner entries rest) (s : σ) :
    result? (object step s) (depth + 2) ('{' :: inner) = (entries.foldlM f s).toOption.map (·, rest) := by
  have hfuel := h.length_lt hlength
  rw [object, result?_bind, result?_nested, result?_bind, result?_remaining, Option.bind_some, List.tail_cons,
    result?_members hstep h (by omega)]
  cases entries.foldlM f s with
  | error fault => rfl
  | ok s' => simp [result?_close (dropBlanks_of_not_isBlank (show isBlank '}' = false from rfl) rest)]

end

end Reader

end SourceRecipes.Json
