import SourceRecipes.Proofs.Json.Agreement

/-!
# Records in texts and in values

The two layouts of a record agree when their fields do, one by one. Then the record reads the same from a text and from its
value, whether it is given by names or by places, and so does a record that says its kind.
-/

namespace SourceRecipes.Json

open Reader Record

variable {δ : Type}

structure FieldAgrees (f : Field Reader δ) (g : Field FromValue δ) : Prop where
  key : f.key = g.key
  required : f.required = g.required
  read : ∀ record, Agrees (f.read record) (g.read record)

structure RecordAgrees (r : Record Reader δ) (s : Record FromValue δ) : Prop where
  blank : r.blank = s.blank
  fields : List.Forall₂ FieldAgrees r.fields s.fields

section

variable {fields : List (Field Reader δ)} {fields' : List (Field FromValue δ)}

theorem findIdx?_of_agrees (h : List.Forall₂ FieldAgrees fields fields') (key : String) :
    (fields.findIdx? fun f => f.key == key) = fields'.findIdx? fun f => f.key == key := by
  induction h with
  | nil => rfl
  | cons hfield _ ih => rw [List.findIdx?_cons, List.findIdx?_cons, hfield.key, ih]

theorem getElem?_of_forall₂ {α β : Type} {R : α → β → Prop} {as : List α} {bs : List β} (h : List.Forall₂ R as bs)
    (index : Nat) : as[index]? = none ∧ bs[index]? = none ∨ ∃ a b, as[index]? = some a ∧ bs[index]? = some b ∧ R a b := by
  induction h generalizing index with
  | nil => exact .inl ⟨rfl, rfl⟩
  | cons hfirst _ ih =>
    cases index with
    | zero => exact .inr ⟨_, _, rfl, rfl, hfirst⟩
    | succ index => exact ih index

theorem firstMissing_of_agrees (h : List.Forall₂ FieldAgrees fields fields') (seen : List Nat) (index : Nat) :
    firstMissing seen index fields = firstMissing seen index fields' := by
  induction h generalizing index with
  | nil => rfl
  | cons hfield _ ih => rw [firstMissing, firstMissing, hfield.required, hfield.key, ih]

end

variable {r : Record Reader δ} {s : Record FromValue δ} {levels : Nat} {text rest : List Char} {v : Value}

theorem RecordAgrees.finish (h : RecordAgrees r s) (draft : Draft δ) : r.finish draft = s.finish draft := by
  rw [Record.finish, Record.finish, firstMissing_of_agrees h.fields]

theorem RecordAgrees.begin (h : RecordAgrees r s) : r.begin = s.begin :=
  congrArg (Draft.mk · []) h.blank

theorem RecordAgrees.fieldIndex?_string (h : RecordAgrees r s) (key : String) :
    FromValue.fieldIndex? s (.string key) = .ok (r.fields.findIdx? fun f => f.key == key) := by
  rw [findIdx?_of_agrees h.fields]
  rfl

theorem RecordAgrees.result?_member (h : RecordAgrees r s) (draft : Draft δ) (key : String) {after : List Char}
    (hcolon : dropBlanks after = ':' :: text) (hv : Spells levels text v rest) :
    result? (member r key draft) (levels + 1) after =
      (FromValue.takeEntry s draft (.string key, v)).toOption.map (·, rest) := by
  rw [FromValue.takeEntry, h.fieldIndex?_string, member]
  cases hfind : r.fields.findIdx? fun f => f.key == key with
  | none =>
    change result? (do colon; skip; return draft) (levels + 1) after = some (draft, rest)
    rw [result?_bind, result?_colon hcolon, Option.bind_some, result?_bind, result?_skip hv]
    rfl
  | some index =>
    obtain ⟨hr, -⟩ | ⟨f, f', hr, hs, hfield⟩ := getElem?_of_forall₂ h.fields index
    · -- The place that was found is the place of a field.
      obtain ⟨hbound, -⟩ := List.findIdx?_eq_some_iff_getElem.mp hfind
      exact absurd hbound (by simpa using hr)
    · simp only [hr, hs]
      by_cases hseen : draft.seen.contains index = true
      · rw [if_pos hseen, if_pos hseen]
        rfl
      · rw [if_neg hseen, if_neg hseen, result?_bind, result?_colon hcolon, Option.bind_some, result?_bind,
          hfield.read draft.record hv, toOption_map]
        cases (f'.read draft.record v).toOption <;> rfl

theorem result?_close_of_starts {depth : Nat} {first : Bool} {start : List Char} (h : StartsElement first text start) :
    result? (close ']') depth text = none := by
  cases h with
  | first htext hc => simp [close, htext, hc]
  | later htext _ _ => simp [close, htext]

/-- Fields by their places: the fields left are read from the elements left, and then the array has to end. -/
theorem result?_positional (name name' : String) (total total' index : Nat) {first : Bool} {fields : List (Field Reader δ)}
    {fields' : List (Field FromValue δ)} (h : List.Forall₂ FieldAgrees fields fields') {items : List Value}
    (hitems : Elements (Spells levels) first text items rest) (record : δ) (depth : Nat) :
    ((result? (positional name total index first fields record) (levels + 1) text).bind fun read =>
      (result? (close ']') depth read.2).map fun closed => (read.1, closed.2)) =
      (FromValue.positional name' total' index fields' items record).toOption.map (·, rest) := by
  induction h generalizing index first text items record with
  | nil =>
    cases hitems with
    | done hclose => simp [positional, FromValue.positional, result?_close hclose]
    | next hstart _ _ => simp [positional, FromValue.positional, result?_close_of_starts hstart]
  | @cons f f' fields fields' hfield _ ih =>
    cases hitems with
    | done hclose =>
      rw [positional, FromValue.positional, result?_bind, result?_hasElement_of_close hclose, ← hfield.required]
      by_cases hrequired : f.required = true
      · simp [hrequired]
      · have hend : Elements (Spells levels) first (']' :: rest) [] rest := .done (dropBlanks_of_not_isBlank rfl rest)
        have hrest := ih (index + 1) hend record
        simpa [hrequired] using hrest
    | @next _ _ start after _ v items hstart hitem hrest =>
      have hread := hfield.read record hitem
      rw [positional, FromValue.positional, result?_bind, result?_hasElement_of_starts hstart]
      cases hvalue : f'.read record v with
      | error fault => simp [hread, hvalue]
      | ok record' =>
        have hfields := ih (index + 1) hrest record'
        simpa [hread, hvalue] using hfields

theorem RecordAgrees.agrees (h : RecordAgrees r s) : Agrees (DataSource.record r) (DataSource.record s) := by
  intro levels text rest v hspells
  change result? (Reader.record r) _ _ = _
  obtain hscalar | ⟨inside, inner, items, rfl, rfl, htext, hitems⟩ | ⟨inside, inner, entries, rfl, rfl, htext, hentries⟩ :=
    hspells.scalar_or_nested
  · obtain ⟨c, tail, htext, hsequence, hmapping, -, -⟩ := result?_scalar_of_scalar levels hscalar
    have hvalue : ((DataSource.record s : FromValue δ) v).toOption = none := by
      generalize dropBlanks text = start at hscalar
      cases hscalar with
      | @number _ _ n _ => cases n <;> rfl
      | _ => rfl
    simp [Reader.record, htext, hvalue]
  · have hfields := result?_positional r.name s.name r.fields.length s.fields.length 0 h.fields hitems r.blank (inside + 2)
    rw [Reader.record, result?_bind, result?_start, htext]
    change result? (do
      let result ← nested (positional r.name r.fields.length 0 true r.fields r.blank)
      close ']'
      return result) (inside + 2) ('[' :: inner) = _
    rw [result?_bind, result?_nested, List.tail_cons]
    simp only [bind_pure_comp, result?_map]
    rw [hfields, h.blank]
    rfl
  · have hstep : ∀ (draft : Draft δ) (key : String) {after text v rest}, dropBlanks after = ':' :: text →
        Spells inside text v rest →
        result? (member r key draft) (inside + 1) after =
          (FromValue.takeEntry s draft (Value.string key, v)).toOption.map (·, rest) := by
      intro draft key after text v rest hcolon hv
      exact h.result?_member draft key hcolon hv
    have hlength := hentries.length_lt Spells.length_lt
    have hmembers := result?_members hstep hentries (show entries.length < inner.length + 1 by omega) r.begin
    have hvalue : (DataSource.record s : FromValue δ) (.mapping entries) =
        entries.foldlM (FromValue.takeEntry s) s.begin >>= s.finish := FromValue.named_eq_foldlM s entries s.begin
    rw [hvalue, toOption_bind, Reader.record, result?_bind, result?_start, htext]
    change result? (do
      let result ← nested do
        let draft ← members (member r) ((← remaining) + 1) true r.begin
        ofExcept (r.finish draft)
      close '}'
      return result) (inside + 2) ('{' :: inner) = _
    rw [result?_bind, result?_nested, List.tail_cons, result?_bind, result?_remaining, Option.bind_some, result?_bind,
      hmembers, ← h.begin]
    cases entries.foldlM (FromValue.takeEntry s) r.begin with
    | error fault => rfl
    | ok draft =>
      have hclose : result? (close '}') (inside + 2) ('}' :: rest) = some ((), rest) :=
        result?_close (dropBlanks_of_not_isBlank rfl rest)
      have hfinish := h.finish draft
      cases hs : s.finish draft <;> simp [hfinish, hs, hclose]

/-! ### Records that say their kind -/

variable {τ α : Type} (kind : String → Except Fault τ)

theorem agrees_kindName : Agrees (kindName kind) (FromValue.kindName kind) := by
  intro levels text rest v h
  obtain h | ⟨_, _, _, rfl, rfl, htext, -⟩ | ⟨_, _, _, rfl, rfl, htext, -⟩ := h.scalar_or_nested
  · generalize htext : dropBlanks text = start at h
    cases h with
    | null | true | false => simp [kindName, FromValue.kindName, htext]
    | string h => simp [kindName, FromValue.kindName, htext, h]
    | @number _ _ n h =>
      obtain ⟨c, tail, rfl, hc⟩ := startsNumber_of_readNumber h
      have hquote : c ≠ '"' := hc.ne (by decide)
      cases n <;> simp [kindName, FromValue.kindName, Number.value, htext]
  · simp [kindName, FromValue.kindName, htext]
  · simp [kindName, FromValue.kindName, htext]

theorem result?_value (h : Spells levels text v rest) : result? value (levels + 1) text = some (v, rest) := by
  simp [value, result?_valueWithin_of_spells h]

theorem result?_taggedMember (tag key : String) (kept : Option τ × List (Value × Value)) {after : List Char}
    (hcolon : dropBlanks after = ':' :: text) (hv : Spells levels text v rest) :
    result? (taggedMember tag kind key kept) (levels + 1) after =
      (FromValue.taggedEntry tag kind kept (.string key, v)).toOption.map (·, rest) := by
  rw [taggedMember, FromValue.taggedEntry]
  by_cases hkey : key = tag
  · rw [if_pos hkey, if_pos hkey]
    by_cases hkind : kept.1.isSome = true
    · rw [if_pos hkind, if_pos hkind]
      rfl
    · rw [if_neg hkind, if_neg hkind, result?_bind, result?_colon hcolon, Option.bind_some, result?_bind,
        agrees_kindName kind hv, toOption_map]
      cases (FromValue.kindName kind v).toOption <;> rfl
  · rw [if_neg hkey, if_neg hkey, result?_bind, result?_colon hcolon, Option.bind_some, result?_bind, result?_value hv]
    rfl

theorem agrees_kindAndRest (name tag : String) :
    Agrees (kindAndRest name tag kind) (FromValue.kindAndRest name tag kind) := by
  intro levels text rest v hspells
  obtain hscalar | ⟨inside, inner, items, rfl, rfl, htext, hitems⟩ | ⟨inside, inner, entries, rfl, rfl, htext, hentries⟩ :=
    hspells.scalar_or_nested
  · obtain ⟨c, tail, htext, hsequence, hmapping, -, -⟩ := result?_scalar_of_scalar levels hscalar
    have hvalue : (FromValue.kindAndRest name tag kind v).toOption = none := by
      generalize dropBlanks text = start at hscalar
      cases hscalar with
      | @number _ _ n _ => cases n <;> rfl
      | _ => rfl
    simp [kindAndRest, htext, hvalue]
  · simp only [kindAndRest, result?_bind, result?_start, htext, List.head?_cons, Option.map_some, Option.bind_some,
      result?_nested, List.tail_cons]
    cases hitems with
    | done hclose => simp [FromValue.kindAndRest, result?_hasElement_of_close hclose]
    | @next _ _ start after _ v items hstart hitem hrest =>
      have hstep : ∀ (before : List Value) {text v rest}, Spells inside text v rest →
          result? (do return (← value) :: before) (inside + 1) text = (collect before v).toOption.map (·, rest) := by
        intro before text v rest hv
        simp [result?_value hv, collect]
      have hlength := hrest.length_lt Spells.length_lt
      have helements := result?_elements hstep hrest (show items.length < after.length + 1 by omega) []
      have hclose : result? (close ']') (inside + 2) (']' :: rest) = some ((), rest) :=
        result?_close (dropBlanks_of_not_isBlank rfl rest)
      rw [foldlM_collect] at helements
      simp only [bind_pure_comp] at helements
      have hkind := agrees_kindName kind hitem
      rw [result?_hasElement_of_starts hstart, FromValue.kindAndRest]
      cases ht : FromValue.kindName kind v <;> simp [hkind, ht, helements, hclose]
  · have hstep : ∀ (kept : Option τ × List (Value × Value)) (key : String) {after text v rest},
        dropBlanks after = ':' :: text → Spells inside text v rest →
        result? (taggedMember tag kind key kept) (inside + 1) after =
          (FromValue.taggedEntry tag kind kept (Value.string key, v)).toOption.map (·, rest) := by
      intro kept key after text v rest hcolon hv
      exact result?_taggedMember kind tag key kept hcolon hv
    have hlength := hentries.length_lt Spells.length_lt
    have hmembers := result?_members hstep hentries (show entries.length < inner.length + 1 by omega) (none, [])
    have hclose : result? (close '}') (inside + 2) ('}' :: rest) = some ((), rest) :=
      result?_close (dropBlanks_of_not_isBlank rfl rest)
    simp only [kindAndRest, FromValue.kindAndRest, result?_bind, result?_start, htext, List.head?_cons, Option.map_some,
      Option.bind_some, result?_nested, List.tail_cons, result?_remaining, hmembers]
    cases entries.foldlM (FromValue.taggedEntry tag kind) (none, []) with
    | error fault => rfl
    | ok kept =>
      obtain ⟨t?, kept⟩ := kept
      cases t? with
      | none => rfl
      | some t => simp [hclose]

theorem agrees_tagged (name tag : String) (read : τ → Value → Except Fault α) :
    Agrees (TaggedSource.tagged name tag kind read : Reader α) (TaggedSource.tagged name tag kind read) := by
  apply Agrees.bind (agrees_kindAndRest kind name tag)
  intro kindAndRest depth text _
  exact result?_ofExcept (read kindAndRest.1 kindAndRest.2)

end SourceRecipes.Json
