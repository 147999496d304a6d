import SourceRecipes.Proofs.Json.Records

/-!
# Objects of which one value does not matter

The entries of an object can be read without those under one key. What stands there is passed over and need not be a value
that can be kept. A record is read from such an object as from a mapping, if what stands under the key is taken to its end by
the reader of its field, whatever that makes of it.
-/

namespace SourceRecipes

/-- The same answer to every value. -/
def Handler.ignore : Handler Unit where
  expected := "anything"
  scalar _ := some ()
  sequence := some ()
  mapping := some ()

namespace Json

namespace Reader

/-- Takes the member after the key `name`. A member with a given key is passed over. -/
def otherMember (key name : String) (before : List (Value × Value)) : Reader (List (Value × Value)) := do
  colon
  if name = key then
    any .ignore
    return before
  else return (.string name, ← value) :: before

/-- Reads the entries of an object except those with a key. -/
def othersThan (key : String) : Reader (List (Value × Value)) := do
  match ← start with
  | '{' => return (← object (otherMember key) []).reverse
  | _ => raise .malformed

end Reader

open Reader Record

variable {α β δ σ τ : Type} {key name : String} {depth levels : Nat} {text after rest : List Char}
  {entries before kept : List (Value × Value)} {v : Value}

/-! ### Objects that are values -/

/-- Puts an entry in front of those before it, unless it has a given key. -/
def collectOther (key : String) (before : List (Value × Value)) (entry : Value × Value) :
    Except Fault (List (Value × Value)) :=
  .ok (if hasKey key entry then before else entry :: before)

theorem foldlM_collectOther (key : String) (entries before : List (Value × Value)) :
    entries.foldlM (collectOther key) before = .ok ((entries.filter fun e => !hasKey key e).reverse ++ before) := by
  induction entries generalizing before with
  | nil => rfl
  | cons entry entries ih =>
    rw [List.foldlM_cons, collectOther, List.filter_cons]
    change entries.foldlM (collectOther key) _ = _
    rw [ih]
    by_cases hkey : hasKey key entry = true <;> simp [hkey]

theorem result?_ignore (h : Spells levels text v rest) :
    result? (any .ignore) (levels + 1) text = some ((), rest) := by
  rw [show result? (any .ignore) (levels + 1) text = _ from agrees_any Handler.ignore h]
  cases v <;> rfl

theorem result?_otherMember (hcolon : dropBlanks after = ':' :: text) (hv : Spells levels text v rest) :
    result? (otherMember key name before) (levels + 1) after =
      (collectOther key before (.string name, v)).toOption.map (·, rest) := by
  rw [otherMember, result?_bind, result?_colon hcolon, Option.bind_some]
  by_cases hname : name = key
  · simp [hname, collectOther, result?_ignore hv]
  · simp [hname, collectOther, result?_value hv]

theorem result?_othersThan {inner : List Char} (htext : dropBlanks text = '{' :: inner) :
    result? (othersThan key) depth text =
      (result? (object (otherMember key) []) depth ('{' :: inner)).map fun read => (read.1.reverse, read.2) := by
  rw [othersThan, result?_bind, result?_start, htext]
  exact result?_map List.reverse (object (otherMember key) [])

theorem exists_object_of_othersThan (h : result? (othersThan key) depth text = some (entries, rest)) :
    ∃ inner, dropBlanks text = '{' :: inner := by
  cases htext : dropBlanks text with
  | nil => simp [othersThan, htext] at h
  | cons c inner =>
    by_cases hc : c = '{'
    · exact ⟨inner, hc ▸ rfl⟩
    · simp [othersThan, htext] at h

/-- If an object can be kept as a value, those are its entries with other keys. -/
theorem othersThan_of_parse {text : String} (h : parse text = .ok (.mapping entries)) (key : String) :
    read (othersThan key) text = .ok (entries.filter fun e => !hasKey key e) := by
  obtain ⟨inner, rest, htext, hentries, hrest⟩ := exists_members_of_parse h
  have hstep : ∀ (before : List (Value × Value)) (name : String) {after text v rest}, dropBlanks after = ':' :: text →
      Spells (depthLimit - 2) text v rest → result? (otherMember key name before) (depthLimit - 2 + 1) after =
        (collectOther key before (Value.string name, v)).toOption.map (·, rest) :=
    fun _ _ _ _ _ _ hcolon hv => result?_otherMember hcolon hv
  refine read_eq_ok_iff.mpr ⟨rest, ?_, hrest⟩
  rw [result?_othersThan htext]
  change (result? (object (otherMember key) []) (depthLimit - 2 + 2) ('{' :: inner)).map _ = _
  rw [result?_object Spells.length_lt hstep hentries, foldlM_collectOther]
  simp

/-! ### Two readers of one object -/

/-- What two loops make of the members of one object are folds over the same entries, if that is so of each member. -/
theorem exists_entries_of_members {step : String → σ → Reader σ} {step' : String → τ → Reader τ}
    {f : σ → Value × Value → Except Fault σ} {f' : τ → Value × Value → Except Fault τ}
    (hstep : ∀ name s s₁ t t₁ {text rest rest'}, result? (step name s) depth text = some (s₁, rest) →
      result? (step' name t) depth text = some (t₁, rest') →
      rest = rest' ∧ ∃ v, f s (.string name, v) = .ok s₁ ∧ f' t (.string name, v) = .ok t₁)
    {fuel : Nat} {first : Bool} {s s₁ : σ} {t t₁ : τ} {rest' : List Char}
    (hs : result? (members step fuel first s) depth text = some (s₁, rest))
    (ht : result? (members step' fuel first t) depth text = some (t₁, rest')) :
    ∃ entries, StringKeyed entries ∧ entries.foldlM f s = .ok s₁ ∧ entries.foldlM f' t = .ok t₁ := by
  induction fuel generalizing first text s t with
  | zero => simp [members] at hs
  | succ fuel ih =>
    simp only [members, result?_bind, Option.bind_eq_some_iff] at hs ht
    obtain ⟨⟨follows, start⟩, hfollows, hs⟩ := hs
    obtain ⟨_, hfollows', ht⟩ := ht
    -- Both loops stand at the same place, so both end here or both find the same key.
    obtain rfl := Option.some.inj (hfollows.symm.trans hfollows')
    cases follows with
    | false =>
      obtain ⟨rfl, -⟩ := Prod.mk.inj (Option.some.inj hs)
      obtain ⟨rfl, -⟩ := Prod.mk.inj (Option.some.inj ht)
      exact ⟨[], List.forall_mem_nil _, rfl, rfl⟩
    | true =>
      simp only [if_true, result?_bind, Option.bind_eq_some_iff] at hs ht
      obtain ⟨⟨name, colon⟩, hname, ⟨s₂, after⟩, hmember, hs⟩ := hs
      obtain ⟨_, hname', ⟨t₂, after'⟩, hmember', ht⟩ := ht
      obtain rfl := Option.some.inj (hname.symm.trans hname')
      obtain ⟨rfl, v, hv, hv'⟩ := hstep _ _ _ _ _ hmember hmember'
      obtain ⟨entries, hkeys, hfold, hfold'⟩ := ih hs ht
      refine ⟨(.string (String.ofList name), v) :: entries, stringKeyed_cons.mpr ⟨⟨_, rfl⟩, hkeys⟩, ?_, ?_⟩
      · rw [List.foldlM_cons, hv]
        exact hfold
      · rw [List.foldlM_cons, hv']
        exact hfold'

/-- What a member is passed over as, or kept as. -/
theorem exists_of_result?_otherMember (h : result? (otherMember key name before) (levels + 1) after = some (kept, rest)) :
    ∃ text, dropBlanks after = ':' :: text ∧
      (name = key ∧ kept = before ∧ result? (any .ignore) (levels + 1) text = some ((), rest) ∨
        name ≠ key ∧ ∃ v, Spells levels text v rest ∧ kept = (.string name, v) :: before) := by
  rw [otherMember, result?_bind] at h
  obtain ⟨⟨_, text⟩, hcolon, h⟩ := Option.bind_eq_some_iff.mp h
  refine ⟨text, result?_colon_eq_some_iff.mp hcolon, ?_⟩
  by_cases hname : name = key
  · rw [if_pos hname, result?_bind] at h
    obtain ⟨⟨_, _⟩, hany, h⟩ := Option.bind_eq_some_iff.mp h
    obtain ⟨rfl, rfl⟩ := Prod.mk.inj (Option.some.inj h)
    exact .inl ⟨hname, rfl, hany⟩
  · rw [if_neg hname, result?_bind] at h
    obtain ⟨⟨v, _⟩, hv, h⟩ := Option.bind_eq_some_iff.mp h
    obtain ⟨rfl, rfl⟩ := Prod.mk.inj (Option.some.inj h)
    exact .inr ⟨hname, v, spells_of_result?_valueWithin hv, rfl⟩

/-- That a loop over members reads every value as a value, and takes what stands under a key to its end as if it were one. -/
structure PassesOver (key : String) (levels : Nat) (step : String → σ → Reader σ)
    (f : σ → Value × Value → Except Fault σ) : Prop where
  spelled : ∀ name s {after text v rest}, dropBlanks after = ':' :: text → Spells levels text v rest →
    result? (step name s) (levels + 1) after = (f s (.string name, v)).toOption.map (·, rest)
  passed : ∀ s s₁ {after text rest rest'}, dropBlanks after = ':' :: text →
    result? (any .ignore) (levels + 1) text = some ((), rest') → result? (step key s) (levels + 1) after = some (s₁, rest) →
    rest = rest' ∧ ∃ v, f s (.string key, v) = .ok s₁

theorem PassesOver.exists_entries {step : String → σ → Reader σ} {f : σ → Value × Value → Except Fault σ}
    (h : PassesOver key levels step f) {fuel : Nat} {s s₁ : σ} {rest' : List Char}
    (hs : result? (members step fuel true s) (levels + 1) text = some (s₁, rest))
    (hothers : result? (members (otherMember key) fuel true []) (levels + 1) text = some (kept, rest')) :
    ∃ entries, StringKeyed entries ∧ entries.foldlM f s = .ok s₁ ∧ (entries.filter fun e => !hasKey key e) = kept.reverse := by
  have hstep : ∀ name s s₁ before kept {after rest rest'}, result? (step name s) (levels + 1) after = some (s₁, rest) →
      result? (otherMember key name before) (levels + 1) after = some (kept, rest') →
      rest = rest' ∧ ∃ v, f s (.string name, v) = .ok s₁ ∧ collectOther key before (.string name, v) = .ok kept := by
    intro name s s₁ before kept after rest rest' hread hother
    obtain ⟨text, hcolon, ⟨rfl, rfl, hany⟩ | ⟨hname, v, hv, rfl⟩⟩ := exists_of_result?_otherMember hother
    · obtain ⟨hrest, v, hv⟩ := h.passed s s₁ hcolon hany hread
      exact ⟨hrest, v, hv, by simp [collectOther]⟩
    · rw [h.spelled name s hcolon hv] at hread
      obtain ⟨_, hvalue, hpair⟩ := Option.map_eq_some_iff.mp hread
      obtain ⟨rfl, rfl⟩ := Prod.mk.inj hpair
      exact ⟨rfl, v, toOption_eq_some_iff.mp hvalue, by simp [collectOther, hname]⟩
  obtain ⟨entries, hkeys, hfold, hkept⟩ := exists_entries_of_members hstep hs hothers
  rw [foldlM_collectOther, List.append_nil] at hkept
  exact ⟨entries, hkeys, hfold, by rw [← Except.ok.inj hkept, List.reverse_reverse]⟩

/-! ### Readers that take anything to its end -/

/-- That a reader takes what it finds to its end, and makes of it what is made of some value. -/
def Recovers (p : Reader α) (q : FromValue α) : Prop :=
  ∀ {depth : Nat} {text rest : List Char} {a : α}, result? p depth text = some (a, rest) →
    result? (any .ignore) depth text = some ((), rest) ∧ ∃ v, q v = .ok a

theorem Recovers.map {p : Reader α} {q : FromValue α} (h : Recovers p q) (f : α → β) :
    Recovers (do return f (← p)) (do return f (← q)) := by
  intro depth text rest b hread
  rw [bind_pure_comp, result?_map] at hread
  obtain ⟨⟨a, _⟩, ha, hpair⟩ := Option.map_eq_some_iff.mp hread
  obtain ⟨rfl, rfl⟩ := Prod.mk.inj hpair
  obtain ⟨hany, v, hv⟩ := h ha
  exact ⟨hany, v, FromValue.setting_eq_ok_iff.mpr ⟨a, hv, rfl⟩⟩

/-- What is answered to something that was read has no effect on the text. -/
theorem bind_answer_eq_some_iff {x : Option (σ × List Char)} (answer : σ → Except Fault α) {a : α} :
    (x.bind fun read => (answer read.1).toOption.map (·, read.2)) = some (a, rest) ↔
      ∃ s, x = some (s, rest) ∧ answer s = .ok a := by
  simp only [Option.bind_eq_some_iff, Option.map_eq_some_iff, Prod.mk.injEq, toOption_eq_some_iff]
  constructor
  · rintro ⟨⟨s, _⟩, hx, _, ha, rfl, rfl⟩
    exact ⟨s, hx, ha⟩
  · rintro ⟨s, hx, ha⟩
    exact ⟨(s, rest), hx, a, ha, rfl, rfl⟩

/-- An array is as good as an empty one to whoever takes any value, and so is an object. -/
theorem exists_value_of_any {handler : Handler α} {a : α} (h : result? (any handler) depth text = some (a, rest)) :
    result? (any .ignore) depth text = some ((), rest) ∧
      ∃ v, handler.onValue v = .ok a ∧ (v = .null → (dropBlanks text).head? = some 'n') := by
  cases htext : dropBlanks text with
  | nil => simp [any, htext] at h
  | cons c tail =>
    rw [result?_any htext] at h ⊢
    split_ifs at h ⊢ with hsequence hmapping
    · obtain ⟨_, harray, ha⟩ := (bind_answer_eq_some_iff fun _ => handler.orFault .sequence handler.sequence).mp h
      rw [harray]
      exact ⟨rfl, .sequence [], ha, by simp⟩
    · obtain ⟨_, hobject, ha⟩ := (bind_answer_eq_some_iff fun _ => handler.orFault .mapping handler.mapping).mp h
      rw [hobject]
      exact ⟨rfl, .mapping [], ha, by simp⟩
    · obtain ⟨v, hscalar, ha⟩ := (bind_answer_eq_some_iff handler.onValue).mp h
      rw [hscalar]
      refine ⟨by cases v <;> rfl, v, ha, ?_⟩
      rintro rfl
      have hnull : Spells 0 text .null rest := by
        unfold Spells
        exact htext ▸ scalar_of_result?_scalar hscalar
      have hhead := hnull.eq_null_append
      rw [htext] at hhead
      exact congrArg List.head? hhead

theorem result?_any_dropBlanks (handler : Handler α) (depth : Nat) (text : List Char) :
    result? (any handler) depth (dropBlanks text) = result? (any handler) depth text := by
  rw [any, result?_bind, result?_bind, result?_start, result?_start, dropBlanks_dropBlanks]

theorem recovers_optional_any (handler : Handler α) :
    Recovers (DataSource.optional (DataSource.any handler) : Reader (Option α)) (DataSource.optional (DataSource.any handler)) := by
  intro depth text rest a? h
  change result? (Reader.optional (any handler)) _ _ = _ at h
  rw [Reader.optional, result?_bind, result?_peek, Option.bind_some] at h
  dsimp only at h
  split at h
  · rename_i hhead
    obtain ⟨rfl, hnull⟩ := result?_word_eq_some_iff.mp h
    have hscalar : result? (scalar 'n') depth ("null".toList ++ rest) = some (.null, rest) :=
      result?_word_eq_some_iff.mpr ⟨rfl, rfl⟩
    refine ⟨?_, .null, rfl⟩
    change dropBlanks text = 'n' :: ("ull".toList ++ rest) at hnull
    rw [result?_any hnull, if_neg (by decide), if_neg (by decide)]
    exact congrArg (Option.bind · _) hscalar
  · rename_i hhead
    rw [bind_pure_comp, result?_map] at h
    obtain ⟨⟨a, after⟩, ha, hpair⟩ := Option.map_eq_some_iff.mp h
    obtain ⟨rfl, rfl⟩ := Prod.mk.inj hpair
    obtain ⟨hany, v, hv, hnull⟩ := exists_value_of_any ha
    rw [dropBlanks_dropBlanks] at hnull
    rw [result?_any_dropBlanks] at hany
    refine ⟨hany, v, ?_⟩
    rw [FromValue.optional_of_ne_null _ fun h => hhead (hnull h)]
    exact congrArg (Except.map some) hv

/-! ### Records -/

/-- That an object is read like a mapping with the same other entries, whatever stands in it under a key. -/
def ReadsAround (key : String) (p : Reader α) (q : FromValue α) : Prop :=
  ∀ {text : String} {others : List (Value × Value)} {a : α}, read (othersThan key) text = .ok others →
    read p text = .ok a →
    ∃ entries, StringKeyed entries ∧ (entries.filter fun e => !hasKey key e) = others ∧ q (.mapping entries) = .ok a

theorem exists_members_of_othersThan {text : String} (h : read (othersThan key) text = .ok entries) :
    ∃ inner kept rest, dropBlanks text.toList = '{' :: inner ∧ kept.reverse = entries ∧
      result? (members (otherMember key) (inner.length + 1) true []) (depthLimit - 2 + 1) inner = some (kept, rest) := by
  obtain ⟨_, hread, -⟩ := read_eq_ok_iff.mp h
  obtain ⟨inner, htext⟩ := exists_object_of_othersThan hread
  rw [result?_othersThan htext] at hread
  obtain ⟨⟨kept, _⟩, hobject, hpair⟩ := Option.map_eq_some_iff.mp hread
  obtain ⟨rest, hmembers, -⟩ := result?_object_eq_some_iff.mp hobject
  exact ⟨inner, kept, rest, htext, congrArg Prod.fst hpair, hmembers⟩

variable {r : Record Reader δ} {s : Record FromValue δ}

theorem RecordAgrees.passesOver_member (h : RecordAgrees r s) (hmem : key ∈ r.fields.map Field.key)
    (hkey : List.Forall₂ (fun f g => f.key = key → ∀ record, Recovers (f.read record) (g.read record)) r.fields s.fields) :
    PassesOver key levels (member r) (FromValue.takeEntry s) where
  spelled name draft := h.result?_member draft name
  passed draft draft₁ := by
    intro after text rest rest' hcolon hany hread
    rw [member] at hread
    cases hfind : r.fields.findIdx? fun f => f.key == key with
    | none =>
      -- The key is that of a field, so it is found.
      obtain ⟨f, hf, hname⟩ := List.mem_map.mp hmem
      have hno := List.findIdx?_eq_none_iff.mp hfind f hf
      simp [hname] at hno
    | some index =>
      obtain ⟨hbound, hname, -⟩ := List.findIdx?_eq_some_iff_getElem.mp hfind
      obtain ⟨hnone, -⟩ | ⟨f, g, hr, hs, hfield⟩ := getElem?_of_forall₂ hkey index
      · exact absurd hbound (by simpa using hnone)
      · obtain rfl : r.fields[index] = f := Option.some.inj ((List.getElem?_eq_getElem hbound).symm.trans hr)
        simp only [hfind, hr] at hread
        split_ifs at hread with hseen
        · contradiction
        · rw [result?_bind, result?_colon hcolon, Option.bind_some, result?_bind] at hread
          obtain ⟨⟨record, _⟩, hrecord, hpair⟩ := Option.bind_eq_some_iff.mp hread
          obtain ⟨rfl, rfl⟩ := Prod.mk.inj (Option.some.inj hpair)
          obtain ⟨hany', v, hv⟩ := hfield (beq_iff_eq.mp hname) draft.record hrecord
          refine ⟨congrArg Prod.snd (Option.some.inj (hany'.symm.trans hany)), v, ?_⟩
          rw [FromValue.takeEntry, h.fieldIndex?_string, hfind]
          simp only [hs, if_neg hseen, hv]
          rfl

theorem passesOver_taggedMember {tag : String} (kind : String → Except Fault τ) (hne : key ≠ tag) :
    PassesOver key levels (taggedMember tag kind) (FromValue.taggedEntry tag kind) where
  spelled name kept := result?_taggedMember kind tag name kept
  passed kept kept₁ := by
    intro after text rest rest' hcolon hany hread
    rw [taggedMember, if_neg hne, result?_bind, result?_colon hcolon, Option.bind_some, result?_bind] at hread
    obtain ⟨⟨v, _⟩, hv, hpair⟩ := Option.bind_eq_some_iff.mp hread
    obtain ⟨rfl, rfl⟩ := Prod.mk.inj (Option.some.inj hpair)
    have hspells : Spells levels text v _ := spells_of_result?_valueWithin hv
    rw [result?_ignore hspells] at hany
    refine ⟨congrArg Prod.snd (Option.some.inj hany), v, ?_⟩
    simp [FromValue.taggedEntry, hne]

theorem RecordAgrees.readsAround (h : RecordAgrees r s) (hmem : key ∈ r.fields.map Field.key)
    (hkey : List.Forall₂ (fun f g => f.key = key → ∀ record, Recovers (f.read record) (g.read record)) r.fields s.fields) :
    ReadsAround key (DataSource.record r) (DataSource.record s) := by
  intro text others a hothers hread
  obtain ⟨inner, kept, _, htext, rfl, hkept⟩ := exists_members_of_othersThan hothers
  obtain ⟨rest, hread, -⟩ := read_eq_ok_iff.mp hread
  change result? (Reader.record r) (depthLimit - 2 + 2) text.toList = _ at hread
  simp only [Reader.record, result?_bind, result?_start, htext, List.head?_cons, Option.map_some, Option.bind_some,
    result?_nested, List.tail_cons, result?_remaining, result?_ofExcept, Option.bind_eq_some_iff] at hread
  obtain ⟨_, ⟨⟨draft, _⟩, hdraft, hfinish⟩, _, -, hpair⟩ := hread
  obtain ⟨rfl, -⟩ := Prod.mk.inj (Option.some.inj hpair)
  obtain ⟨_, hrecord, rfl⟩ := Option.map_eq_some_iff.mp hfinish
  obtain ⟨entries, hkeys, hfold, hfilter⟩ := (h.passesOver_member hmem hkey).exists_entries hdraft hkept
  refine ⟨entries, hkeys, hfilter, ?_⟩
  change FromValue.named s entries s.begin = _
  rw [FromValue.named_eq_foldlM, ← h.begin, hfold]
  exact (h.finish draft).symm.trans (toOption_eq_some_iff.mp hrecord)

theorem readsAround_tagged {name tag : String} (kind : String → Except Fault τ) (hne : key ≠ tag)
    (make : τ → Value → Except Fault α) :
    ReadsAround key (TaggedSource.tagged name tag kind make : Reader α) (TaggedSource.tagged name tag kind make) := by
  intro text others a hothers hread
  obtain ⟨inner, kept, _, htext, rfl, hkept⟩ := exists_members_of_othersThan hothers
  obtain ⟨rest, hread, -⟩ := read_eq_ok_iff.mp hread
  change result? (kindAndRest name tag kind >>= fun tagged => ofExcept (make tagged.1 tagged.2)) _ _ = _ at hread
  rw [result?_bind] at hread
  simp only [result?_ofExcept] at hread
  obtain ⟨tagged, htagged, hmade⟩ := (bind_answer_eq_some_iff fun tagged : τ × Value => make tagged.1 tagged.2).mp hread
  change result? (kindAndRest name tag kind) (depthLimit - 2 + 2) text.toList = _ at htagged
  simp only [kindAndRest, result?_bind, result?_start, htext, List.head?_cons, Option.map_some, Option.bind_some,
    result?_nested, List.tail_cons, result?_remaining, Option.bind_eq_some_iff] at htagged
  obtain ⟨⟨_, _⟩, ⟨⟨⟨t?, before⟩, _⟩, hmembers, hkind⟩, _, -, hpair⟩ := htagged
  obtain ⟨rfl, -⟩ := Prod.mk.inj (Option.some.inj hpair)
  obtain ⟨entries, hkeys, hfold, hfilter⟩ := (passesOver_taggedMember kind hne).exists_entries hmembers hkept
  cases t? with
  | none => contradiction
  | some t =>
    obtain ⟨rfl, -⟩ := Prod.mk.inj (Option.some.inj hkind)
    refine ⟨entries, hkeys, hfilter, ?_⟩
    have hvalue : FromValue.kindAndRest name tag kind (.mapping entries) = .ok (t, .mapping before.reverse) := by
      rw [FromValue.kindAndRest, hfold]
      rfl
    change (FromValue.kindAndRest name tag kind (.mapping entries) >>= fun tagged => make tagged.1 tagged.2) = _
    rw [hvalue]
    exact hmade

end Json

end SourceRecipes
