import SourceRecipes.Data.Record
import SourceRecipes.Proofs.Data.Keys
import SourceRecipes.Proofs.Data.Outcome

/-!
# Records read from values

The entries of a mapping are taken one by one, each into its field. A record that says its kind is read from a value as from
a text: the kind where it stands, and then the rest.
-/

namespace SourceRecipes.FromValue

open Record

variable {δ : Type}

theorem read_setting {α δ : Type} {q : FromValue α} {v : Value} {a : α} (h : q v = .ok a) (set : α → δ) :
    (do return set (← q) : FromValue δ) v = .ok (set a) := by
  change (q v >>= fun a => pure (set a)) = _
  rw [h]
  rfl

theorem setting_eq_ok_iff {α δ : Type} {q : FromValue α} {set : α → δ} {v : Value} {b : δ} :
    (do return set (← q) : FromValue δ) v = .ok b ↔ ∃ a, q v = .ok a ∧ set a = b := by
  change q v >>= (fun a => .ok (set a)) = .ok b ↔ _
  rw [bind_eq_ok_iff]
  simp

theorem optional_of_ne_null {α : Type} (q : FromValue α) {v : Value} (h : v ≠ .null) :
    (DataSource.optional q : FromValue (Option α)) v = (q v).map some := by
  cases v <;> first | rfl | contradiction

/-- Takes one entry of a mapping into what is known of a record. -/
def takeEntry (r : Record FromValue δ) (draft : Draft δ) (entry : Value × Value) : Except Fault (Draft δ) :=
  match fieldIndex? r entry.1 with
  | .error fault => .error fault
  | .ok none => .ok draft
  | .ok (some index) =>
    match r.fields[index]? with
    | none => .ok draft
    | some f =>
      if draft.seen.contains index then .error (.duplicateField f.key)
      else (f.read draft.record entry.2).map fun record => ⟨record, index :: draft.seen⟩

theorem named_eq_foldlM (r : Record FromValue δ) (entries : List (Value × Value)) (draft : Draft δ) :
    named r entries draft = entries.foldlM (takeEntry r) draft >>= r.finish := by
  induction entries generalizing draft with
  | nil => rfl
  | cons entry entries ih =>
    obtain ⟨key, value⟩ := entry
    rw [named, List.foldlM_cons, takeEntry]
    cases fieldIndex? r key with
    | error fault => rfl
    | ok index? =>
      cases index? with
      | none => exact ih draft
      | some index =>
        cases hfield : r.fields[index]? with
        | none =>
          simp only [hfield]
          exact ih draft
        | some f =>
          simp only [hfield]
          by_cases hseen : draft.seen.contains index = true
          · rw [if_pos hseen, if_pos hseen]
            rfl
          · rw [if_neg hseen, if_neg hseen]
            cases f.read draft.record value with
            | error fault => rfl
            | ok record => exact ih _

/-! ### Entries in the order of the fields -/

theorem firstMissing_eq_none_iff {m : Type → Type} (seen : List Nat) (index : Nat) (fields : List (Field m δ)) :
    firstMissing seen index fields = none ↔
      ∀ i f, fields[i]? = some f → f.required = true → index + i ∈ seen := by
  induction fields generalizing index with
  | nil => simp [firstMissing]
  | cons f fields ih =>
    -- The first field stands at the index itself, and the others one place later than among themselves.
    have hplaces : (∀ i g, (f :: fields)[i]? = some g → g.required = true → index + i ∈ seen) ↔
        (f.required = true → index ∈ seen) ∧ ∀ i g, fields[i]? = some g → g.required = true → index + 1 + i ∈ seen := by
      constructor
      · intro h
        refine ⟨fun hrequired => h 0 f rfl hrequired, fun i g hfield hrequired => ?_⟩
        have hmem := h (i + 1) g hfield hrequired
        rwa [Nat.add_right_comm, Nat.add_assoc]
      · rintro ⟨hfirst, hrest⟩ i g hfield hrequired
        cases i with
        | zero =>
          obtain rfl : f = g := Option.some.inj hfield
          exact hfirst hrequired
        | succ i =>
          have hmem := hrest i g hfield hrequired
          rwa [Nat.add_right_comm, Nat.add_assoc] at hmem
    rw [hplaces, firstMissing]
    by_cases hmissing : (f.required && !seen.contains index) = true
    · rw [if_pos hmissing]
      rw [Bool.and_eq_true, Bool.not_eq_true', List.contains_eq_mem, decide_eq_false_iff_not] at hmissing
      exact iff_of_false (by simp) fun h => hmissing.2 (h.1 hmissing.1)
    · rw [if_neg hmissing, ih]
      have hfirst : f.required = true → index ∈ seen := by simpa using hmissing
      exact (and_iff_right hfirst).symm

theorem indexOf?_of_nodup {r : Record FromValue δ} {before after : List (Field FromValue δ)} {f : Field FromValue δ}
    (hfields : r.fields = before ++ f :: after) (hkeys : (r.fields.map Field.key).Nodup) :
    r.indexOf? f.key = some before.length := by
  have hbefore : ∀ g ∈ before, g.key ≠ f.key := by
    rw [hfields, List.map_append, List.map_cons] at hkeys
    intro g hg heq
    exact (List.nodup_append.mp hkeys).2.2 g.key (List.mem_map_of_mem hg) f.key (.head _) heq
  have hnone : (before.findIdx? fun g => g.key == f.key) = none := by
    rw [List.findIdx?_eq_none_iff]
    intro g hg
    simpa using hbefore g hg
  rw [indexOf?, hfields, List.findIdx?_append, hnone, List.findIdx?_cons]
  simp

/-- Entries for all fields in order are read as the fields by their places. -/
theorem named_eq_positional {r : Record FromValue δ} (hkeys : (r.fields.map Field.key).Nodup) (name : String) (total : Nat)
    {before after : List (Field FromValue δ)} (hfields : r.fields = before ++ after) {values : List Value}
    (hvalues : values.length = after.length) (record : δ) :
    named r ((after.map fun f => Value.string f.key).zip values) ⟨record, (List.range before.length).reverse⟩ =
      positional name total before.length after values record := by
  induction after generalizing before values record with
  | nil =>
    obtain rfl := List.length_eq_zero_iff.mp hvalues
    have hmissing : firstMissing (List.range before.length).reverse 0 r.fields = none := by
      rw [firstMissing_eq_none_iff, hfields, List.append_nil]
      intro i f hfield _
      simpa using (List.getElem?_eq_some_iff.mp hfield).1
    rw [List.map_nil, List.zip_nil_left, named, finish, hmissing]
    rfl
  | cons f after ih =>
    obtain ⟨v, values, rfl⟩ := List.exists_cons_of_length_eq_add_one hvalues
    have hindex : fieldIndex? r (.string f.key) = .ok (some before.length) :=
      congrArg Except.ok (indexOf?_of_nodup hfields hkeys)
    have hfield : r.fields[before.length]? = some f := by simp [hfields]
    have hseen : (List.range before.length).reverse.contains before.length = false := by simp
    have hnext := ih (by rw [hfields, List.append_cons]) (Nat.succ.inj hvalues)
    simp only [List.map_cons, List.zip_cons_cons, named, hindex, hfield, hseen, positional]
    cases hread : f.read record v with
    | error fault => rfl
    | ok record' => simpa [List.range_succ] using hnext record'

/-- A record of which all fields are given by names in their order is read as if it were given by places. -/
theorem record_mapping_zip {r : Record FromValue δ} (hkeys : (r.fields.map Field.key).Nodup) {values : List Value}
    (hvalues : values.length = r.fields.length) :
    (DataSource.record r : FromValue δ) (.mapping ((r.fields.map fun f => Value.string f.key).zip values)) =
      (DataSource.record r : FromValue δ) (.sequence values) :=
  named_eq_positional hkeys r.name r.fields.length (List.nil_append _).symm hvalues r.blank

/-! ### Records that say their kind -/

variable {τ α : Type}

def kindName (kind : String → Except Fault τ) : Value → Except Fault τ
  | .string name => kind name
  | v => .error (.invalidType v.found .variantName)

/-- Takes an entry of a mapping: the kind, or what is kept. -/
def taggedEntry (tag : String) (kind : String → Except Fault τ) (kept : Option τ × List (Value × Value))
    (entry : Value × Value) : Except Fault (Option τ × List (Value × Value)) :=
  match entry with
  | (.string key, value) =>
    if key = tag then
      if kept.1.isSome then .error (.duplicateField tag) else (kindName kind value).map fun t => (some t, kept.2)
    else .ok (kept.1, entry :: kept.2)
  | _ => .ok (kept.1, entry :: kept.2)

def kindAndRest (name tag : String) (kind : String → Except Fault τ) : Value → Except Fault (τ × Value)
  | .sequence [] => .error (.missingField tag)
  | .sequence (first :: items) => (kindName kind first).map fun t => (t, .sequence items)
  | .mapping entries => do
    match ← entries.foldlM (taggedEntry tag kind) (none, []) with
    | (none, _) => .error (.missingField tag)
    | (some t, kept) => .ok (t, .mapping kept.reverse)
  | v => .error (.invalidType v.found (.taggedRecord name))

theorem taggedEntry_of_ne {tag : String} (kind : String → Except Fault τ) (kept : Option τ × List (Value × Value))
    {entry : Value × Value} (h : entry.1 ≠ .string tag) :
    taggedEntry tag kind kept entry = .ok (kept.1, entry :: kept.2) := by
  obtain ⟨key, value⟩ := entry
  cases key with
  | string key =>
    have hkey : key ≠ tag := fun heq => h (congrArg Value.string heq)
    rw [taggedEntry, if_neg hkey]
  | _ => rfl

variable {tag : String} {kind : String → Except Fault τ} {entries : List (Value × Value)}

theorem foldlM_taggedEntry_eq_ok_iff {found : Option τ} {kept kept' : List (Value × Value)} {t : τ} :
    entries.foldlM (taggedEntry tag kind) (found, kept) = .ok (some t, kept') ↔
      (found = some t ∧ entries.filter (hasKey tag) = [] ∨
        found = none ∧ ∃ v, entries.filter (hasKey tag) = [(.string tag, v)] ∧ kindName kind v = .ok t) ∧
      (entries.filter fun e => !hasKey tag e).reverse ++ kept = kept' := by
  induction entries generalizing found kept with
  | nil => simp [pure, Except.pure]
  | cons entry entries ih =>
    by_cases htag : hasKey tag entry = true
    · obtain ⟨k, v⟩ := entry
      obtain rfl : k = .string tag := hasKey_iff.mp htag
      cases found with
      | some s =>
        have hfault : taggedEntry tag kind (some s, kept) (.string tag, v) = .error (.duplicateField tag) := by
          simp [taggedEntry]
        rw [List.foldlM_cons, hfault]
        simp [bind, Except.bind]
      | none =>
        have hfirst : taggedEntry tag kind (none, kept) (.string tag, v) = (kindName kind v).map fun t => (some t, kept) := by
          simp [taggedEntry]
        rw [List.foldlM_cons, hfirst]
        cases hkind : kindName kind v with
        | error fault => simp [Except.map, bind, Except.bind, hkind]
        | ok s =>
          change entries.foldlM (taggedEntry tag kind) (some s, kept) = _ ↔ _
          rw [ih]
          simp [hkind, and_comm]
    · have hne : entry.1 ≠ .string tag := fun heq => htag (hasKey_iff.mpr heq)
      rw [List.foldlM_cons, taggedEntry_of_ne kind _ hne]
      change entries.foldlM (taggedEntry tag kind) (found, entry :: kept) = _ ↔ _
      rw [ih]
      simp [htag]

/-- The kind is what stands under its key, once, and the other entries are the rest. -/
theorem kindAndRest_mapping_eq_ok_iff {name : String} {t : τ} {rest : Value} :
    kindAndRest name tag kind (.mapping entries) = .ok (t, rest) ↔
      (∃ v, entries.filter (hasKey tag) = [(.string tag, v)] ∧ kindName kind v = .ok t) ∧
        .mapping (entries.filter fun e => !hasKey tag e) = rest := by
  rw [kindAndRest, bind_eq_ok_iff]
  constructor
  · rintro ⟨⟨_ | s, kept⟩, hfold, hresult⟩
    · contradiction
    · obtain ⟨rfl, rfl⟩ := Prod.mk.inj (Except.ok.inj hresult)
      obtain ⟨⟨hfound, -⟩ | ⟨-, hkind⟩, rfl⟩ := foldlM_taggedEntry_eq_ok_iff.mp hfold
      · contradiction
      · exact ⟨hkind, by simp⟩
  · rintro ⟨hkind, rfl⟩
    refine ⟨_, foldlM_taggedEntry_eq_ok_iff.mpr ⟨.inr ⟨rfl, hkind⟩, rfl⟩, ?_⟩
    simp

/-- The kind may stand first, as it does when a record is written. -/
theorem kindAndRest_cons (name : String) {kindText : String} {t : τ} (ht : kind kindText = .ok t)
    (h : ∀ entry ∈ entries, entry.1 ≠ .string tag) :
    kindAndRest name tag kind (.mapping ((.string tag, .string kindText) :: entries)) = .ok (t, .mapping entries) := by
  have hothers : ∀ entry ∈ entries, hasKey tag entry = false := by
    intro entry hentry
    rw [← Bool.not_eq_true, hasKey_iff]
    exact h entry hentry
  rw [kindAndRest_mapping_eq_ok_iff]
  refine ⟨⟨.string kindText, ?_, ht⟩, ?_⟩
  · simpa [List.filter_cons] using hothers
  · simpa [List.filter_cons] using hothers

instance : TaggedSource FromValue where
  tagged name tag kind read := fun v => do
    let (t, rest) ← kindAndRest name tag kind v
    read t rest

end SourceRecipes.FromValue
