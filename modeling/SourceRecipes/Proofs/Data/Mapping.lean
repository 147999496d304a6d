import SourceRecipes.Proofs.Data.Entries

/-!
# Records given as mappings

A mapping is read as a record just when each field stands in it once, or not at all if it may be absent, with a value that
the field accepts. So neither the order of the entries matters nor what else is among them.
-/

namespace SourceRecipes.FromValue

open Record

variable {δ β : Type} {r : Record FromValue δ} {f : Field FromValue δ} {entries entries' : List (Value × Value)} {key : String}
  {v : Value}

/-- That a value can be read as a field, whatever is known of the record. -/
def Accepts (f : Field FromValue δ) (v : Value) : Prop :=
  ∀ record, ∃ record', f.read record v = .ok record'

/-- That the fields of a record have keys of their own, and that none depends on what was read before it. -/
structure Independent (r : Record FromValue δ) : Prop where
  nodup : (r.fields.map Field.key).Nodup
  accepts : ∀ f ∈ r.fields, ∀ record v record', f.read record v = .ok record' → Accepts f v

/-! ### One entry -/

theorem indexOf?_eq_some_iff (h : Independent r) {index : Nat} :
    r.indexOf? key = some index ↔ ∃ f, r.fields[index]? = some f ∧ f.key = key := by
  constructor
  · intro hindex
    obtain ⟨hlt, hkey, -⟩ := List.findIdx?_eq_some_iff_getElem.mp hindex
    exact ⟨r.fields[index], List.getElem?_eq_getElem hlt, beq_iff_eq.mp hkey⟩
  · rintro ⟨f, hfield, rfl⟩
    obtain ⟨hlt, rfl⟩ := List.getElem?_eq_some_iff.mp hfield
    have hsplit : r.fields = r.fields.take index ++ r.fields[index] :: r.fields.drop (index + 1) := by simp
    have hindex := indexOf?_of_nodup hsplit h.nodup
    rwa [List.length_take, Nat.min_eq_left (Nat.le_of_lt hlt)] at hindex

theorem indexOf?_eq_none_iff : r.indexOf? key = none ↔ ∀ f ∈ r.fields, f.key ≠ key := by
  simp [indexOf?, List.findIdx?_eq_none_iff]

/-- What becomes of a draft by an entry: nothing if no field has its key, else that field is set for the first time. -/
theorem takeEntry_eq_ok_iff (h : Independent r) {draft draft' : Draft δ} :
    takeEntry r draft (.string key, v) = .ok draft' ↔
      ((∀ f ∈ r.fields, f.key ≠ key) ∧ draft = draft') ∨
        ∃ index f, r.fields[index]? = some f ∧ f.key = key ∧ index ∉ draft.seen ∧
          ∃ record, f.read draft.record v = .ok record ∧ ⟨record, index :: draft.seen⟩ = draft' := by
  have hfieldIndex : fieldIndex? r (.string key) = .ok (r.indexOf? key) := rfl
  rw [← indexOf?_eq_none_iff, takeEntry, hfieldIndex]
  cases hindex : r.indexOf? key with
  | none =>
    have hnone := indexOf?_eq_none_iff.mp hindex
    have hno : ¬ ∃ index f, r.fields[index]? = some f ∧ f.key = key ∧ index ∉ draft.seen ∧
        ∃ record, f.read draft.record v = .ok record ∧ ⟨record, index :: draft.seen⟩ = draft' := by
      rintro ⟨index, f, hfield, hkey, -⟩
      exact hnone f (List.mem_of_getElem? hfield) hkey
    simp [hno]
  | some index =>
    obtain ⟨f, hfield, hkey⟩ := (indexOf?_eq_some_iff h).mp hindex
    have honly : ∀ index' f', r.fields[index']? = some f' ∧ f'.key = key → index' = index ∧ f' = f := by
      intro index' f' hother
      have hindex' := (indexOf?_eq_some_iff h).mpr ⟨f', hother⟩
      obtain rfl : index = index' := Option.some.inj (hindex.symm.trans hindex')
      exact ⟨rfl, Option.some.inj (hother.1.symm.trans hfield)⟩
    simp only [hfield, List.contains_iff_mem, reduceCtorEq, false_and, false_or]
    constructor
    · intro htaken
      split_ifs at htaken with hseen
      obtain ⟨record, hread, hdraft⟩ := map_eq_ok_iff.mp htaken
      exact ⟨index, f, hfield, hkey, hseen, record, hread, hdraft⟩
    · rintro ⟨index', f', hfield', hkey', hseen, record, hread, hdraft⟩
      obtain ⟨rfl, rfl⟩ := honly index' f' ⟨hfield', hkey'⟩
      rw [if_neg hseen]
      exact map_eq_ok_iff.mpr ⟨record, hread, hdraft⟩

/-! ### All entries -/

/-- That the entries for a field let it be read: there is none, or one if the field has not been seen before. -/
def Fits (f : Field FromValue δ) (seen : Prop) (entries : List (Value × Value)) : Prop :=
  entries.filter (hasKey f.key) = [] ∨ ¬ seen ∧ ∃ v, entries.filter (hasKey f.key) = [(.string f.key, v)] ∧ Accepts f v

theorem fits_cons_of_ne {seen : Prop} (h : key ≠ f.key) :
    Fits f seen ((.string key, v) :: entries) ↔ Fits f seen entries := by
  simp [Fits, h]

theorem fits_cons_self {seen : Prop} :
    Fits f seen ((.string f.key, v) :: entries) ↔ ¬ seen ∧ Accepts f v ∧ entries.filter (hasKey f.key) = [] := by
  simp only [Fits, List.filter_cons, hasKey_string, beq_self_eq_true, if_true, List.cons.injEq, Prod.mk.injEq, true_and,
    reduceCtorEq, false_or]
  constructor
  · rintro ⟨hseen, v, ⟨rfl, hrest⟩, haccepts⟩
    exact ⟨hseen, haccepts, hrest⟩
  · rintro ⟨hseen, haccepts, hrest⟩
    exact ⟨hseen, v, ⟨rfl, hrest⟩, haccepts⟩

def AllFit (r : Record FromValue δ) (seen : List Nat) (entries : List (Value × Value)) : Prop :=
  ∀ index f, r.fields[index]? = some f → Fits f (index ∈ seen) entries

theorem allFit_cons_of_unknown {seen : List Nat} (h : ∀ f ∈ r.fields, f.key ≠ key) :
    AllFit r seen ((.string key, v) :: entries) ↔ AllFit r seen entries := by
  refine forall₃_congr fun index f hfield => fits_cons_of_ne ?_
  exact (h f (List.mem_of_getElem? hfield)).symm

theorem allFit_cons_of_field (h : Independent r) {seen : List Nat} {index : Nat} (hfield : r.fields[index]? = some f) :
    AllFit r seen ((.string f.key, v) :: entries) ↔ index ∉ seen ∧ Accepts f v ∧ AllFit r (index :: seen) entries := by
  -- The other fields have other keys, so the entry is nothing to them and they are seen as before.
  have hother : ∀ index' f', r.fields[index']? = some f' → index' ≠ index →
      (Fits f' (index' ∈ seen) ((.string f.key, v) :: entries) ↔ Fits f' (index' ∈ index :: seen) entries) := by
    intro index' f' hfield' hne
    have hkey : f.key ≠ f'.key := by
      intro heq
      have hindex := (indexOf?_eq_some_iff h).mpr ⟨f, hfield, heq⟩
      have hindex' := (indexOf?_eq_some_iff h).mpr ⟨f', hfield', rfl⟩
      exact hne (Option.some.inj (hindex'.symm.trans hindex))
    rw [fits_cons_of_ne hkey, List.mem_cons, or_iff_right hne]
  constructor
  · intro hall
    obtain ⟨hseen, haccepts, hnone⟩ := fits_cons_self.mp (hall index f hfield)
    refine ⟨hseen, haccepts, fun index' f' hfield' => ?_⟩
    by_cases hsame : index' = index
    · subst hsame
      obtain rfl : f = f' := Option.some.inj (hfield.symm.trans hfield')
      exact .inl hnone
    · exact (hother index' f' hfield' hsame).mp (hall index' f' hfield')
  · rintro ⟨hseen, haccepts, hall⟩ index' f' hfield'
    by_cases hsame : index' = index
    · subst hsame
      obtain rfl : f = f' := Option.some.inj (hfield.symm.trans hfield')
      have hnone : entries.filter (hasKey f.key) = [] := by simpa [Fits] using hall index' f hfield
      exact fits_cons_self.mpr ⟨hseen, haccepts, hnone⟩
    · exact (hother index' f' hfield' hsame).mpr (hall index' f' hfield')

/-- The entries can all be taken just when they fit every field. -/
theorem exists_foldlM_takeEntry_iff (h : Independent r) (hkeys : StringKeyed entries) (draft : Draft δ) :
    (∃ draft', entries.foldlM (takeEntry r) draft = .ok draft') ↔ AllFit r draft.seen entries := by
  -- Later entries meet a draft in which more fields have been seen, so the fit is stated for any draft.
  induction entries generalizing draft with
  | nil =>
    have hall : AllFit r draft.seen [] := fun _ _ _ => .inl rfl
    exact iff_of_true ⟨draft, rfl⟩ hall
  | cons entry entries ih =>
    obtain ⟨⟨key, hkey⟩, hrest⟩ := stringKeyed_cons.mp hkeys
    obtain ⟨_, v⟩ := entry
    obtain rfl : _ = Value.string key := hkey
    simp only [List.foldlM_cons, bind_eq_ok_iff, takeEntry_eq_ok_iff h]
    constructor
    · rintro ⟨draft', next, ⟨hno, rfl⟩ | ⟨index, f, hfield, rfl, hseen, record, hread, rfl⟩, hdraft'⟩
      · exact (allFit_cons_of_unknown hno).mpr ((ih hrest draft).mp ⟨draft', hdraft'⟩)
      · have haccepts := h.accepts f (List.mem_of_getElem? hfield) _ _ _ hread
        exact (allFit_cons_of_field h hfield).mpr ⟨hseen, haccepts, (ih hrest _).mp ⟨draft', hdraft'⟩⟩
    · intro hall
      by_cases hno : ∀ f ∈ r.fields, f.key ≠ key
      · obtain ⟨draft', hdraft'⟩ := (ih hrest draft).mpr ((allFit_cons_of_unknown hno).mp hall)
        exact ⟨draft', draft, .inl ⟨hno, rfl⟩, hdraft'⟩
      · push Not at hno
        obtain ⟨f, hf, rfl⟩ := hno
        obtain ⟨index, hfield⟩ := List.mem_iff_getElem?.mp hf
        obtain ⟨hseen, haccepts, hnext⟩ := (allFit_cons_of_field h hfield).mp hall
        obtain ⟨record, hread⟩ := haccepts draft.record
        obtain ⟨draft', hdraft'⟩ := (ih hrest ⟨record, index :: draft.seen⟩).mpr hnext
        exact ⟨draft', _, .inr ⟨index, f, hfield, rfl, hseen, record, hread, rfl⟩, hdraft'⟩

theorem mem_seen_of_foldlM_takeEntry (h : Independent r) (hkeys : StringKeyed entries)
    {draft draft' : Draft δ} (hdraft' : entries.foldlM (takeEntry r) draft = .ok draft') {index : Nat}
    (hfield : r.fields[index]? = some f) :
    index ∈ draft'.seen ↔ index ∈ draft.seen ∨ entries.filter (hasKey f.key) ≠ [] := by
  induction entries generalizing draft with
  | nil =>
    obtain rfl : draft = draft' := Except.ok.inj hdraft'
    simp
  | cons entry entries ih =>
    obtain ⟨⟨key, hkey⟩, hrest⟩ := stringKeyed_cons.mp hkeys
    obtain ⟨_, v⟩ := entry
    obtain rfl : _ = Value.string key := hkey
    rw [List.foldlM_cons, bind_eq_ok_iff] at hdraft'
    obtain ⟨next, hnext, hdraft'⟩ := hdraft'
    rw [ih hrest hdraft', List.filter_cons, hasKey_string]
    obtain ⟨hno, rfl⟩ | ⟨index', f', hfield', rfl, -, record, -, rfl⟩ := (takeEntry_eq_ok_iff h).mp hnext
    · have hne := (hno f (List.mem_of_getElem? hfield)).symm
      simp [hne]
    · by_cases hsame : f'.key = f.key
      · have hindex := (indexOf?_eq_some_iff h).mpr ⟨f, hfield, rfl⟩
        have hindex' := (indexOf?_eq_some_iff h).mpr ⟨f', hfield', hsame⟩
        obtain rfl : index' = index := Option.some.inj (hindex'.symm.trans hindex)
        simp [hsame]
      · have hne : index ≠ index' := by
          rintro rfl
          exact hsame (congrArg Field.key (Option.some.inj (hfield'.symm.trans hfield)))
        simp [hsame, hne]

/-! ### Whole records -/

/-- That a mapping gives a field a value it accepts, and gives it once. A field that is not required may be absent. -/
def Given (entries : List (Value × Value)) (f : Field FromValue δ) : Prop :=
  (f.required = false ∧ entries.filter (hasKey f.key) = []) ∨
    ∃ v, entries.filter (hasKey f.key) = [(.string f.key, v)] ∧ Accepts f v

theorem given_iff_fits :
    Given entries f ↔ Fits f False entries ∧ (f.required = true → entries.filter (hasKey f.key) ≠ []) := by
  cases hrequired : f.required with
  | false => simp [Given, Fits, hrequired]
  | true =>
    simp only [Given, Fits, hrequired, reduceCtorEq, false_and, false_or, not_false_eq_true, true_and, forall_true_left]
    constructor
    · rintro ⟨v, hgiven, haccepts⟩
      exact ⟨.inr ⟨v, hgiven, haccepts⟩, by simp [hgiven]⟩
    · rintro ⟨hnone | hgiven, hsome⟩
      · exact absurd hnone hsome
      · exact hgiven

theorem record_mapping_eq (r : Record FromValue δ) (entries : List (Value × Value)) :
    (DataSource.record r : FromValue δ) (.mapping entries) = entries.foldlM (takeEntry r) r.begin >>= r.finish :=
  named_eq_foldlM r entries r.begin

theorem finish_eq_ok_iff {draft : Draft δ} {a : δ} :
    r.finish draft = .ok a ↔
      (∀ index f, r.fields[index]? = some f → f.required = true → index ∈ draft.seen) ∧ draft.record = a := by
  have hmissing : firstMissing draft.seen 0 r.fields = none ↔
      ∀ index f, r.fields[index]? = some f → f.required = true → index ∈ draft.seen := by
    simpa using firstMissing_eq_none_iff draft.seen 0 r.fields
  rw [← hmissing, finish]
  cases firstMissing draft.seen 0 r.fields <;> simp

theorem Given.of_perm (h : Given entries f)
    (hsame : (entries'.filter (hasKey f.key)).Perm (entries.filter (hasKey f.key))) : Given entries' f := by
  obtain ⟨hrequired, hnone⟩ | ⟨v, hone, haccepts⟩ := h
  · rw [hnone, List.perm_nil] at hsame
    exact .inl ⟨hrequired, hsame⟩
  · rw [hone, List.perm_singleton] at hsame
    exact .inr ⟨v, hsame, haccepts⟩

/-- A mapping is read as a record just when it gives every field. -/
theorem exists_record_mapping_iff (h : Independent r) (hkeys : StringKeyed entries) :
    (∃ a, (DataSource.record r : FromValue δ) (.mapping entries) = .ok a) ↔ ∀ f ∈ r.fields, Given entries f := by
  simp only [record_mapping_eq, bind_eq_ok_iff, given_iff_fits]
  constructor
  · rintro ⟨a, draft, hdraft, hfinish⟩ f hf
    obtain ⟨index, hfield⟩ := List.mem_iff_getElem?.mp hf
    have hfits := (exists_foldlM_takeEntry_iff h hkeys r.begin).mp ⟨draft, hdraft⟩ index f hfield
    have hseen := mem_seen_of_foldlM_takeEntry h hkeys hdraft hfield
    have hrequired := (finish_eq_ok_iff.mp hfinish).1 index f hfield
    simp only [begin, List.not_mem_nil, false_or] at hfits hseen
    exact ⟨hfits, fun hyes => hseen.mp (hrequired hyes)⟩
  · intro hgiven
    have hall : AllFit r r.begin.seen entries := by
      intro index f hfield
      simpa [begin] using (hgiven f (List.mem_of_getElem? hfield)).1
    obtain ⟨draft, hdraft⟩ := (exists_foldlM_takeEntry_iff h hkeys r.begin).mpr hall
    refine ⟨draft.record, draft, hdraft, finish_eq_ok_iff.mpr ⟨fun index f hfield hrequired => ?_, rfl⟩⟩
    have hsome := (hgiven f (List.mem_of_getElem? hfield)).2 hrequired
    exact (mem_seen_of_foldlM_takeEntry h hkeys hdraft hfield).mpr (.inr hsome)

/-! ### One setting of a record -/

/-- What a mapping says under a key: nothing, so that a default is taken, or one value. -/
def Holds (entries : List (Value × Value)) (key : String) (q : FromValue β) (default b : β) : Prop :=
  (entries.filter (hasKey key) = [] ∧ b = default) ∨ ∃ v, entries.filter (hasKey key) = [(.string key, v)] ∧ q v = .ok b

theorem Holds.eq_of_perm {q : FromValue β} {default b b' : β} (h : Holds entries key q default b)
    (h' : Holds entries' key q default b') (hsame : (entries'.filter (hasKey key)).Perm (entries.filter (hasKey key))) :
    b' = b := by
  obtain ⟨hnone, rfl⟩ | ⟨v, hone, hv⟩ := h
  · rw [hnone, List.perm_nil] at hsame
    obtain ⟨-, rfl⟩ | ⟨_, hone, -⟩ := h'
    · rfl
    · rw [hsame] at hone
      contradiction
  · rw [hone, List.perm_singleton] at hsame
    obtain ⟨hnone, -⟩ | ⟨v', hone', hv'⟩ := h'
    · rw [hsame] at hnone
      contradiction
    · obtain rfl : v = v' := by simpa [hsame] using hone'
      exact Except.ok.inj (hv'.symm.trans hv)

/-- That `get` is what the field with a key is read as, and that no other field touches it. -/
structure Settles (r : Record FromValue δ) (key : String) (q : FromValue β) (get : δ → β) : Prop where
  mem : ∃ f ∈ r.fields, f.key = key
  read : ∀ f ∈ r.fields, ∀ a v b, f.read a v = .ok b → if f.key = key then q v = .ok (get b) else get b = get a

variable {q : FromValue β} {get : δ → β}

theorem Settles.foldlM_takeEntry (hget : Settles r key q get) (h : Independent r) (hkeys : StringKeyed entries)
    {draft draft' : Draft δ} (hdraft' : entries.foldlM (takeEntry r) draft = .ok draft') :
    Holds entries key q (get draft.record) (get draft'.record) := by
  induction entries generalizing draft with
  | nil =>
    obtain rfl : draft = draft' := Except.ok.inj hdraft'
    exact .inl ⟨rfl, rfl⟩
  | cons entry entries ih =>
    obtain ⟨⟨entryKey, hkey⟩, hrest⟩ := stringKeyed_cons.mp hkeys
    obtain ⟨_, v⟩ := entry
    obtain rfl : _ = Value.string entryKey := hkey
    rw [List.foldlM_cons, bind_eq_ok_iff] at hdraft'
    obtain ⟨next, hnext, hdraft'⟩ := hdraft'
    have hlater := ih hrest hdraft'
    obtain ⟨hno, rfl⟩ | ⟨index, f, hfield, rfl, -, record, hread, rfl⟩ := (takeEntry_eq_ok_iff h).mp hnext
    · obtain ⟨f, hf, rfl⟩ := hget.mem
      simpa [Holds, (hno f hf).symm] using hlater
    · have hf := List.mem_of_getElem? hfield
      by_cases hsame : f.key = key
      · subst hsame
        -- The field has been seen now, so no later entry can be for it.
        have hfits := (exists_foldlM_takeEntry_iff h hrest _).mp ⟨draft', hdraft'⟩ index f hfield
        have hnone : entries.filter (hasKey f.key) = [] := by simpa [Fits] using hfits
        obtain ⟨-, hlast⟩ | ⟨_, hone, -⟩ := hlater
        · refine .inr ⟨v, by simp [hnone], ?_⟩
          have hvalue := hget.read f hf draft.record v record hread
          rwa [if_pos rfl, ← hlast] at hvalue
        · rw [hnone] at hone
          contradiction
      · have hkept := hget.read f hf draft.record v record hread
        rw [if_neg hsame] at hkept
        simpa [Holds, hsame, hkept] using hlater

theorem Settles.holds (hget : Settles r key q get) (h : Independent r) (hkeys : StringKeyed entries) {a : δ}
    (hread : (DataSource.record r : FromValue δ) (.mapping entries) = .ok a) :
    Holds entries key q (get r.blank) (get a) := by
  rw [record_mapping_eq, bind_eq_ok_iff] at hread
  obtain ⟨draft, hdraft, hfinish⟩ := hread
  obtain ⟨-, rfl⟩ := finish_eq_ok_iff.mp hfinish
  exact hget.foldlM_takeEntry h hkeys hdraft

theorem Settles.eq_of_perm (hget : Settles r key q get) (h : Independent r) (hkeys : StringKeyed entries)
    (hkeys' : StringKeyed entries') (hsame : (entries'.filter (hasKey key)).Perm (entries.filter (hasKey key))) {a a' : δ}
    (hread : (DataSource.record r : FromValue δ) (.mapping entries) = .ok a)
    (hread' : (DataSource.record r : FromValue δ) (.mapping entries') = .ok a') : get a' = get a :=
  (hget.holds h hkeys hread).eq_of_perm (hget.holds h hkeys' hread') hsame

end SourceRecipes.FromValue
