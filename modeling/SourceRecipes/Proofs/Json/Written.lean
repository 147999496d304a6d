import SourceRecipes.Json.Print
import SourceRecipes.Proofs.Json.Spelling

/-!
# Written values

What is written of a value spells it, whatever follows, as long as the value holds no doubles, its whole numbers fit JSON
texts, and its keys are strings.
-/

namespace SourceRecipes.Json

open Value

/-- Values of which nothing is lost when they are written, with the number of arrays and objects they enter at most. -/
inductive Writable : (levels : Nat) → Value → Prop
  | null {levels : Nat} : Writable levels .null
  | bool {levels : Nat} (b : Bool) : Writable levels (.bool b)
  | integer {levels : Nat} {n : Int} (hlow : -2 ^ 63 ≤ n) (hhigh : n < 2 ^ 64) : Writable levels (.integer n)
  | string {levels : Nat} (text : String) : Writable levels (.string text)
  | sequence {levels : Nat} {items : List Value} (h : ∀ v ∈ items, Writable levels v) :
      Writable (levels + 1) (.sequence items)
  | mapping {levels : Nat} {entries : List (Value × Value)} (hkeys : StringKeyed entries)
      (hvalues : ∀ e ∈ entries, Writable levels e.2) : Writable (levels + 1) (.mapping entries)

theorem writeItems_cons (v : Value) (items : List Value) :
    writeItems (v :: items) = v.write ++ items.flatMap fun item => ',' :: item.write := by
  induction items generalizing v with
  | nil => simp [writeItems]
  | cons next items ih =>
    rw [writeItems, ih, List.flatMap_cons, List.cons_append]
    simp

theorem writeEntries_cons (e : Value × Value) (entries : List (Value × Value)) :
    writeEntries (e :: entries) = writeEntry e ++ entries.flatMap fun entry => ',' :: writeEntry entry := by
  induction entries generalizing e with
  | nil => simp [writeEntries]
  | cons next entries ih =>
    rw [writeEntries, ih, List.flatMap_cons, List.cons_append]
    simp

theorem endsNumber_cons {c : Char} (h : Text.isDigit c = false ∧ c ≠ '.' ∧ c ≠ 'e' ∧ c ≠ 'E') (rest : List Char) :
    EndsNumber (c :: rest) := by
  intro d hd
  obtain rfl := Option.some.inj hd
  exact h

theorem writeInteger_begins (n : Int) : ∃ c tail, writeInteger n = c :: tail ∧ StartsNumber c := by
  unfold writeInteger
  split_ifs
  · exact ⟨'-', _, rfl, .inl rfl⟩
  · obtain ⟨digit, tail, hlt, -, hdigits⟩ := exists_toDigits_eq_cons n.natAbs
    exact ⟨_, tail, hdigits, .inr (isDigit_digitChar hlt)⟩

/-- A written value begins where an element of an array may begin. -/
theorem write_begins {levels : Nat} {v : Value} (h : Writable levels v) :
    ∃ c tail, v.write = c :: tail ∧ isBlank c = false ∧ c ≠ ']' := by
  cases h with
  | null => exact ⟨'n', _, rfl, by decide, by decide⟩
  | bool b => cases b <;> exact ⟨_, _, rfl, by decide, by decide⟩
  | @integer _ n _ _ =>
    obtain ⟨c, tail, hwrite, hc⟩ := writeInteger_begins n
    exact ⟨c, tail, hwrite, hc.not_isBlank, hc.ne (by decide)⟩
  | string text => exact ⟨'"', _, rfl, by decide, by decide⟩
  | sequence h => exact ⟨'[', _, rfl, by decide, by decide⟩
  | mapping hkeys hvalues => exact ⟨'{', _, rfl, by decide, by decide⟩

theorem spells_of_scalar {levels : Nat} {text rest : List Char} {v : Value} (h : Scalar (dropBlanks text) v rest) :
    Spells levels text v rest := by
  cases levels with
  | zero => exact h
  | succ levels => exact .scalar h

section

variable {levels : Nat} {rest : List Char}

theorem endsNumber_flatMap {α : Type} (write : α → List Char) (items : List α) {bracket : Char}
    (h : Text.isDigit bracket = false ∧ bracket ≠ '.' ∧ bracket ≠ 'e' ∧ bracket ≠ 'E') (rest : List Char) :
    EndsNumber ((items.flatMap fun item => ',' :: write item) ++ bracket :: rest) := by
  cases items with
  | nil => exact endsNumber_cons h rest
  | cons item items => exact endsNumber_cons (by decide) _

theorem elements_flatMap_write {items : List Value} (h : ∀ v ∈ items, Writable levels v)
    (hspells : ∀ v ∈ items, ∀ {rest}, EndsNumber rest → Spells levels (v.write ++ rest) v rest) (rest : List Char) :
    Elements (Spells levels) false ((items.flatMap fun item => ',' :: item.write) ++ ']' :: rest) items rest := by
  induction items with
  | nil => exact .done (dropBlanks_of_not_isBlank rfl rest)
  | cons v items ih =>
    simp only [List.mem_cons, forall_eq_or_imp] at h hspells
    obtain ⟨c, tail, hwrite, hblank, hc⟩ := write_begins h.1
    have hends := endsNumber_flatMap write items (show Text.isDigit ']' = false ∧ _ by decide) rest
    have hitem := hspells.1 hends
    rw [List.flatMap_cons, List.append_assoc, List.cons_append]
    rw [hwrite, List.cons_append] at hitem ⊢
    exact .next (.later (dropBlanks_of_not_isBlank rfl _) (dropBlanks_of_not_isBlank hblank _) hc) hitem
      (ih h.2 hspells.2)

theorem elements_writeItems {items : List Value} (h : ∀ v ∈ items, Writable levels v)
    (hspells : ∀ v ∈ items, ∀ {rest}, EndsNumber rest → Spells levels (v.write ++ rest) v rest) (rest : List Char) :
    Elements (Spells levels) true (writeItems items ++ ']' :: rest) items rest := by
  cases items with
  | nil => exact .done (dropBlanks_of_not_isBlank rfl rest)
  | cons v items =>
    simp only [List.mem_cons, forall_eq_or_imp] at h hspells
    obtain ⟨c, tail, hwrite, hblank, hc⟩ := write_begins h.1
    have hends := endsNumber_flatMap write items (show Text.isDigit ']' = false ∧ _ by decide) rest
    have hitem := hspells.1 hends
    rw [writeItems_cons, List.append_assoc]
    rw [hwrite, List.cons_append] at hitem ⊢
    exact .next (.first (dropBlanks_of_not_isBlank hblank _) hc) hitem (elements_flatMap_write h.2 hspells.2 rest)

theorem writeEntry_string (key : String) (v : Value) (rest : List Char) :
    writeEntry (.string key, v) ++ rest = '"' :: (key.toList.flatMap escaped ++ '"' :: ':' :: (v.write ++ rest)) := by
  simp [writeEntry, writeString]

/-- A written entry is a member, wherever members may start. -/
theorem members_writeEntry {first : Bool} {text after : List Char} {key : String} {v : Value}
    {entries : List (Value × Value)}
    (hstart : StartsMember first text (key.toList.flatMap escaped ++ '"' :: ':' :: (v.write ++ after)))
    (hitem : Spells levels (v.write ++ after) v after) (hrest : Members (Spells levels) false after entries rest) :
    Members (Spells levels) first text ((.string key, v) :: entries) rest := by
  have hkey := readString_flatMap_escaped key.toList (':' :: (v.write ++ after))
  have hmembers := Members.next hstart hkey (dropBlanks_of_not_isBlank rfl _) hitem hrest
  rwa [String.ofList_toList] at hmembers

theorem members_flatMap_writeEntry {entries : List (Value × Value)} (hkeys : StringKeyed entries)
    (hspells : ∀ e ∈ entries, ∀ {rest}, EndsNumber rest → Spells levels (e.2.write ++ rest) e.2 rest) (rest : List Char) :
    Members (Spells levels) false ((entries.flatMap fun entry => ',' :: writeEntry entry) ++ '}' :: rest) entries rest := by
  induction entries with
  | nil => exact .done (dropBlanks_of_not_isBlank rfl rest)
  | cons e entries ih =>
    simp only [stringKeyed_cons, List.mem_cons, forall_eq_or_imp] at hkeys hspells
    obtain ⟨_, v⟩ := e
    obtain ⟨key, rfl⟩ := hkeys.1
    have hends := endsNumber_flatMap writeEntry entries (show Text.isDigit '}' = false ∧ _ by decide) rest
    have hstart := writeEntry_string key v ((entries.flatMap fun entry => ',' :: writeEntry entry) ++ '}' :: rest)
    rw [List.flatMap_cons, List.append_assoc, List.cons_append, hstart]
    exact members_writeEntry (.later (dropBlanks_of_not_isBlank rfl _) (dropBlanks_of_not_isBlank rfl _))
      (hspells.1 hends) (ih hkeys.2 hspells.2)

theorem members_writeEntries {entries : List (Value × Value)} (hkeys : StringKeyed entries)
    (hspells : ∀ e ∈ entries, ∀ {rest}, EndsNumber rest → Spells levels (e.2.write ++ rest) e.2 rest) (rest : List Char) :
    Members (Spells levels) true (writeEntries entries ++ '}' :: rest) entries rest := by
  cases entries with
  | nil => exact .done (dropBlanks_of_not_isBlank rfl rest)
  | cons e entries =>
    simp only [stringKeyed_cons, List.mem_cons, forall_eq_or_imp] at hkeys hspells
    obtain ⟨_, v⟩ := e
    obtain ⟨key, rfl⟩ := hkeys.1
    have hends := endsNumber_flatMap writeEntry entries (show Text.isDigit '}' = false ∧ _ by decide) rest
    have hstart := writeEntry_string key v ((entries.flatMap fun entry => ',' :: writeEntry entry) ++ '}' :: rest)
    rw [writeEntries_cons, List.append_assoc, hstart]
    exact members_writeEntry (.first (dropBlanks_of_not_isBlank rfl _)) (hspells.1 hends)
      (members_flatMap_writeEntry hkeys.2 hspells.2 rest)

end

theorem spells_write {levels : Nat} {v : Value} (h : Writable levels v) {rest : List Char} (hrest : EndsNumber rest) :
    Spells levels (v.write ++ rest) v rest := by
  induction h generalizing rest with
  | null => exact spells_of_scalar (.null rest)
  | bool b =>
    cases b
    · exact spells_of_scalar (.false rest)
    · exact spells_of_scalar (.true rest)
  | @integer _ n hlow hhigh =>
    obtain ⟨c, tail, hwrite, hc⟩ := writeInteger_begins n
    have hread := readNumber_writeInteger hlow hhigh hrest
    apply spells_of_scalar
    change Scalar (dropBlanks (writeInteger n ++ rest)) _ rest
    rw [hwrite, List.cons_append] at hread ⊢
    rw [dropBlanks_of_not_isBlank hc.not_isBlank]
    exact .number hread
  | string text =>
    have hscalar := Scalar.string (readString_flatMap_escaped text.toList rest)
    rw [String.ofList_toList] at hscalar
    apply spells_of_scalar
    rw [write, writeString, List.cons_append, List.append_assoc, dropBlanks_of_not_isBlank rfl]
    exact hscalar
  | sequence h ih =>
    rw [write, List.cons_append, List.append_assoc]
    exact .sequence (dropBlanks_of_not_isBlank rfl _) (elements_writeItems h ih rest)
  | mapping hkeys hvalues ih =>
    rw [write, List.cons_append, List.append_assoc]
    exact .mapping (dropBlanks_of_not_isBlank rfl _) (members_writeEntries hkeys ih rest)

/-- A value that is written and read again is the same value. -/
theorem parse_json {v : Value} (h : Writable (depthLimit - 1) v) : parse v.json = .ok v := by
  have hends : EndsNumber [] := fun c hc => nomatch hc
  have hspells := spells_write h hends
  rw [List.append_nil] at hspells
  rw [parse_eq_ok_iff, Value.json, String.toList_ofList]
  exact ⟨[], hspells, rfl⟩

end SourceRecipes.Json
