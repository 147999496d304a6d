import SourceRecipes.Json.Reader
import SourceRecipes.Proofs.Data.Keys
import SourceRecipes.Proofs.Json.Number
import SourceRecipes.Proofs.Json.StringLiteral

/-!
# The grammar of JSON

A relation between a text, the value that stands in front of it, and what follows. It knows nothing of readers, and says how
deep arrays and objects are nested.
-/

namespace SourceRecipes.Json

theorem dropWord_eq_ok_iff {word text rest : List Char} : dropWord word text = .ok rest ↔ text = word ++ rest := by
  induction word generalizing text with
  | nil => simp [dropWord]
  | cons w word ih =>
    cases text with
    | nil => simp [dropWord]
    | cons c text =>
      by_cases hc : c = w
      · simp [dropWord, hc, ih]
      · simp [dropWord, hc]

theorem length_dropBlanks_le (text : List Char) : (dropBlanks text).length ≤ text.length :=
  (List.dropWhile_sublist _).length_le

theorem dropBlanks_of_not_isBlank {c : Char} (h : isBlank c = false) (rest : List Char) :
    dropBlanks (c :: rest) = c :: rest := by
  simp [dropBlanks, h]

theorem isBlank_of_dropBlanks_eq_cons {text rest : List Char} {c : Char} (h : dropBlanks text = c :: rest) :
    isBlank c = false := by
  have hhead := List.head?_dropWhile_not isBlank text
  rw [← dropBlanks, h] at hhead
  simpa using hhead

@[simp]
theorem dropBlanks_dropBlanks (text : List Char) : dropBlanks (dropBlanks text) = dropBlanks text := by
  cases hdrop : dropBlanks text with
  | nil => rfl
  | cons c rest => exact dropBlanks_of_not_isBlank (isBlank_of_dropBlanks_eq_cons hdrop) rest

/-! ### The grammar -/

/-- Values that are neither arrays nor objects. -/
inductive Scalar : (text : List Char) → Value → (rest : List Char) → Prop
  | null (rest : List Char) : Scalar ("null".toList ++ rest) .null rest
  | true (rest : List Char) : Scalar ("true".toList ++ rest) (.bool true) rest
  | false (rest : List Char) : Scalar ("false".toList ++ rest) (.bool false) rest
  | string {text s rest : List Char} (h : readString .plain text = .ok (s, rest)) :
      Scalar ('"' :: text) (.string (String.ofList s)) rest
  | number {text rest : List Char} {n : Number} (h : readNumber text = .ok (n, rest)) : Scalar text n.value rest

/-- That another element begins in an array, after a comma unless it is the first. -/
inductive StartsElement : (first : Bool) → (text start : List Char) → Prop
  | first {text rest : List Char} {c : Char} (htext : dropBlanks text = c :: rest) (hc : c ≠ ']') :
      StartsElement true text (c :: rest)
  | later {text after rest : List Char} {c : Char} (htext : dropBlanks text = ',' :: after)
      (hafter : dropBlanks after = c :: rest) (hc : c ≠ ']') : StartsElement false text (c :: rest)

/-- That another member begins in an object; it starts after the quote that opens its key. -/
inductive StartsMember : (first : Bool) → (text start : List Char) → Prop
  | first {text start : List Char} (htext : dropBlanks text = '"' :: start) : StartsMember true text start
  | later {text after start : List Char} (htext : dropBlanks text = ',' :: after) (hafter : dropBlanks after = '"' :: start) :
      StartsMember false text start

section

variable (item : List Char → Value → List Char → Prop)

/-- The elements of an array up to and with its closing bracket. -/
inductive Elements : (first : Bool) → (text : List Char) → List Value → (rest : List Char) → Prop
  | done {first : Bool} {text rest : List Char} (h : dropBlanks text = ']' :: rest) : Elements first text [] rest
  | next {first : Bool} {text start after rest : List Char} {v : Value} {items : List Value}
      (hstart : StartsElement first text start) (hitem : item start v after) (hrest : Elements false after items rest) :
      Elements first text (v :: items) rest

/-- The members of an object up to and with its closing bracket. -/
inductive Members : (first : Bool) → (text : List Char) → List (Value × Value) → (rest : List Char) → Prop
  | done {first : Bool} {text rest : List Char} (h : dropBlanks text = '}' :: rest) : Members first text [] rest
  | next {first : Bool} {text start key colon inner after rest : List Char} {v : Value} {entries : List (Value × Value)}
      (hstart : StartsMember first text start) (hkey : readString .plain start = .ok (key, colon))
      (hcolon : dropBlanks colon = ':' :: inner) (hitem : item inner v after) (hrest : Members false after entries rest) :
      Members first text ((.string (String.ofList key), v) :: entries) rest

/-- Values with `item` as what may stand inside. -/
inductive Spelled : (text : List Char) → Value → (rest : List Char) → Prop
  | scalar {text rest : List Char} {v : Value} (h : Scalar (dropBlanks text) v rest) : Spelled text v rest
  | sequence {text inner rest : List Char} {items : List Value} (htext : dropBlanks text = '[' :: inner)
      (hitems : Elements item true inner items rest) : Spelled text (.sequence items) rest
  | mapping {text inner rest : List Char} {entries : List (Value × Value)} (htext : dropBlanks text = '{' :: inner)
      (hentries : Members item true inner entries rest) : Spelled text (.mapping entries) rest

end

/-- That a text begins with a value that enters at most so many arrays and objects at once. -/
def Spells : (levels : Nat) → (text : List Char) → Value → (rest : List Char) → Prop
  | 0 => fun text v rest => Scalar (dropBlanks text) v rest
  | levels + 1 => Spelled (Spells levels)

/-! ### Beginnings and lengths -/

theorem StartsNumber.not_isBlank {c : Char} (h : StartsNumber c) : isBlank c = false := by
  have hspace : c ≠ ' ' := h.ne (by decide)
  have hnewline : c ≠ '\n' := h.ne (by decide)
  have htab : c ≠ '\t' := h.ne (by decide)
  have hreturn : c ≠ '\r' := h.ne (by decide)
  simp [isBlank, hspace, hnewline, htab, hreturn]

section

variable {item : List Char → Value → List Char → Prop} {text rest start : List Char} {v : Value} {first : Bool}

theorem Scalar.length_lt (h : Scalar text v rest) : rest.length < text.length := by
  cases h with
  | null | true | false =>
    rw [List.length_append]
    exact Nat.lt_add_of_pos_left (by decide)
  | string h => exact Nat.lt_succ_of_lt (length_of_readString h)
  | number h => exact length_of_readNumber h

theorem length_lt_of_dropBlanks {c : Char} (h : dropBlanks text = c :: rest) : rest.length < text.length := by
  have hle := length_dropBlanks_le text
  rw [h] at hle
  exact hle

theorem StartsElement.length_le (h : StartsElement first text start) : start.length ≤ text.length := by
  cases h with
  | first htext hc => exact length_lt_of_dropBlanks htext
  | later htext hafter hc =>
    have hcomma := length_lt_of_dropBlanks htext
    have helement := length_lt_of_dropBlanks hafter
    rw [List.length_cons]
    omega

theorem StartsMember.length_lt (h : StartsMember first text start) : start.length < text.length := by
  cases h with
  | first htext => exact length_lt_of_dropBlanks htext
  | later htext hafter => exact Nat.lt_trans (length_lt_of_dropBlanks hafter) (length_lt_of_dropBlanks htext)

theorem Elements.length_lt (hitem : ∀ {text v rest}, item text v rest → rest.length < text.length)
    {items : List Value} (h : Elements item first text items rest) : items.length + rest.length < text.length := by
  induction h with
  | done h =>
    have hlt := length_lt_of_dropBlanks h
    simpa using hlt
  | next hstart helement _ ih =>
    have hle := hstart.length_le
    have hlt := hitem helement
    rw [List.length_cons]
    omega

theorem Members.length_lt (hitem : ∀ {text v rest}, item text v rest → rest.length < text.length)
    {entries : List (Value × Value)} (h : Members item first text entries rest) :
    entries.length + rest.length < text.length := by
  induction h with
  | done h =>
    have hlt := length_lt_of_dropBlanks h
    simpa using hlt
  | next hstart hkey hcolon hmember _ ih =>
    have hstart := hstart.length_lt
    have hkey := length_of_readString hkey
    have hcolon := length_lt_of_dropBlanks hcolon
    have hmember := hitem hmember
    rw [List.length_cons]
    omega

theorem Members.stringKeyed {entries : List (Value × Value)} (h : Members item first text entries rest) :
    StringKeyed entries := by
  induction h with
  | done h => exact List.forall_mem_nil _
  | next hstart hkey hcolon hmember _ ih => exact stringKeyed_cons.mpr ⟨⟨_, rfl⟩, ih⟩

theorem Spells.length_lt {levels : Nat} (h : Spells levels text v rest) : rest.length < text.length := by
  have hscalar : ∀ {text v rest}, Scalar (dropBlanks text) v rest → rest.length < text.length := fun h =>
    Nat.lt_of_lt_of_le h.length_lt (length_dropBlanks_le _)
  induction levels generalizing text v rest with
  | zero => exact hscalar h
  | succ levels ih =>
    cases h with
    | scalar h => exact hscalar h
    | sequence htext hitems =>
      have hopen := length_lt_of_dropBlanks htext
      have hlt := hitems.length_lt ih
      omega
    | mapping htext hentries =>
      have hopen := length_lt_of_dropBlanks htext
      have hlt := hentries.length_lt ih
      omega

theorem Spells.of_blanks {levels : Nat} (h : Spells levels text v rest) : Spells levels (dropBlanks text) v rest := by
  cases levels with
  | zero =>
    unfold Spells at h ⊢
    rwa [dropBlanks_dropBlanks]
  | succ levels =>
    cases h with
    | scalar h => exact .scalar (by rwa [dropBlanks_dropBlanks])
    | sequence htext hitems => exact .sequence (by rwa [dropBlanks_dropBlanks]) hitems
    | mapping htext hentries => exact .mapping (by rwa [dropBlanks_dropBlanks]) hentries

end

end SourceRecipes.Json
