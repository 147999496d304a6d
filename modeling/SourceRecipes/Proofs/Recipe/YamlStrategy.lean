import SourceRecipes.Proofs.Recipe.Leniency
import SourceRecipes.Proofs.Yaml.PlainScalar
import SourceRecipes.Proofs.Yaml.Root
import SourceRecipes.Yaml.Reader

/-!
# Strategies in YAML

Any value of a YAML document can be read as a strategy, and asks to leave the file unless it is a text that names another
strategy. The exceptions are whole numbers that fit 128 bits and not 64, which cannot be read.
-/

namespace SourceRecipes

open Yaml

namespace Yaml.Node

/-- The tag of the value that a node holds. -/
def tag : Node → Option String
  | void => none
  | scalar _ tag _ _ => tag
  | sequence _ tag _ => tag
  | mapping _ tag _ => tag
  | reference _ => none

/-- That a node holds a text. -/
def IsText (n : Node) (raw : String) : Prop :=
  ∃ anchor tag style, n = scalar anchor tag style raw ∧ scalarValue tag style raw = .ok (.string raw)

/-- That a node is a scalar whose text names a word, be it a text or something else. -/
def Names (n : Node) (word : String) : Prop :=
  ∃ anchor tag style raw, n = scalar anchor tag style raw ∧ ExistingFileStrategy.Names raw word

/-- That a node holds a text that names a word. -/
def AsksFor (n : Node) (word : String) : Prop :=
  ∃ raw, n.IsText raw ∧ ExistingFileStrategy.Names raw word

/-- That a node is a plain scalar which spells a whole number of more than 64 bits and at most 128. -/
def IsWideNumber (n : Node) : Prop :=
  ∃ anchor tag raw, n = scalar anchor tag .plain raw ∧ SpellsWideNumber raw

end Yaml.Node

namespace ExistingFileStrategy

/-! ### Texts that name nothing -/

theorem range_of_startsNumber {c : Char} {rest : List Char} (h : startsNumber (c :: rest) = true) :
    43 ≤ c.toNat ∧ c.toNat ≤ 57 := by
  simp only [startsNumber, List.head?_cons, Option.any_some, Bool.or_eq_true, Text.isDigit_iff, beq_iff_eq] at h
  rcases h with ((⟨hlower, hupper⟩ | rfl) | rfl) | rfl
  · have hlower' : 48 ≤ c.toNat := hlower
    have hupper' : c.toNat ≤ 57 := hupper
    omega
  all_goals decide

theorem isBlank_of_startsNumber {c : Char} {rest : List Char} (h : startsNumber (c :: rest) = true) :
    Text.isBlank c = false := by
  have hrange := range_of_startsNumber h
  rw [Bool.eq_false_iff]
  intro hblank
  simp only [Text.isBlank, Text.blankRanges, List.any_cons, List.any_nil, Bool.or_eq_true, Bool.and_eq_true,
    decide_eq_true_eq, Bool.false_eq_true, or_false] at hblank
  omega

theorem toLower_of_startsNumber {c : Char} {rest : List Char} (h : startsNumber (c :: rest) = true) : c.toLower = c := by
  have hrange := range_of_startsNumber h
  apply dif_neg
  rintro ⟨hupper, -⟩
  have hupper' : 65 ≤ c.toNat := hupper
  omega

/-- Where a number begins there is neither a blank to be trimmed nor a letter. -/
theorem startsNumber_of_names {raw word : String} (h : Names raw word)
    (hletter : ∃ c ∈ word.toList.head?, 57 < c.toNat) : startsNumber raw.toList = false := by
  obtain ⟨before, middle, after, hraw, hbefore, -, hmiddle⟩ := h
  obtain ⟨first, hfirst, hletter⟩ := hletter
  rw [Bool.eq_false_iff, hraw]
  intro hstarts
  cases before with
  | cons c before =>
    have hblank := hbefore c List.mem_cons_self
    rw [isBlank_of_startsNumber hstarts] at hblank
    contradiction
  | nil =>
    rw [← hmiddle] at hfirst
    cases middle with
    | nil => nomatch hfirst
    | cons c middle =>
      rw [List.map_cons, toLower_of_startsNumber hstarts] at hfirst
      obtain rfl : c = first := Option.some.inj hfirst
      have hrange := range_of_startsNumber hstarts
      omega

theorem ofText_of_startsNumber {raw : String} (h : startsNumber raw.toList = true) : ofText raw = leave := by
  cases hread : ofText raw with
  | leave => rfl
  | extend =>
    rw [startsNumber_of_names ((ofText_eq_extend_iff raw).mp hread) ⟨'c', rfl, by decide⟩] at h
    contradiction
  | replace =>
    rw [startsNumber_of_names ((ofText_eq_replace_iff raw).mp hread) ⟨'r', rfl, by decide⟩] at h
    contradiction

theorem ofText_of_mem_typedWords : ∀ word ∈ typedWords, ofText word = leave := by
  decide

theorem ofText_of_mayBeTyped {raw : String} (h : MayBeTyped raw) : ofText raw = leave :=
  h.elim (ofText_of_mem_typedWords raw) ofText_of_startsNumber

theorem ofText_of_spellsWideNumber {raw : String} (h : SpellsWideNumber raw) : ofText raw = leave := by
  obtain ⟨n, hn, -⟩ := h
  exact ofText_of_mayBeTyped (Or.inr hn.startsNumber)

/-! ### Scalars -/

variable {style : ScalarStyle} {raw text : String} {d : Yaml.Document}

theorem scalarValue_of_ne_plain (h : style ≠ .plain) (raw : String) :
    scalarValue none style raw = .ok (.string raw) := by
  cases style with
  | plain => contradiction
  | _ => rfl

theorem scalarValue_plain (raw : String) :
    scalarValue none .plain raw = answered (plainDatum raw) "any value" (plainDatum raw).value? := rfl

theorem exists_scalarValue (h : style = .plain → ¬ SpellsWideNumber raw) :
    ∃ v, scalarValue none style raw = .ok v ∧ (v = .string raw ∨ (∀ text, v ≠ .string text) ∧ ofText raw = leave) := by
  by_cases hstyle : style = .plain
  · subst hstyle
    obtain ⟨v, hv, htext⟩ := exists_value?_plainDatum (h rfl)
    refine ⟨v, ?_, htext.imp_right fun h => ⟨h.1, ofText_of_mayBeTyped h.2⟩⟩
    rw [scalarValue_plain, hv]
    rfl
  · exact ⟨_, scalarValue_of_ne_plain hstyle raw, Or.inl rfl⟩

theorem answered_of_isWideDatum {α : Type} {datum : Datum} (h : IsWideDatum datum) (expected : String) :
    answered datum expected (none : Option α) = .error .wideInteger := by
  obtain ⟨_, n, rfl, rfl | rfl⟩ := h <;> rfl

theorem scalarValue_of_spellsWideNumber (h : SpellsWideNumber raw) :
    scalarValue none .plain raw = .error .wideInteger := by
  have hwide := plainDatum_of_spellsWideNumber h
  rw [scalarValue_plain, hwide.value?_eq_none, answered_of_isWideDatum hwide]

/-- A text that is read as a strategy other than to leave the file needs no quotes. -/
theorem scalarValue_of_ofText_ne_leave (h : ofText raw ≠ leave) : scalarValue none style raw = .ok (.string raw) := by
  have hnarrow : style = .plain → ¬ SpellsWideNumber raw := fun _ hwide => h (ofText_of_spellsWideNumber hwide)
  obtain ⟨v, hv, rfl | ⟨-, hleave⟩⟩ := exists_scalarValue hnarrow
  · exact hv
  · contradiction

theorem asksFor_of_names {n : Node} (htag : n.tag = none) :
    ∀ word ∈ ["continue", "replace"], n.Names word → n.AsksFor word := by
  rintro word hword ⟨anchor, tag, style, raw, rfl, hnames⟩
  obtain rfl : tag = none := htag
  have hread : ofText raw ≠ leave := by
    simp only [List.mem_cons, List.not_mem_nil, or_false] at hword
    rcases hword with rfl | rfl
    · rw [(ofText_eq_extend_iff raw).mpr hnames]
      decide
    · rw [(ofText_eq_replace_iff raw).mpr hnames]
      decide
  exact ⟨raw, ⟨anchor, none, style, rfl, scalarValue_of_ofText_ne_leave hread⟩, hnames⟩

/-! ### Roots -/

/-- There is an answer to a scalar just when it is kept as a value. -/
theorem answered_handler (datum : Datum) :
    answered datum handler.expected (handler.scalar datum) = (answered datum "any value" datum.value?).map asked := by
  cases datum with
  | integer type n => cases type <;> rfl
  | _ => rfl

theorem run_ofExcept {α : Type} (x : Except Error α) (place : Place) (followed : Nat) :
    ((Reader.ofExcept x : Reader α) place).run followed = x.map (·, followed) := by
  cases x <;> rfl

theorem run_any_scalar {α : Type} (handler : Handler α) {place : Place} {anchor : Option Nat} {tag : Option String}
    (h : place.node = .scalar anchor tag style raw) (followed : Nat) :
    (Reader.any handler place).run followed =
      (scalarDatum tag style raw >>= fun datum => answered datum handler.expected (handler.scalar datum)).map (·, followed) := by
  obtain ⟨document, node, levels⟩ := place
  obtain rfl : node = .scalar anchor tag style raw := h
  have hsteps : (Reader.any handler ⟨document, .scalar anchor tag style raw, levels⟩).run followed =
      ((Reader.ofExcept (scalarDatum tag style raw) : Reader Datum) ⟨document, .scalar anchor tag style raw, levels⟩).run
        followed >>= fun p =>
      ((Reader.ofExcept (answered p.1 handler.expected (handler.scalar p.1)) : Reader α)
        ⟨document, .scalar anchor tag style raw, levels⟩).run p.2 := rfl
  rw [hsteps, run_ofExcept]
  cases scalarDatum tag style raw with
  | error e => rfl
  | ok datum => exact run_ofExcept _ ⟨document, .scalar anchor tag style raw, levels⟩ followed

theorem read_scalar {anchor : Option Nat} (h : d.root = .scalar anchor none style raw) :
    d.read (ExistingFileStrategy.read : Reader ExistingFileStrategy) = (scalarValue none style raw).map asked := by
  have hread : d.read (ExistingFileStrategy.read : Reader ExistingFileStrategy) =
      (Reader.any handler ⟨d, d.root, depthLimit⟩).run 0 >>= fun p => pure p.1 := rfl
  rw [hread, run_any_scalar handler h, scalarValue]
  simp only [answered_handler]
  cases scalarDatum none style raw with
  | error e => rfl
  | ok datum =>
    change (((answered datum "any value" datum.value?).map asked).map (·, 0) >>= fun p => pure p.1) =
      (answered datum "any value" datum.value?).map asked
    cases answered datum "any value" datum.value? <;> rfl

theorem read_sequence {anchor : Option Nat} {items : List Node} (h : d.root = .sequence anchor none items) :
    d.read (ExistingFileStrategy.read : Reader ExistingFileStrategy) = .ok leave := by
  rw [Yaml.Document.read, h]
  rfl

theorem read_mapping {anchor : Option Nat} {entries : List (Node × Node)} (h : d.root = .mapping anchor none entries) :
    d.read (ExistingFileStrategy.read : Reader ExistingFileStrategy) = .ok leave := by
  rw [Yaml.Document.read, h]
  rfl

theorem read_of_isWideNumber (htag : d.root.tag = none) (h : d.root.IsWideNumber) :
    d.read (ExistingFileStrategy.read : Reader ExistingFileStrategy) = .error .wideInteger := by
  obtain ⟨anchor, tag, raw, hroot, hwide⟩ := h
  obtain rfl : tag = none := by simpa [hroot, Node.tag] using htag
  rw [read_scalar hroot, scalarValue_of_spellsWideNumber hwide]
  rfl

/-! ### What a document asks for -/

/-- That a strategy is the one which a node asks for. -/
structure IsRequestOf (n : Node) (strategy : ExistingFileStrategy) : Prop where
  extends_iff : strategy = extend ↔ n.AsksFor "continue"
  replaces_iff : strategy = replace ↔ n.AsksFor "replace"
  leaves_iff : strategy = leave ↔ ¬ n.AsksFor "continue" ∧ ¬ n.AsksFor "replace"

theorem isRequestOf_asked {n : Node} {v : Value} (h : ∀ word, AsksFor v word ↔ n.AsksFor word) :
    IsRequestOf n (asked v) where
  extends_iff := (asked_eq_extend_iff v).trans (h _)
  replaces_iff := (asked_eq_replace_iff v).trans (h _)
  leaves_iff := by rw [asked_eq_leave_iff, h, h]

theorem isRequestOf_scalar {anchor : Option Nat} {v : Value} (hv : scalarValue none style raw = .ok v)
    (htext : v = .string raw ∨ ∀ text, v ≠ .string text) : IsRequestOf (.scalar anchor none style raw) (asked v) := by
  refine isRequestOf_asked fun word => ⟨?_, ?_⟩
  · rintro ⟨text, rfl, hnames⟩
    obtain rfl : text = raw := by simpa using htext
    exact ⟨text, ⟨anchor, none, style, rfl, hv⟩, hnames⟩
  · rintro ⟨text, ⟨_, _, _, hnode, hstring⟩, hnames⟩
    obtain ⟨rfl, rfl, rfl, rfl⟩ := Node.scalar.inj hnode
    exact ⟨raw, Except.ok.inj (hv.symm.trans hstring), hnames⟩

theorem isRequestOf_leave {n : Node} (h : ∀ anchor tag style raw, n ≠ .scalar anchor tag style raw) :
    IsRequestOf n leave := by
  refine @isRequestOf_asked n .null fun word => ⟨?_, ?_⟩
  · rintro ⟨text, htext, -⟩
    contradiction
  · rintro ⟨text, ⟨anchor, tag, style, hnode, -⟩, -⟩
    exact absurd hnode (h anchor tag style text)

theorem exists_read (hholds : d.root.holdsValue = true) (htag : d.root.tag = none) (hnarrow : ¬ d.root.IsWideNumber) :
    ∃ strategy, d.read (ExistingFileStrategy.read : Reader ExistingFileStrategy) = .ok strategy ∧
      IsRequestOf d.root strategy := by
  cases hroot : d.root with
  | void => simp [hroot, Node.holdsValue] at hholds
  | reference number => simp [hroot, Node.holdsValue] at hholds
  | scalar anchor tag style raw =>
    obtain rfl : tag = none := by simpa [hroot, Node.tag] using htag
    have hplain : style = .plain → ¬ SpellsWideNumber raw := by
      rintro rfl hwide
      exact hnarrow ⟨anchor, none, raw, hroot, hwide⟩
    obtain ⟨v, hv, htext⟩ := exists_scalarValue hplain
    exact ⟨asked v, by rw [read_scalar hroot, hv]; rfl, isRequestOf_scalar hv (htext.imp_right And.left)⟩
  | sequence anchor tag items =>
    obtain rfl : tag = none := by simpa [hroot, Node.tag] using htag
    exact ⟨leave, read_sequence hroot, isRequestOf_leave (by simp)⟩
  | mapping anchor tag entries =>
    obtain rfl : tag = none := by simpa [hroot, Node.tag] using htag
    exact ⟨leave, read_mapping hroot, isRequestOf_leave (by simp)⟩

theorem parse_of_tokens (h : (Yaml.tokens text).toOption = some [.scalar style raw]) :
    Document.parse text = .ok (.ofNode (.scalar none none style raw)) := by
  rw [Document.parse, toOption_eq_some_iff.mp h]
  rfl

theorem read_of_parse (hparse : Document.parse text = .ok d) :
    Yaml.read (ExistingFileStrategy.read : Reader ExistingFileStrategy) text =
      d.read (ExistingFileStrategy.read : Reader ExistingFileStrategy) := by
  rw [Yaml.read, hparse]
  rfl

/-- A document that holds a value without a tag is read as the strategy which its root asks for, unless the root is a whole
number that fits 128 bits and not 64. A text asks for a strategy whether it is quoted or not. -/
theorem read_untagged_document (hparse : Document.parse text = .ok d) (hvalue : d.root ≠ .void) (htag : d.root.tag = none) :
    (¬ d.root.IsWideNumber → ∃ strategy,
      Yaml.read (ExistingFileStrategy.read : Reader ExistingFileStrategy) text = .ok strategy ∧
        IsRequestOf d.root strategy) ∧
    (d.root.IsWideNumber →
      Yaml.read (ExistingFileStrategy.read : Reader ExistingFileStrategy) text = .error .wideInteger) ∧
    ∀ word ∈ ["continue", "replace"], d.root.Names word → d.root.AsksFor word := by
  have hholds : d.root.holdsValue = true := (Document.root_of_parse hparse).resolve_left hvalue
  rw [read_of_parse hparse]
  exact ⟨exists_read hholds htag, read_of_isWideNumber htag, asksFor_of_names htag⟩

theorem read_untagged_document_of_quoted :
    Document.parse "'Replace '" = .ok (.ofNode (.scalar none none .singleQuoted "Replace ")) ∧
      Yaml.read (ExistingFileStrategy.read : Reader ExistingFileStrategy) "'Replace '" = .ok replace := by
  have hparse : Document.parse "'Replace '" = .ok (.ofNode (.scalar none none .singleQuoted "Replace ")) :=
    parse_of_tokens (by decide +kernel)
  have hnarrow : ¬ (Node.scalar none none .singleQuoted "Replace ").IsWideNumber := by
    rintro ⟨_, _, _, hnode, -⟩
    nomatch hnode
  obtain ⟨hread, -, hasks⟩ := read_untagged_document hparse (by simp [Document.ofNode]) rfl
  obtain ⟨strategy, hstrategy, hrequest⟩ := hread hnarrow
  have hnames : (Node.scalar none none .singleQuoted "Replace ").Names "replace" :=
    ⟨none, none, .singleQuoted, "Replace ", rfl, (ofText_eq_replace_iff _).mp (by decide)⟩
  obtain rfl := hrequest.replaces_iff.mpr (hasks "replace" (by simp) hnames)
  exact ⟨hparse, hstrategy⟩

/-- Two to the power of 64 cannot be read as a strategy. -/
theorem read_two_pow_64 :
    ∃ d, Document.parse "18446744073709551616" = .ok d ∧ d.root ≠ .void ∧ d.root.tag = none ∧
      ∀ strategy,
        Yaml.read (ExistingFileStrategy.read : Reader ExistingFileStrategy) "18446744073709551616" ≠ .ok strategy := by
  have hparse : Document.parse "18446744073709551616" =
      .ok (.ofNode (.scalar none none .plain "18446744073709551616")) :=
    parse_of_tokens (by decide +kernel)
  have hwide : SpellsWideNumber "18446744073709551616" := by
    refine ⟨2 ^ 64, integerOf?_eq_some_iff.mp (by decide +kernel), ?_⟩
    rw [IsWide]
    omega
  refine ⟨_, hparse, by simp [Document.ofNode], rfl, fun strategy hread => ?_⟩
  rw [read_of_parse hparse, read_of_isWideNumber rfl ⟨none, none, _, rfl, hwide⟩] at hread
  nomatch hread

end ExistingFileStrategy

end SourceRecipes
