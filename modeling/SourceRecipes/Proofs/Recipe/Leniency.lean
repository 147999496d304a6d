import SourceRecipes.Proofs.Data.Mapping
import SourceRecipes.Proofs.Json.Others
import SourceRecipes.Proofs.Run.Serialisation

/-!
# Strategies never fail

Whatever stands under the key of the strategy, a recipe that could be read can still be read, and its other options are as
they were. A file is only extended or replaced if the very word for that stands there.
-/

namespace SourceRecipes

open Json FromValue

namespace ExistingFileStrategy

/-- What a value asks for. -/
def asked : Value → ExistingFileStrategy
  | .string raw => ofText raw
  | _ => leave

/-- There is an answer to every value that is kept. -/
theorem onValue_handler (v : Value) : handler.onValue v = .ok (asked v) := by
  cases v with
  | integer n =>
    rw [Handler.onValue]
    split_ifs <;> rfl
  | _ => rfl

theorem exists_read_optional (v : Value) :
    ∃ strategy?, (DataSource.optional read : FromValue (Option ExistingFileStrategy)) v = .ok strategy? ∧
      strategy?.getD leave = asked v := by
  by_cases hnull : v = .null
  · subst hnull
    exact ⟨none, rfl, rfl⟩
  · have hread : (read : FromValue ExistingFileStrategy) v = .ok (asked v) := onValue_handler v
    refine ⟨some (asked v), ?_, Option.getD_some⟩
    rw [optional_of_ne_null _ hnull, hread]
    rfl

/-- That a value is a text that names a word. -/
def AsksFor (v : Value) (word : String) : Prop :=
  ∃ raw, v = .string raw ∧ Names raw word

theorem asked_eq_extend_iff (v : Value) : asked v = extend ↔ AsksFor v "continue" := by
  cases v with
  | string raw => simp [asked, AsksFor, ofText_eq_extend_iff]
  | _ => simp [asked, AsksFor]

theorem asked_eq_replace_iff (v : Value) : asked v = replace ↔ AsksFor v "replace" := by
  cases v with
  | string raw => simp [asked, AsksFor, ofText_eq_replace_iff]
  | _ => simp [asked, AsksFor]

theorem asked_eq_leave_iff (v : Value) : asked v = leave ↔ ¬ AsksFor v "continue" ∧ ¬ AsksFor v "replace" := by
  rw [← asked_eq_extend_iff, ← asked_eq_replace_iff]
  cases asked v <;> simp

end ExistingFileStrategy

namespace AppendToTextFile

open ExistingFileStrategy (AsksFor asked)

/-! ### What the fields are read as -/

/-- What the field with a key makes of a recipe and a value. -/
inductive Sets (r : AppendToTextFile) (v : Value) : String → AppendToTextFile → Prop
  | relativeFileName {path : SourcePath} (h : (SourcePath.read : FromValue SourcePath) v = .ok path) :
      Sets r v "relativeFileName" { r with relativeFileName := path }
  | content {text : String} (h : (DataSource.string : FromValue String) v = .ok text) :
      Sets r v "content" { r with content := text }
  | preamble {text? : Option String} (h : (DataSource.optional DataSource.string : FromValue (Option String)) v = .ok text?) :
      Sets r v "preamble" { r with preamble := text? }
  | appendNewline {b? : Option Bool} (h : (DataSource.optional DataSource.boolean : FromValue (Option Bool)) v = .ok b?) :
      Sets r v "appendNewline" { r with appendNewline := b? }
  | existingFileStrategy {strategy? : Option ExistingFileStrategy}
      (h : (DataSource.optional ExistingFileStrategy.read : FromValue (Option ExistingFileStrategy)) v = .ok strategy?) :
      Sets r v "existingFileStrategy" { r with existingFileStrategy := strategy? }

theorem sets_of_read : ∀ f ∈ (record : Record FromValue AppendToTextFile).fields, ∀ r v r', f.read r v = .ok r' →
    Sets r v f.key r' := by
  simp only [record, List.forall_mem_cons]
  refine ⟨?_, ?_, ?_, ?_, ?_, List.forall_mem_nil _⟩
  all_goals
    intro r v r' hread
    obtain ⟨a, ha, rfl⟩ := setting_eq_ok_iff.mp hread
  · exact .relativeFileName ha
  · exact .content ha
  · exact .preamble ha
  · exact .appendNewline ha
  · exact .existingFileStrategy ha

theorem ne_recipe_of_mem_keys : ∀ key ∈ (record : Record FromValue AppendToTextFile).fields.map Field.key,
    key ≠ "recipe" := by
  simp [record]

theorem independent_record : Independent (record : Record FromValue AppendToTextFile) where
  nodup := by decide
  accepts := by
    simp only [record, List.forall_mem_cons]
    refine ⟨?_, ?_, ?_, ?_, ?_, List.forall_mem_nil _⟩
    all_goals
      intro r v r' hread other
      obtain ⟨a, ha, -⟩ := setting_eq_ok_iff.mp hread
      exact ⟨_, setting_eq_ok_iff.mpr ⟨a, ha, rfl⟩⟩

theorem accepts_strategy : ∀ f ∈ (record : Record FromValue AppendToTextFile).fields, f.key = "existingFileStrategy" →
    ∀ v, Accepts f v := by
  simp only [record, List.forall_mem_cons]
  refine ⟨?_, ?_, ?_, ?_, ?_, List.forall_mem_nil _⟩
  all_goals intro hkey
  · contradiction
  · contradiction
  · contradiction
  · contradiction
  · intro v r
    obtain ⟨strategy?, hread, -⟩ := ExistingFileStrategy.exists_read_optional v
    exact ⟨_, setting_eq_ok_iff.mpr ⟨strategy?, hread, rfl⟩⟩

theorem settles_of_sets {β : Type} {key : String} {q : FromValue β} {get : AppendToTextFile → β}
    (hmem : key ∈ (record : Record FromValue AppendToTextFile).fields.map Field.key)
    (hsets : ∀ r v k r', Sets r v k r' → if k = key then q v = .ok (get r') else get r' = get r) :
    Settles (record : Record FromValue AppendToTextFile) key q get where
  mem := List.mem_map.mp hmem
  read f hf r v r' hread := hsets r v f.key r' (sets_of_read f hf r v r' hread)

theorem settles_relativeFileName :
    Settles (record : Record FromValue AppendToTextFile) "relativeFileName" SourcePath.read relativeFileName := by
  apply settles_of_sets (by simp [record])
  rintro r v _ _ (h | h | h | h | h) <;> simp [h]

theorem settles_content : Settles (record : Record FromValue AppendToTextFile) "content" DataSource.string content := by
  apply settles_of_sets (by simp [record])
  rintro r v _ _ (h | h | h | h | h) <;> simp [h]

theorem settles_preamble : Settles (record : Record FromValue AppendToTextFile) "preamble"
    (DataSource.optional DataSource.string) preamble := by
  apply settles_of_sets (by simp [record])
  rintro r v _ _ (h | h | h | h | h) <;> simp [h]

theorem settles_appendNewline : Settles (record : Record FromValue AppendToTextFile) "appendNewline"
    (DataSource.optional DataSource.boolean) appendNewline := by
  apply settles_of_sets (by simp [record])
  rintro r v _ _ (h | h | h | h | h) <;> simp [h]

theorem settles_existingFileStrategy : Settles (record : Record FromValue AppendToTextFile) "existingFileStrategy"
    (DataSource.optional ExistingFileStrategy.read) existingFileStrategy := by
  apply settles_of_sets (by simp [record])
  rintro r v _ _ (h | h | h | h | h) <;> simp [h]

/-! ### Objects with another strategy -/

variable {base entries : List (Value × Value)} {v : Value} {r r' : AppendToTextFile}

structure SameButStrategy (r r' : AppendToTextFile) : Prop where
  relativeFileName : r'.relativeFileName = r.relativeFileName
  content : r'.content = r.content
  preamble : r'.preamble = r.preamble
  appendNewline : r'.appendNewline = r.appendNewline

theorem sameButStrategy_of_perm (hbase : StringKeyed base) (hentries : StringKeyed entries)
    (hsame : ∀ key ∈ (record : Record FromValue AppendToTextFile).fields.map Field.key, key ≠ "existingFileStrategy" →
      (entries.filter (hasKey key)).Perm (base.filter (hasKey key)))
    (hread : (DataSource.record record : FromValue AppendToTextFile) (.mapping base) = .ok r)
    (hread' : (DataSource.record record : FromValue AppendToTextFile) (.mapping entries) = .ok r') :
    SameButStrategy r r' where
  relativeFileName := by
    have hperm := hsame "relativeFileName" (by simp [record]) (by decide)
    exact settles_relativeFileName.eq_of_perm independent_record hbase hentries hperm hread hread'
  content := by
    have hperm := hsame "content" (by simp [record]) (by decide)
    exact settles_content.eq_of_perm independent_record hbase hentries hperm hread hread'
  preamble := by
    have hperm := hsame "preamble" (by simp [record]) (by decide)
    exact settles_preamble.eq_of_perm independent_record hbase hentries hperm hread hread'
  appendNewline := by
    have hperm := hsame "appendNewline" (by simp [record]) (by decide)
    exact settles_appendNewline.eq_of_perm independent_record hbase hentries hperm hread hread'

/-- Only the entries for the fields matter, and not their order. -/
theorem read_of_perm (hbase : StringKeyed base) (hentries : StringKeyed entries)
    (hsame : ∀ key ∈ (record : Record FromValue AppendToTextFile).fields.map Field.key,
      (entries.filter (hasKey key)).Perm (base.filter (hasKey key)))
    (hread : (DataSource.record record : FromValue AppendToTextFile) (.mapping base) = .ok r) :
    (DataSource.record record : FromValue AppendToTextFile) (.mapping entries) = .ok r := by
  have hgiven := (exists_record_mapping_iff independent_record hbase).mp ⟨r, hread⟩
  obtain ⟨r', hread'⟩ := (exists_record_mapping_iff independent_record hentries).mpr
    fun f hf => (hgiven f hf).of_perm (hsame f.key (List.mem_map_of_mem hf))
  obtain ⟨hpath, hcontent, hpreamble, hnewline⟩ :=
    sameButStrategy_of_perm hbase hentries (fun key hkey _ => hsame key hkey) hread hread'
  have hperm := hsame "existingFileStrategy" (by simp [record])
  have hstrategy := settles_existingFileStrategy.eq_of_perm independent_record hbase hentries hperm hread hread'
  have heq : r' = r := by
    cases r
    cases r'
    rw [mk.injEq]
    exact ⟨hpath, hcontent, hpreamble, hnewline, hstrategy⟩
  rwa [heq] at hread'

/-- That a recipe is another one with the strategy that a value asks for. -/
structure IsStrategyUpdate (v : Value) (r r' : AppendToTextFile) : Prop extends SameButStrategy r r' where
  extends_iff : r'.strategy = .extend ↔ AsksFor v "continue"
  replaces_iff : r'.strategy = .replace ↔ AsksFor v "replace"
  leaves_iff : r'.strategy = .leave ↔ ¬ AsksFor v "continue" ∧ ¬ AsksFor v "replace"

theorem exists_read_of_isUpdate (hbase : StringKeyed base) (hentries : StringKeyed entries)
    (hset : IsUpdate "existingFileStrategy" v base entries)
    (hread : (DataSource.record record : FromValue AppendToTextFile) (.mapping base) = .ok r) :
    ∃ r', (DataSource.record record : FromValue AppendToTextFile) (.mapping entries) = .ok r' ∧ IsStrategyUpdate v r r' := by
  have hgiven := (exists_record_mapping_iff independent_record hbase).mp ⟨r, hread⟩
  obtain ⟨strategy?, hstrategy?, hasked⟩ := ExistingFileStrategy.exists_read_optional v
  -- The strategy accepts any value, and the other fields are given as they were.
  have hgiven' : ∀ f ∈ (record : Record FromValue AppendToTextFile).fields, Given entries f := by
    intro f hf
    by_cases hkey : f.key = "existingFileStrategy"
    · refine .inr ⟨v, ?_, accepts_strategy f hf hkey v⟩
      rw [hkey]
      exact hset.set
    · exact (hgiven f hf).of_perm (hset.perm_of_ne hkey)
  obtain ⟨r', hread'⟩ := (exists_record_mapping_iff independent_record hentries).mpr hgiven'
  have hstrategy : r'.strategy = asked v := by
    obtain ⟨hnone, -⟩ | ⟨v', hone, hv'⟩ := settles_existingFileStrategy.holds independent_record hentries hread'
    · rw [hset.set] at hnone
      contradiction
    · obtain rfl : v = v' := by simpa [hset.set] using hone
      rw [strategy, Except.ok.inj (hv'.symm.trans hstrategy?), hasked]
  refine ⟨r', hread', ?_, ?_, ?_, ?_⟩
  · exact sameButStrategy_of_perm hbase hentries (fun key _ hne => hset.perm_of_ne hne) hread hread'
  · rw [hstrategy, ExistingFileStrategy.asked_eq_extend_iff]
  · rw [hstrategy, ExistingFileStrategy.asked_eq_replace_iff]
  · rw [hstrategy, ExistingFileStrategy.asked_eq_leave_iff]

end AppendToTextFile

/-! ### Under the kind of the recipe -/

namespace RecipeSpec

variable {base entries : List (Value × Value)} {v : Value} {r : AppendToTextFile}

theorem read_withoutKind_iff (hkeys : StringKeyed entries) :
    (DataSource.record AppendToTextFile.record : FromValue AppendToTextFile)
        (.mapping (entries.filter fun e => !hasKey "recipe" e)) = .ok r ↔
      (DataSource.record AppendToTextFile.record : FromValue AppendToTextFile) (.mapping entries) = .ok r := by
  have hkept : StringKeyed (entries.filter fun e => !hasKey "recipe" e) :=
    fun e he => hkeys e (List.mem_of_mem_filter he)
  have hsame : ∀ key ∈ (AppendToTextFile.record : Record FromValue AppendToTextFile).fields.map Field.key,
      (entries.filter fun e => !hasKey "recipe" e).filter (hasKey key) = entries.filter (hasKey key) := by
    intro key hkey
    exact filter_hasKey_filter_not (AppendToTextFile.ne_recipe_of_mem_keys key hkey) entries
  constructor
  · exact AppendToTextFile.read_of_perm hkept hkeys fun key hkey => .of_eq (hsame key hkey).symm
  · exact AppendToTextFile.read_of_perm hkeys hkept fun key hkey => .of_eq (hsame key hkey)

/-- The kind stands once among the entries, and the recipe is read from them as if it did not. -/
theorem read_eq_appendToTextFile_iff (hkeys : StringKeyed entries) :
    (RecipeSpec.read : FromValue RecipeSpec) (.mapping entries) = .ok (.appendToTextFile r) ↔
      (∃ v, entries.filter (hasKey "recipe") = [(.string "recipe", v)] ∧
        FromValue.kindName RecipeKind.parse v = .ok .appendToTextFile) ∧
      (DataSource.record AppendToTextFile.record : FromValue AppendToTextFile) (.mapping entries) = .ok r := by
  change FromValue.kindAndRest "RecipeSpec" "recipe" RecipeKind.parse (.mapping entries) >>=
    (fun tagged => ofValue tagged.1 tagged.2) = _ ↔ _
  rw [bind_eq_ok_iff, ← read_withoutKind_iff hkeys]
  constructor
  · rintro ⟨⟨kind, options⟩, htagged, hread⟩
    obtain ⟨hkind, rfl⟩ := kindAndRest_mapping_eq_ok_iff.mp htagged
    cases kind with
    | changeXmlAttribute =>
      obtain ⟨_, -, hother⟩ := bind_eq_ok_iff.mp hread
      exact absurd (Except.ok.inj hother) (by simp)
    | appendToTextFile =>
      obtain ⟨recipe, hrecipe, heq⟩ := bind_eq_ok_iff.mp hread
      obtain rfl : recipe = r := appendToTextFile.inj (Except.ok.inj heq)
      exact ⟨hkind, hrecipe⟩
  · rintro ⟨hkind, hread⟩
    refine ⟨_, kindAndRest_mapping_eq_ok_iff.mpr ⟨hkind, rfl⟩, ?_⟩
    exact bind_eq_ok_iff.mpr ⟨r, hread, rfl⟩

end RecipeSpec

/-! ### Texts -/

theorem readsAround_recipeSpec :
    ReadsAround "existingFileStrategy" (RecipeSpec.read : Reader RecipeSpec) RecipeSpec.read :=
  readsAround_tagged _ (by decide) _

namespace AppendToTextFile

/-- What stands as the strategy may even be what no value is kept of. -/
theorem readsAround_record : ReadsAround "existingFileStrategy"
    (DataSource.record record : Reader AppendToTextFile) (DataSource.record record) := by
  apply agrees_appendToTextFile.readsAround (by simp [record])
  refine .cons ?_ (.cons ?_ (.cons ?_ (.cons ?_ (.cons ?_ .nil))))
  all_goals intro hkey r
  · contradiction
  · contradiction
  · contradiction
  · contradiction
  · exact Recovers.map (recovers_optional_any ExistingFileStrategy.handler) _

/-- A number beyond all doubles keeps an object from being a value, but not from being read as a recipe. -/
example : (Json.parse "\x7b\"content\":\"\",\"existingFileStrategy\":[1e999],\"relativeFileName\":\"-\"\x7d").toOption.isNone ∧
    (Json.read (DataSource.record record : Reader AppendToTextFile)
      "\x7b\"content\":\"\",\"existingFileStrategy\":[1e999],\"relativeFileName\":\"-\"\x7d").toOption =
      some ⟨blankPath, "", none, none, some .leave⟩ := by
  decide +kernel

/-- Whatever is set as the strategy of a recipe that can be read, the recipe can still be read, on its own and under its kind.
Its other options stay, and its strategy is the one that the value asks for, which is to leave the file unless it is a text
that names another. What stood as the strategy before need not be a value that can be kept. -/
theorem read_any_strategy {original text : String} {others entries : List (Value × Value)} {v : Value}
    (hothers : Json.read (Reader.othersThan "existingFileStrategy") original = .ok others)
    (htext : Json.parse text = .ok (.mapping entries)) (hset : IsUpdate "existingFileStrategy" v others entries) :
    (∀ r, Json.read (DataSource.record record : Reader AppendToTextFile) original = .ok r →
      ∃ r', Json.read (DataSource.record record : Reader AppendToTextFile) text = .ok r' ∧ IsStrategyUpdate v r r' ∧
        ∀ tagged members, Json.parse tagged = .ok (.mapping members) →
          IsUpdate "recipe" (.string RecipeKind.appendToTextFile.text) entries members →
          Json.read (RecipeSpec.read : Reader RecipeSpec) tagged = .ok (.appendToTextFile r')) ∧
    (∀ r, Json.read (RecipeSpec.read : Reader RecipeSpec) original = .ok (.appendToTextFile r) →
      ∃ r', Json.read (RecipeSpec.read : Reader RecipeSpec) text = .ok (.appendToTextFile r') ∧
        Json.read (DataSource.record record : Reader AppendToTextFile) text = .ok r' ∧ IsStrategyUpdate v r r') := by
  have hentriesKeys := stringKeyed_of_parse htext
  constructor
  · intro r hread
    obtain ⟨base, hbaseKeys, rfl, hread⟩ := readsAround_record hothers hread
    obtain ⟨r', hread', hupdate⟩ := exists_read_of_isUpdate hbaseKeys hentriesKeys hset.of_others hread
    refine ⟨r', (Agrees.read_eq_ok_iff agrees_appendToTextFile.agrees htext).mpr hread', hupdate, ?_⟩
    intro tagged members htagged hkind
    have hmembersKeys := stringKeyed_of_parse htagged
    rw [Agrees.read_eq_ok_iff agrees_recipeSpec htagged, RecipeSpec.read_eq_appendToTextFile_iff hmembersKeys]
    -- The kind is no field of the recipe, so the fields are given by the same entries.
    have hperm : ∀ key ∈ (record : Record FromValue AppendToTextFile).fields.map Field.key,
        (members.filter (hasKey key)).Perm (entries.filter (hasKey key)) :=
      fun key hkey => hkind.perm_of_ne (ne_recipe_of_mem_keys key hkey)
    exact ⟨⟨_, hkind.set, parse_text_recipeKind .appendToTextFile⟩, read_of_perm hentriesKeys hmembersKeys hperm hread'⟩
  · intro r hread
    obtain ⟨base, hbaseKeys, rfl, hread⟩ := readsAround_recipeSpec hothers hread
    obtain ⟨⟨kind, hone, hkind⟩, hread⟩ := (RecipeSpec.read_eq_appendToTextFile_iff hbaseKeys).mp hread
    obtain ⟨r', hread', hupdate⟩ := exists_read_of_isUpdate hbaseKeys hentriesKeys hset.of_others hread
    -- The kind stands where it stood: once, and with the same value.
    have hkept := hset.of_others.perm_of_ne (by decide : "recipe" ≠ "existingFileStrategy")
    rw [hone, List.perm_singleton] at hkept
    refine ⟨r', ?_, (Agrees.read_eq_ok_iff agrees_appendToTextFile.agrees htext).mpr hread', hupdate⟩
    rw [Agrees.read_eq_ok_iff agrees_recipeSpec htext, RecipeSpec.read_eq_appendToTextFile_iff hentriesKeys]
    exact ⟨⟨kind, hkept, hkind⟩, hread'⟩

theorem read_any_strategy_of_list :
    ∃ r', Json.read (RecipeSpec.read : Reader RecipeSpec) (Value.object [("recipe", .string "appendToTextFile"),
        ("relativeFileName", .string "-"), ("content", .string "more"), ("preamble", .null), ("appendNewline", .bool false),
        ("existingFileStrategy", .sequence [.bool true])]).json = .ok (.appendToTextFile r') ∧
      r'.content = "more" ∧ r'.strategy = .leave := by
  have hbase := parse_json (writable_recipeSpec (.appendToTextFile ⟨blankPath, "more", none, some false, some .replace⟩) 126)
  have hread := (Agrees.read_eq_ok_iff agrees_recipeSpec hbase).mpr (read_recipeSpec _)
  have hwritable : Writable 127 (Value.object [("recipe", .string "appendToTextFile"),
      ("relativeFileName", .string "-"), ("content", .string "more"), ("preamble", .null), ("appendNewline", .bool false),
      ("existingFileStrategy", .sequence [.bool true])]) := by
    apply writable_object
    simp only [List.forall_mem_cons]
    exact ⟨.string _, .string _, .string _, .null, .bool _, .sequence (by simpa using Writable.bool true),
      List.forall_mem_nil _⟩
  have hothers := othersThan_of_parse hbase "existingFileStrategy"
  obtain ⟨r', hread', -, hupdate⟩ := (read_any_strategy hothers (parse_json hwritable) ⟨rfl, .of_eq rfl⟩).2 _ hread
  refine ⟨r', hread', hupdate.content, hupdate.leaves_iff.mpr ?_⟩
  simp [ExistingFileStrategy.AsksFor]

end AppendToTextFile

end SourceRecipes
