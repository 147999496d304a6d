import SourceRecipes.Proofs.Json.Written
import SourceRecipes.Proofs.Path
import SourceRecipes.Proofs.Recipe.Strategy
import SourceRecipes.Proofs.Run.Texts
import SourceRecipes.Run.Load

/-!
# Configurations survive being written

The value of a configuration can be written without loss, and a configuration is read back from its value. So it is
read back from its text, with what was absent still absent.
-/

namespace SourceRecipes

open Json FromValue

/-! ### Reading what was written -/

theorem readString_string (text : String) : (DataSource.string : FromValue String) (.string text) = .ok text := rfl

theorem readPath_text (path : SourcePath) : (SourcePath.read : FromValue SourcePath) (.string path.text) = .ok path := by
  simp only [SourcePath.read, bind, ReaderT.bind, Except.bind, readString_string, SourcePath.parse_text]
  rfl

theorem ofText_text (strategy : ExistingFileStrategy) : ExistingFileStrategy.ofText strategy.text = strategy := by
  cases strategy <;> rfl

theorem readOptional_ofOption {α : Type} (q : FromValue α) (value : α → Value) (hvalue : ∀ a, value a ≠ .null)
    (hread : ∀ a, q (value a) = .ok a) (a? : Option α) :
    (DataSource.optional q : FromValue (Option α)) (Value.ofOption value a?) = .ok a? := by
  cases a? with
  | none => rfl
  | some a =>
    rw [Value.ofOption, optional_of_ne_null q (hvalue a), hread]
    rfl

theorem readList_map {α : Type} {q : FromValue α} {value : α → Value} (hread : ∀ a, q (value a) = .ok a) (as : List α) :
    (DataSource.list q : FromValue (List α)) (.sequence (as.map value)) = .ok as := by
  change (as.map value).mapM q = _
  induction as with
  | nil => rfl
  | cons a as ih =>
    rw [List.map_cons, List.mapM_cons, ih, hread]
    rfl

theorem positional_cons {δ : Type} {f : Field FromValue δ} {record record' : δ} {v : Value} (h : f.read record v = .ok record')
    (name : String) (total index : Nat) (fields : List (Field FromValue δ)) (values : List Value) :
    FromValue.positional name total index (f :: fields) (v :: values) record =
      FromValue.positional name total (index + 1) fields values record' := by
  rw [FromValue.positional, h]

/-! ### Recipes -/

theorem readRecord_appendToTextFile (r : AppendToTextFile) :
    (DataSource.record AppendToTextFile.record : FromValue AppendToTextFile) (.object r.members) = .ok r := by
  have hkeys : ((AppendToTextFile.record : Record FromValue AppendToTextFile).fields.map Field.key).Nodup := by decide
  have hobject : Value.object r.members =
      .mapping (((AppendToTextFile.record : Record FromValue AppendToTextFile).fields.map fun f => Value.string f.key).zip
        [.string r.relativeFileName.text, .string r.content, Value.ofOption .string r.preamble,
          Value.ofOption .bool r.appendNewline,
          Value.ofOption (fun strategy => .string strategy.text) r.existingFileStrategy]) := rfl
  have hpreamble := readOptional_ofOption DataSource.string Value.string (by simp) readString_string r.preamble
  have hnewline := readOptional_ofOption DataSource.boolean Value.bool (by simp) (fun _ => rfl) r.appendNewline
  have hstrategy := readOptional_ofOption ExistingFileStrategy.read (fun strategy => .string strategy.text) (by simp)
    (fun strategy => by rw [ExistingFileStrategy.read_string, ofText_text]) r.existingFileStrategy
  rw [hobject, FromValue.record_mapping_zip hkeys rfl]
  change FromValue.positional _ _ _ _ _ _ = _
  simp only [AppendToTextFile.record]
  rw [positional_cons (read_setting (readPath_text _) _), positional_cons (read_setting (readString_string _) _),
    positional_cons (read_setting hpreamble _), positional_cons (read_setting hnewline _),
    positional_cons (read_setting hstrategy _)]
  rfl

theorem readRecord_changeXmlAttribute (r : ChangeXmlAttribute) :
    (DataSource.record ChangeXmlAttribute.record : FromValue ChangeXmlAttribute) (.object r.members) = .ok r := by
  have hkeys : ((ChangeXmlAttribute.record : Record FromValue ChangeXmlAttribute).fields.map Field.key).Nodup := by decide
  have hobject : Value.object r.members =
      .mapping (((ChangeXmlAttribute.record : Record FromValue ChangeXmlAttribute).fields.map fun f => Value.string f.key).zip
        [.string r.elementName, .string r.attributeName, Value.ofOption .string r.oldValue, .string r.newValue]) := rfl
  have holdValue := readOptional_ofOption DataSource.string Value.string (by simp) readString_string r.oldValue
  rw [hobject, FromValue.record_mapping_zip hkeys rfl]
  change FromValue.positional _ _ _ _ _ _ = _
  simp only [ChangeXmlAttribute.record]
  rw [positional_cons (read_setting (readString_string _) _), positional_cons (read_setting (readString_string _) _),
    positional_cons (read_setting holdValue _), positional_cons (read_setting (readString_string _) _)]
  rfl

theorem parse_text_recipeKind (kind : RecipeKind) : RecipeKind.parse kind.text = .ok kind := by
  cases kind <;> rfl

theorem read_recipeSpec (spec : RecipeSpec) : (RecipeSpec.read : FromValue RecipeSpec) spec.value = .ok spec := by
  change FromValue.kindAndRest "RecipeSpec" "recipe" RecipeKind.parse spec.value >>=
    (fun tagged => RecipeSpec.ofValue tagged.1 tagged.2) = _
  cases spec with
  | changeXmlAttribute r =>
    have hkeys : ∀ entry ∈ r.members.map (fun m => (Value.string m.1, m.2)), entry.1 ≠ .string "recipe" := by
      simp [ChangeXmlAttribute.members]
    have hkind : FromValue.kindAndRest "RecipeSpec" "recipe" RecipeKind.parse (RecipeSpec.changeXmlAttribute r).value =
        .ok (.changeXmlAttribute, .object r.members) :=
      FromValue.kindAndRest_cons "RecipeSpec" (parse_text_recipeKind .changeXmlAttribute) hkeys
    rw [hkind]
    change (do return RecipeSpec.changeXmlAttribute (← (DataSource.record ChangeXmlAttribute.record : FromValue _) _)) = _
    rw [readRecord_changeXmlAttribute]
    rfl
  | appendToTextFile r =>
    have hkeys : ∀ entry ∈ r.members.map (fun m => (Value.string m.1, m.2)), entry.1 ≠ .string "recipe" := by
      simp [AppendToTextFile.members]
    have hkind : FromValue.kindAndRest "RecipeSpec" "recipe" RecipeKind.parse (RecipeSpec.appendToTextFile r).value =
        .ok (.appendToTextFile, .object r.members) :=
      FromValue.kindAndRest_cons "RecipeSpec" (parse_text_recipeKind .appendToTextFile) hkeys
    rw [hkind]
    change (do return RecipeSpec.appendToTextFile (← (DataSource.record AppendToTextFile.record : FromValue _) _)) = _
    rw [readRecord_appendToTextFile]
    rfl

/-! ### Configurations -/

theorem readRecord_logConfig (c : LogConfig) : (LogConfig.read : FromValue LogConfig) c.value = .ok c := by
  have hkeys : ((LogConfig.record : Record FromValue LogConfig).fields.map Field.key).Nodup := by decide
  have hobject : c.value = .mapping (((LogConfig.record : Record FromValue LogConfig).fields.map fun f =>
      Value.string f.key).zip [.string c.level, .bool c.json]) := rfl
  rw [LogConfig.read, hobject, FromValue.record_mapping_zip hkeys rfl]
  rfl

theorem readWord_toNat (n : UInt32) : (DataSource.word : FromValue UInt32) (.integer n.toNat) = .ok n := by
  have hbound : 0 ≤ (n.toNat : Int) ∧ (n.toNat : Int) < 0x100000000 := by
    have hlt := n.toNat_lt
    omega
  change FromValue.wordOfInt n.toNat = _
  rw [FromValue.wordOfInt, if_pos hbound, Int.toNat_natCast, UInt32.ofNat_toNat]

theorem readRecord_runConfig (c : RunConfig) : (RunConfig.read : FromValue RunConfig) c.value = .ok c := by
  have hkeys : ((RunConfig.record : Record FromValue RunConfig).fields.map Field.key).Nodup := by decide
  have hobject : c.value = .mapping (((RunConfig.record : Record FromValue RunConfig).fields.map fun f =>
      Value.string f.key).zip [.integer c.cycles.toNat, c.logging.value, .sequence (c.recipes.map RecipeSpec.value)]) := rfl
  have hcycles := readWord_toNat c.cycles
  rw [RunConfig.read, hobject, FromValue.record_mapping_zip hkeys rfl]
  change FromValue.positional _ _ _ _ _ _ = _
  -- Only what the number is read as matters, and its bounds would be computed otherwise.
  generalize Value.integer c.cycles.toNat = cycles at hcycles ⊢
  simp only [RunConfig.record]
  rw [positional_cons (read_setting hcycles _), positional_cons (read_setting (readRecord_logConfig _) _),
    positional_cons (read_setting (readList_map read_recipeSpec _) _)]
  rfl

/-! ### Writing without loss -/

theorem writable_object {levels : Nat} {members : List (String × Value)} (h : ∀ m ∈ members, Writable levels m.2) :
    Writable (levels + 1) (.object members) := by
  refine .mapping (fun e he => ?_) (fun e he => ?_)
  · obtain ⟨m, -, rfl⟩ := List.mem_map.mp he
    exact ⟨m.1, rfl⟩
  · obtain ⟨m, hm, rfl⟩ := List.mem_map.mp he
    exact h m hm

theorem writable_ofOption {α : Type} {levels : Nat} {value : α → Value} (h : ∀ a, Writable levels (value a)) (a? : Option α) :
    Writable levels (Value.ofOption value a?) := by
  cases a? with
  | none => exact .null
  | some a => exact h a

theorem writable_recipeSpec (spec : RecipeSpec) (levels : Nat) : Writable (levels + 1) spec.value := by
  cases spec with
  | changeXmlAttribute r =>
    apply writable_object
    simp only [ChangeXmlAttribute.members, List.forall_mem_cons]
    exact ⟨.string _, .string _, .string _, writable_ofOption .string _, .string _, List.forall_mem_nil _⟩
  | appendToTextFile r =>
    apply writable_object
    simp only [AppendToTextFile.members, List.forall_mem_cons]
    exact ⟨.string _, .string _, .string _, writable_ofOption .string _, writable_ofOption .bool _,
      writable_ofOption (fun strategy : ExistingFileStrategy => .string strategy.text) _, List.forall_mem_nil _⟩

theorem writable_logConfig (c : LogConfig) (levels : Nat) : Writable (levels + 1) c.value := by
  apply writable_object
  simp only [List.forall_mem_cons]
  exact ⟨.string _, .bool _, List.forall_mem_nil _⟩

theorem writable_runConfig (c : RunConfig) (levels : Nat) : Writable (levels + 3) c.value := by
  have hcycles := c.cycles.toNat_lt
  apply writable_object
  simp only [List.forall_mem_cons]
  refine ⟨.integer (by omega) (by omega), writable_logConfig c.logging (levels + 1), .sequence ?_, List.forall_mem_nil _⟩
  intro v hv
  obtain ⟨spec, -, rfl⟩ := List.mem_map.mp hv
  exact writable_recipeSpec spec levels

/-! ### Texts of configurations -/

namespace RunConfig

/-- A configuration is read back from its text as it was. Whether it may be used is a matter of its validation alone. -/
theorem read_json_value (c : RunConfig) :
    Json.parse c.value.json = .ok c.value ∧
      Json.read (RunConfig.read : Reader RunConfig) c.value.json = .ok c ∧
      RunConfig.ofJson c.value.json =
        match c.validate with
        | .ok () => .ok c
        | .error cause => .error (.invalidOptions cause) := by
  have hparse : Json.parse c.value.json = .ok c.value := parse_json (writable_runConfig c 124)
  have hread : Json.read (RunConfig.read : Reader RunConfig) c.value.json = .ok c :=
    (Agrees.read_eq_ok_iff agrees_runConfig.agrees hparse).mpr (readRecord_runConfig c)
  refine ⟨hparse, hread, ?_⟩
  rw [ofJson, hread]
  change c.checked = _
  rw [checked]
  cases c.validate <;> rfl

end RunConfig

end SourceRecipes
