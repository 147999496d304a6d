import SourceRecipes.Recipe.ChangeXmlAttribute
import SourceRecipes.Proofs.Markup.Occurrences
import SourceRecipes.Proofs.Markup.Visits

/-!
# Which attributes are rewritten

An attribute is eligible if it has the key, its tag has the name, and no element around that tag has the name. The recipe
gives every eligible attribute its new text and leaves all else of the tree as it is; a visit answers `none` exactly
when that changes no text, and counts the texts that it changes.
-/

namespace SourceRecipes

/-! ### The new text of an attribute -/

theorem Text.startsWith_iff {text part : String} : Text.startsWith text part = true ↔ ∃ rest, text = part ++ rest := by
  rw [Text.startsWith, List.isPrefixOf_iff_prefix]
  constructor
  · rintro ⟨rest, hrest⟩
    refine ⟨String.ofList rest, String.toList_inj.mp ?_⟩
    rw [String.toList_append, String.toList_ofList, hrest]
  · rintro ⟨rest, rfl⟩
    exact ⟨rest.toList, by rw [String.toList_append]⟩

theorem Text.replaceFirst_append (part other rest : List Char) :
    Text.replaceFirst part other (part ++ rest) = other ++ rest := by
  have hpart : part.isPrefixOf (part ++ rest) = true := List.isPrefixOf_iff_prefix.mpr (List.prefix_append part rest)
  cases htext : part ++ rest with
  | nil =>
      obtain ⟨rfl, rfl⟩ := List.append_eq_nil_iff.mp htext
      simp [Text.replaceFirst]
  | cons c tail =>
      rw [htext] at hpart
      rw [Text.replaceFirst, if_pos hpart, ← htext, List.drop_left]

namespace ChangeXmlAttribute

variable (r : ChangeXmlAttribute)

/-- The text that takes the place of another one on an eligible attribute. -/
def newText (current : String) : String :=
  (r.replacement? current).getD current

theorem newText_of_none {r : ChangeXmlAttribute} (h : r.oldValue = none) (current : String) :
    r.newText current = r.newValue := by
  simp [newText, replacement?, h]

theorem newText_append {r : ChangeXmlAttribute} {old : String} (h : r.oldValue = some old) (rest : String) :
    r.newText (old ++ rest) = r.newValue ++ rest := by
  have hstart : Text.startsWith (old ++ rest) old = true := Text.startsWith_iff.mpr ⟨rest, rfl⟩
  simp only [newText, replacement?, h, hstart, ↓reduceIte, Option.getD_some]
  rw [String.toList_append, Text.replaceFirst_append, ← String.toList_append, String.ofList_toList]

theorem newText_of_not_append {r : ChangeXmlAttribute} {old current : String} (h : r.oldValue = some old)
    (hcurrent : ∀ rest, current ≠ old ++ rest) : r.newText current = current := by
  have hstart : Text.startsWith current old = false := by
    rw [Bool.eq_false_iff, ne_eq, Text.startsWith_iff]
    exact fun ⟨rest, hrest⟩ => hcurrent rest hrest
  simp [newText, replacement?, h, hstart]

/-- An attribute with the key, on an outermost tag with the name. -/
def IsEligible (o : Occurrence) : Prop :=
  o.entry.key = r.attributeName ∧ o.tag = r.elementName ∧ r.elementName ∉ o.above

instance (o : Occurrence) : Decidable (r.IsEligible o) :=
  inferInstanceAs (Decidable (_ ∧ _ ∧ _))

def textAt (o : Occurrence) : String :=
  if r.IsEligible o then r.newText o.text else o.text

def changes (o : Occurrence) : Bool :=
  r.textAt o != o.text

theorem textAt_of_mem_above {r : ChangeXmlAttribute} {o : Occurrence} (h : r.elementName ∈ o.above) :
    r.textAt o = o.text :=
  if_neg fun heligible => heligible.2.2 h

theorem textAt_of_tag_ne {r : ChangeXmlAttribute} {o : Occurrence} (h : o.tag ≠ r.elementName) : r.textAt o = o.text :=
  if_neg fun heligible => h heligible.2.1

theorem textAt_of_key_ne {r : ChangeXmlAttribute} {o : Occurrence} (h : o.entry.key ≠ r.attributeName) :
    r.textAt o = o.text :=
  if_neg fun heligible => h heligible.1

/-! ### Visits of trees -/

theorem changedAttribute?_eq {r : ChangeXmlAttribute} {above : List String} (habove : r.elementName ∉ above)
    (a : Attribute) :
    r.changedAttribute? a = differing a (a.withText (r.textAt ⟨above, r.elementName, a⟩)) := by
  by_cases hkey : a.key = r.attributeName
  · have htext : r.textAt ⟨above, r.elementName, a⟩ = r.newText a.value.text := if_pos ⟨hkey, rfl, habove⟩
    rw [changedAttribute?, if_pos hkey, htext, newText]
    cases r.replacement? a.value.text with
    | none => exact (differing_self a).symm
    | some changed => simp only [differing, Option.getD_some, Attribute.withText_eq_self_iff]
  · rw [changedAttribute?, if_neg hkey, textAt_of_key_ne hkey]
    exact (differing_self a).symm

theorem run_changeAttribute {r : ChangeXmlAttribute} {above : List String} (habove : r.elementName ∉ above)
    (a : Attribute) (n : Nat) :
    (r.changeAttribute a).run n = (differing a (a.withText (r.textAt ⟨above, r.elementName, a⟩)),
      n + [(⟨above, r.elementName, a⟩ : Occurrence)].countP r.changes) := by
  rw [changeAttribute, changedAttribute?_eq habove]
  by_cases hsame : r.textAt ⟨above, r.elementName, a⟩ = a.value.text
  · have hcount : r.changes ⟨above, r.elementName, a⟩ = false := by simp [changes, hsame, Occurrence.text]
    rw [differing_eq_none_iff.mpr (Attribute.withText_eq_self_iff.mpr hsame), List.countP_singleton, hcount]
    rfl
  · have hcount : r.changes ⟨above, r.elementName, a⟩ = true := by simp [changes, hsame, Occurrence.text]
    rw [differing, if_neg (mt Attribute.withText_eq_self_iff.mp hsame), List.countP_singleton, hcount]
    rfl

/-- The children of an element with the name stay, as all of them stand inside it. -/
theorem mapTexts_children_of_mem {r : ChangeXmlAttribute} {above : List String} (habove : r.elementName ∈ above)
    (c : Child) : Child.mapTexts r.textAt above c = c ∧ (Child.occurrences above c).countP r.changes = 0 := by
  cases c with
  | element e =>
      have hsame : ∀ o ∈ Element.occurrences above e, r.textAt o = o.text := fun o ho =>
        textAt_of_mem_above (Element.above_subset_of_mem_occurrences ho habove)
      refine ⟨congrArg Child.element (Element.mapTexts_self hsame), ?_⟩
      rw [Child.occurrences, List.countP_eq_zero]
      intro o ho
      simp [changes, hsame o ho]
  | charData d => exact ⟨rfl, rfl⟩
  | comment c => exact ⟨rfl, rfl⟩

/-- The visit of an element gives it the new texts and counts those that it changes. -/
def Rewrites (r : ChangeXmlAttribute) (above : List String) (e : Element) : Prop :=
  ∀ n, (r.visitor.visitElement e).run n = (differing e (Element.mapTexts r.textAt above e),
    n + (Element.occurrences above e).countP r.changes)

theorem rewrites_of_name_eq {r : ChangeXmlAttribute} {above : List String} (habove : r.elementName ∉ above)
    {e : Element} (hname : e.name = r.elementName) : r.Rewrites above e := by
  intro n
  have hvisit : (r.visitor.visitElement e).run n =
      (((replaceEach r.changeAttribute e.attributes).run n).1.map fun attributes => { e with attributes },
        ((replaceEach r.changeAttribute e.attributes).run n).2) := by
    rw [Visitor.visitElement_eq]
    simp only [visitor, hname, ↓reduceIte]
    rfl
  have hattributes : (replaceEach r.changeAttribute e.attributes).run n =
      (differing e.attributes (e.attributes.map fun a => a.withText (r.textAt ⟨above, e.name, a⟩)),
        n + (e.attributes.flatMap fun a => [(⟨above, e.name, a⟩ : Occurrence)]).countP r.changes) :=
    run_replaceEach (fun a _ => hname ▸ run_changeAttribute habove a) n
  rw [← List.map_eq_flatMap] at hattributes
  have hinside : r.elementName ∈ e.name :: above := hname ▸ List.mem_cons_self
  have hcontent : e.content.map (List.map (Child.mapTexts r.textAt (e.name :: above))) = e.content := by
    rw [Element.map_content_congr fun c _ => (mapTexts_children_of_mem hinside c).1, List.map_id_fun', Option.map_id, id]
  have hcount : ((Element.children e).flatMap (Child.occurrences (e.name :: above))).countP r.changes = 0 := by
    rw [List.countP_eq_zero]
    intro o ho
    obtain ⟨c, -, hoc⟩ := List.mem_flatMap.mp ho
    exact List.countP_eq_zero.mp (mapTexts_children_of_mem hinside c).2 o hoc
  have hinjective : Function.Injective fun attributes : List Attribute => ({ e with attributes } : Element) :=
    fun _ _ h => congrArg ElementOf.attributes h
  rw [hvisit, hattributes, Element.mapTexts_eq, Element.occurrences_eq, List.countP_append, hcount, hcontent,
    map_differing hinjective, Nat.add_zero]

theorem run_visitChild {r : ChangeXmlAttribute} {above : List String} {c : Child}
    (h : ∀ d, c = .element d → r.Rewrites above d) (n : Nat) :
    (r.visitor.visitChild c).run n = (differing c (Child.mapTexts r.textAt above c),
      n + (Child.occurrences above c).countP r.changes) := by
  cases c with
  | element d =>
      have hvisit : (r.visitor.visitChild (.element d)).run n =
          (((r.visitor.visitElement d).run n).1.map Child.element, ((r.visitor.visitElement d).run n).2) := rfl
      have hinjective : Function.Injective Child.element := fun _ _ heq => Child.element.inj heq
      rw [hvisit, h d rfl n, map_differing hinjective]
      rfl
  | charData d => rw [Child.mapTexts, differing_self]; rfl
  | comment c => rw [Child.mapTexts, differing_self]; rfl

/-- On any other tag the attributes stay and the children are visited. -/
theorem run_visitElement_eq_rebuild {r : ChangeXmlAttribute} {e : Element} (hname : e.name ≠ r.elementName) (n : Nat) :
    (r.visitor.visitElement e).run n =
      (Visitor.rebuild e none ((r.visitor.visitContent e.content).run n).1,
        ((r.visitor.visitContent e.content).run n).2) := by
  have hnone : (replaceEach r.visitor.onAttribute e.attributes).run n = (none, n) := run_replaceEach_none _ _
  have hwalk : (r.visitor.visitElement e).run n =
      (Visitor.rebuild e ((replaceEach r.visitor.onAttribute e.attributes).run n).1
        ((r.visitor.visitContent e.content).run ((replaceEach r.visitor.onAttribute e.attributes).run n).2).1,
        ((r.visitor.visitContent e.content).run ((replaceEach r.visitor.onAttribute e.attributes).run n).2).2) := by
    rw [Visitor.visitElement_eq]
    simp only [visitor, hname, ↓reduceIte]
    rfl
  rw [hwalk, hnone]

theorem run_visitContent {r : ChangeXmlAttribute} {above : List String} {e : Element}
    (hchildren : ∀ d, Child.element d ∈ Element.children e → r.Rewrites above d) (n : Nat) :
    (r.visitor.visitContent e.content).run n =
      (e.content.bind fun children => differing children (children.map (Child.mapTexts r.textAt above)),
        n + ((Element.children e).flatMap (Child.occurrences above)).countP r.changes) := by
  unfold Element.children at hchildren ⊢
  cases hcontent : e.content with
  | none => rfl
  | some children =>
      rw [hcontent, Option.getD_some] at hchildren
      rw [Visitor.visitContent, Visitor.visitChildren_eq_replaceEach]
      exact run_replaceEach (fun c hc => run_visitChild fun d hd => hchildren d (hd ▸ hc)) n

theorem rewrites_of_name_ne {r : ChangeXmlAttribute} {above : List String} {e : Element} (hname : e.name ≠ r.elementName)
    (hchildren : ∀ d, Child.element d ∈ Element.children e → r.Rewrites (e.name :: above) d) : r.Rewrites above e := by
  intro n
  have hown : ∀ a, r.textAt ⟨above, e.name, a⟩ = a.value.text := fun a => textAt_of_tag_ne hname
  have hattributes : (e.attributes.map fun a => a.withText (r.textAt ⟨above, e.name, a⟩)) = e.attributes := by
    simp only [hown]
    exact List.map_id _
  have hcount : (e.attributes.map fun a => (⟨above, e.name, a⟩ : Occurrence)).countP r.changes = 0 := by
    rw [List.countP_eq_zero]
    intro o ho
    obtain ⟨a, -, rfl⟩ := List.mem_map.mp ho
    simp [changes, hown, Occurrence.text]
  rw [run_visitElement_eq_rebuild hname, run_visitContent hchildren, Element.mapTexts_eq, Element.occurrences_eq,
    List.countP_append, hcount, hattributes, Nat.zero_add, Visitor.rebuild_content]

theorem rewrites_of_not_mem {r : ChangeXmlAttribute} {above : List String} (habove : r.elementName ∉ above)
    (e : Element) : r.Rewrites above e := by
  induction e using Element.induction generalizing above with
  | step e ih =>
      by_cases hname : e.name = r.elementName
      · exact rewrites_of_name_eq habove hname
      · refine rewrites_of_name_ne hname fun d hd => ih d hd ?_
        simp [habove, Ne.symm hname]

theorem run_visitElement (r : ChangeXmlAttribute) (e : Element) (n : Nat) :
    (r.visitor.visitElement e).run n = (differing e (Element.mapTexts r.textAt [] e),
      n + (Element.occurrences [] e).countP r.changes) :=
  rewrites_of_not_mem List.not_mem_nil e n

theorem run_visitDocument (r : ChangeXmlAttribute) (d : Document) (n : Nat) :
    (r.visitor.visitDocument d).run n = (differing d { d with root := Element.mapTexts r.textAt [] d.root },
      n + (Element.occurrences [] d.root).countP r.changes) := by
  have hvisit : (r.visitor.visitDocument d).run n =
      (((r.visitor.visitElement d.root).run n).1.map fun root => { d with root },
        ((r.visitor.visitElement d.root).run n).2) := rfl
  have hinjective : Function.Injective fun root => ({ d with root } : Document) :=
    fun _ _ h => congrArg Document.root h
  rw [hvisit, run_visitElement, map_differing hinjective]

theorem edit_eq_mapTexts (r : ChangeXmlAttribute) (e : Element) : r.edit e = Element.mapTexts r.textAt [] e := by
  rw [edit, run_visitElement, getD_differing]

theorem editDocument_eq (r : ChangeXmlAttribute) (d : Document) :
    r.editDocument d = { d with root := r.edit d.root } := by
  rw [editDocument, run_visitDocument, getD_differing, edit_eq_mapTexts]

/-- A tree stays as it is exactly if there is no text to change. -/
theorem edit_eq_self_iff {r : ChangeXmlAttribute} {e : Element} :
    r.edit e = e ↔ (Element.occurrences [] e).countP r.changes = 0 := by
  rw [edit_eq_mapTexts, Element.mapTexts_eq_self_iff, List.countP_eq_zero]
  simp only [changes, bne_iff_ne, ne_eq, not_not]

theorem editDocument_eq_self_iff {r : ChangeXmlAttribute} {d : Document} : r.editDocument d = d ↔ r.edit d.root = d.root := by
  obtain ⟨id, path, prolog, root⟩ := d
  rw [editDocument_eq, Document.mk.injEq]
  simp only [true_and]

def editFile : SourceFile → SourceFile
  | .plainText t => .plainText t
  | .markup d => .markup (r.editDocument d)

theorem editFile_eq_mapTexts (r : ChangeXmlAttribute) (file : SourceFile) : r.editFile file = file.mapTexts r.textAt := by
  cases file with
  | plainText t => rfl
  | markup d => rw [editFile, editDocument_eq, edit_eq_mapTexts, SourceFile.mapTexts]

theorem run_visitFile (r : ChangeXmlAttribute) (file : SourceFile) (n : Nat) :
    (r.visitor.visitFile file).run n =
      (differing file (r.editFile file), n + file.occurrences.countP r.changes) := by
  cases file with
  | plainText t => rw [editFile, differing_self]; rfl
  | markup d =>
      have hinjective : Function.Injective SourceFile.markup := fun _ _ h => SourceFile.markup.inj h
      have hvisit : (r.visitor.visitFile (.markup d)).run n =
          (((r.visitor.visitDocument d).run n).1.map SourceFile.markup, ((r.visitor.visitDocument d).run n).2) := rfl
      rw [hvisit, run_visitDocument, map_differing hinjective, editFile, editDocument_eq, edit_eq_mapTexts]
      rfl

theorem editFile_eq_self_iff (r : ChangeXmlAttribute) (file : SourceFile) :
    r.editFile file = file ↔ file.occurrences.countP r.changes = 0 := by
  cases file with
  | plainText t => exact iff_of_true rfl rfl
  | markup d => rw [editFile, SourceFile.markup.injEq, editDocument_eq_self_iff, edit_eq_self_iff, SourceFile.occurrences]

theorem value_visit (r : ChangeXmlAttribute) (file : SourceFile) :
    (r.visit file).value = differing file (r.editFile file) := by
  rw [visit, run_visitFile]
  cases differing file (r.editFile file) <;> rfl

/-! ### The rule -/

/-- What the recipe asks to become of the text of an attribute: an eligible one takes the new value, in the place of the
old value it begins with if one is given; every other one keeps its text. -/
def AsksFor (o : Occurrence) (text : String) : Prop :=
  if r.IsEligible o then
    match r.oldValue with
    | none => text = r.newValue
    | some old => (∃ rest, o.text = old ++ rest ∧ text = r.newValue ++ rest) ∨
        (∀ rest, o.text ≠ old ++ rest) ∧ text = o.text
  else text = o.text

theorem asksFor_textAt (o : Occurrence) : r.AsksFor o (r.textAt o) := by
  by_cases heligible : r.IsEligible o
  · rw [AsksFor, if_pos heligible, textAt, if_pos heligible]
    cases hold : r.oldValue with
    | none => exact newText_of_none hold o.text
    | some old =>
        by_cases hstart : ∃ rest, o.text = old ++ rest
        · obtain ⟨rest, hrest⟩ := hstart
          exact Or.inl ⟨rest, hrest, by rw [hrest, newText_append hold]⟩
        · have hnot : ∀ rest, o.text ≠ old ++ rest := fun rest hrest => hstart ⟨rest, hrest⟩
          exact Or.inr ⟨hnot, newText_of_not_append hold hnot⟩
  · rw [AsksFor, if_neg heligible, textAt, if_neg heligible]

/-- The recipe gives every attribute of a tree the text it asks for where the attribute stands, and leaves all else of the
tree, of the document and of the file as it is. A visit of an element, a document or a file answers with the changed one,
or with `none` exactly when every attribute keeps its text. -/
theorem edit_changes_eligible_texts :
    (∀ o, r.AsksFor o (r.textAt o)) ∧
    (∀ e, r.edit e = Element.mapTexts r.textAt [] e ∧
      Element.occurrences [] (r.edit e) = (Element.occurrences [] e).map fun o => o.withText (r.textAt o)) ∧
    (∀ e n, ((r.visitor.visitElement e).run n).1 =
      if ∀ o ∈ Element.occurrences [] e, r.textAt o = o.text then none else some (r.edit e)) ∧
    (∀ d, r.editDocument d = { d with root := r.edit d.root }) ∧
    (∀ d n, ((r.visitor.visitDocument d).run n).1 =
      if ∀ o ∈ Element.occurrences [] d.root, r.textAt o = o.text then none else some (r.editDocument d)) ∧
    (∀ t, (r.visit (.plainText t)).value = none) ∧
    ∀ d, (r.visit (.markup d)).value =
      if ∀ o ∈ Element.occurrences [] d.root, r.textAt o = o.text then none
      else some (.markup (r.editDocument d)) := by
  have hsame : ∀ e, r.edit e = e ↔ ∀ o ∈ Element.occurrences [] e, r.textAt o = o.text := by
    intro e
    rw [edit_eq_mapTexts, Element.mapTexts_eq_self_iff]
  have hdocument : ∀ d : Document, r.editDocument d = d ↔
      ∀ o ∈ Element.occurrences [] d.root, r.textAt o = o.text := by
    intro d
    rw [← hsame, editDocument_eq]
    exact ⟨congrArg Document.root, fun hroot => congrArg (fun root => ({ d with root } : Document)) hroot⟩
  refine ⟨r.asksFor_textAt, fun e => ⟨r.edit_eq_mapTexts e, ?_⟩, fun e n => ?_, r.editDocument_eq, fun d n => ?_,
    fun t => ?_, fun d => ?_⟩
  · rw [edit_eq_mapTexts, Element.occurrences_mapTexts]
  · rw [run_visitElement, ← edit_eq_mapTexts]
    exact if_congr (hsame e) rfl rfl
  · rw [run_visitDocument, ← edit_eq_mapTexts, ← editDocument_eq]
    exact if_congr (hdocument d) rfl rfl
  · rw [value_visit]
    exact differing_self _
  · rw [value_visit]
    have hfile : r.editFile (.markup d) = .markup d ↔ r.editDocument d = d :=
      ⟨SourceFile.markup.inj, congrArg SourceFile.markup⟩
    exact if_congr (hfile.trans (hdocument d)) rfl rfl

end ChangeXmlAttribute

end SourceRecipes
