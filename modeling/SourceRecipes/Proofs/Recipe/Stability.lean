import SourceRecipes.Proofs.Recipe.Subjects
import SourceRecipes.Proofs.SourceSet

/-!
# Recipes that have nothing to do a second time

A stable recipe leaves the texts that it gave. If every recipe has a subject of its own, no other recipe gives such a text
again, so what all of them together make of a file is left by all of them together. Nor is there anything left to create:
every target is there, and a new file has the text that its recipe gives.
-/

namespace SourceRecipes

theorem Text.startsWith_or_startsWith {a b rest rest' : String} (h : a ++ rest = b ++ rest') :
    Text.startsWith a b = true ∨ Text.startsWith b a = true := by
  have ha : a.toList <+: (b ++ rest').toList := by
    rw [← h, String.toList_append]
    exact List.prefix_append a.toList rest.toList
  have hb : b.toList <+: (b ++ rest').toList := by
    rw [String.toList_append]
    exact List.prefix_append b.toList rest'.toList
  rw [Text.startsWith, Text.startsWith, List.isPrefixOf_iff_prefix, List.isPrefixOf_iff_prefix]
  exact List.prefix_or_prefix_of_prefix hb ha

namespace ChangeXmlAttribute

variable {r : ChangeXmlAttribute}

/-- An old value that is asked for is the new one, or neither of the two begins with the other. -/
def IsStable (r : ChangeXmlAttribute) : Prop :=
  ∀ old ∈ r.oldValue,
    old = r.newValue ∨ Text.startsWith r.newValue old = false ∧ Text.startsWith old r.newValue = false

instance : Decidable r.IsStable :=
  inferInstanceAs (Decidable (∀ old ∈ r.oldValue, _))

theorem newText_newText (h : r.IsStable) (text : String) : r.newText (r.newText text) = r.newText text := by
  cases hold : r.oldValue with
  | none => rw [newText_of_none hold, newText_of_none hold]
  | some old =>
      by_cases htext : ∃ rest, text = old ++ rest
      · obtain ⟨rest, rfl⟩ := htext
        rw [newText_append hold]
        rcases h old hold with hsame | ⟨hnew, hother⟩
        · conv_lhs => rw [← hsame, newText_append hold]
        · -- The old value would begin a text that the new one begins, so one of them would begin the other.
          apply newText_of_not_append hold
          intro rest' hagain
          rcases Text.startsWith_or_startsWith hagain with hstarts | hstarts
          · exact Bool.false_ne_true (hnew.symm.trans hstarts)
          · exact Bool.false_ne_true (hother.symm.trans hstarts)
      · have hkept : r.newText text = text := newText_of_not_append hold (not_exists.mp htext)
        rw [hkept, hkept]

theorem textAt_withText_textAt (h : r.IsStable) (o : Occurrence) : r.textAt (o.withText (r.textAt o)) = r.textAt o := by
  by_cases heligible : r.IsEligible o
  · have hfirst : r.textAt o = r.newText o.text := if_pos heligible
    have hsecond : r.textAt (o.withText (r.newText o.text)) = r.newText (r.newText o.text) := if_pos heligible
    rw [hfirst, hsecond, newText_newText h]
  · have hfirst : r.textAt o = o.text := if_neg heligible
    rw [hfirst]
    exact hfirst

end ChangeXmlAttribute

namespace AppendToTextFile

/-- The recipe replaces or leaves what is there. -/
def IsStable (r : AppendToTextFile) : Prop :=
  r.strategy = .replace ∨ r.strategy = .leave

variable {r : AppendToTextFile}

instance : Decidable r.IsStable :=
  inferInstanceAs (Decidable (_ ∨ _))

theorem IsStable.merged?_eq (h : r.IsStable) :
    (∀ text, r.merged? text = some r.newText) ∨ ∀ text, r.merged? text = none := by
  rcases h with hreplace | hleave
  · refine Or.inl fun text => ?_
    rw [merged?, hreplace]
  · refine Or.inr fun text => ?_
    rw [merged?, hleave]

end AppendToTextFile

namespace RecipeSpec

open LocalEffect

variable {specs : List RecipeSpec} {spec : RecipeSpec}

def IsStable : RecipeSpec → Prop
  | changeXmlAttribute r => r.IsStable
  | appendToTextFile r => r.IsStable

instance : (spec : RecipeSpec) → Decidable spec.IsStable
  | changeXmlAttribute r => inferInstanceAs (Decidable r.IsStable)
  | appendToTextFile r => inferInstanceAs (Decidable r.IsStable)

/-! ### One subject for each recipe -/

theorem withSubject_eq_singleton (h : (specs.map subject).Nodup) (hspec : spec ∈ specs) :
    withSubject specs spec.subject = [spec] :=
  filter_eq_singleton_of_nodup h hspec

end RecipeSpec

namespace LocalEffect

open RecipeSpec

variable {specs : List RecipeSpec} {spec : RecipeSpec}

theorem actAll_eq_self {α : Type} (e : LocalEffect α) {place : α} (h : ∀ spec ∈ specs, spec.subject ≠ e.subject place) :
    e.actAll specs place = place := by
  have hnone : withSubject specs (e.subject place) = [] := by
    rw [withSubject, List.filter_eq_nil_iff]
    intro spec hspec hsubject
    exact h spec hspec (of_decide_eq_true hsubject)
  calc e.actAll specs place
      = e.actAll (withSubject specs (e.subject place)) place := (e.actAll_withSubject specs place).symm
    _ = e.actAll [] place := by rw [hnone]
    _ = place := rfl

theorem actAll_eq_act {α : Type} (e : LocalEffect α) (hdistinct : (specs.map RecipeSpec.subject).Nodup)
    (hspec : spec ∈ specs) {place : α} (hsubject : spec.subject = e.subject place) :
    e.actAll specs place = e.act spec place :=
  calc e.actAll specs place
      = e.actAll (withSubject specs (e.subject place)) place := (e.actAll_withSubject specs place).symm
    _ = e.actAll [spec] place := by rw [← hsubject, withSubject_eq_singleton hdistinct hspec]
    _ = e.act spec place := rfl

/-- At most one recipe counts at a place, so all of them leave what they give if each of them does. -/
theorem actAll_actAll {α : Type} (e : LocalEffect α) (hdistinct : (specs.map RecipeSpec.subject).Nodup)
    (hagain : ∀ spec ∈ specs, ∀ place, e.act spec (e.act spec place) = e.act spec place) (place : α) :
    e.actAll specs (e.actAll specs place) = e.actAll specs place := by
  by_cases hspec : ∃ spec ∈ specs, spec.subject = e.subject place
  · obtain ⟨spec, hspec, hsubject⟩ := hspec
    have hsame : spec.subject = e.subject (e.act spec place) := by rw [e.subject_act, hsubject]
    rw [e.actAll_eq_act hdistinct hspec hsubject, e.actAll_eq_act hdistinct hspec hsame]
    exact hagain spec hspec place
  · have hkept : e.actAll specs place = place := by
      apply e.actAll_eq_self
      intro spec hmem hsubject
      exact hspec ⟨spec, hmem, hsubject⟩
    rw [hkept, hkept]

theorem act_act_onText (h : spec.IsStable) (t : PlainText) : onText.act spec (onText.act spec t) = onText.act spec t := by
  cases spec with
  | changeXmlAttribute r => rfl
  | appendToTextFile r =>
      by_cases hpath : t.path = r.relativeFileName
      · rcases h.merged?_eq with hreplace | hleave
        · simp only [onText, hpath, hreplace, ↓reduceIte, Option.getD_some]
        · simp only [onText, hleave, Option.getD_none, ite_self]
      · simp only [onText, hpath, ↓reduceIte]

theorem act_act_onAttribute (h : spec.IsStable) (o : Occurrence) :
    onAttribute.act spec (onAttribute.act spec o) = onAttribute.act spec o := by
  cases spec with
  | changeXmlAttribute r => exact congrArg o.withText (ChangeXmlAttribute.textAt_withText_textAt h o)
  | appendToTextFile r => rfl

end LocalEffect

namespace RecipeSpec

open LocalEffect

variable {specs : List RecipeSpec}

/-! ### Files -/

theorem applyAll_applyAll (hdistinct : (specs.map subject).Nodup) (hstable : ∀ spec ∈ specs, spec.IsStable)
    (file : SourceFile) : applyAll specs (applyAll specs file) = applyAll specs file := by
  cases file with
  | plainText t =>
      have hagain := onText.actAll_actAll hdistinct (fun spec hspec => act_act_onText (hstable spec hspec)) t
      rw [applyAll_plainText, applyAll_plainText, hagain]
  | markup d =>
      have hagain := onAttribute.actAll_actAll hdistinct fun spec hspec => act_act_onAttribute (hstable spec hspec)
      have htwice : applyAll specs (applyAll specs (.markup d)) =
          ((SourceFile.markup d).mapTexts fun o => (onAttribute.actAll specs o).text).mapTexts
            fun o => (onAttribute.actAll specs o).text := by
        rw [applyAll_markup specs d, SourceFile.mapTexts, applyAll_markup, SourceFile.mapTexts]
      rw [htwice, SourceFile.mapTexts_mapTexts, applyAll_markup]
      simp only [withText_actAll, hagain]

/-- A file with the text that its recipe gives stays, as no other recipe has its path. -/
theorem applyAll_eq_self_of_newText (hdistinct : (specs.map subject).Nodup) (hstable : ∀ spec ∈ specs, spec.IsStable)
    {r : AppendToTextFile} (hr : appendToTextFile r ∈ specs) {t : PlainText} (hpath : t.path = r.relativeFileName)
    (htext : t.text = r.newText) : applyAll specs (.plainText t) = .plainText t := by
  have hsubject : (appendToTextFile r).subject = onText.subject t := congrArg Subject.text hpath.symm
  have hmerged : (r.merged? t.text).getD t.text = t.text := by
    rcases (hstable _ hr).merged?_eq with hreplace | hleave
    · rw [hreplace, Option.getD_some, htext]
    · rw [hleave, Option.getD_none]
  have hkept : onText.act (appendToTextFile r) t = t := by simp only [onText, hmerged, ite_self]
  rw [applyAll_plainText, onText.actAll_eq_act hdistinct hr hsubject, hkept]

/-! ### The whole set -/

/-- A cycle leaves no target missing. -/
theorem target_mem_taken_or_created {r : AppendToTextFile} (h : appendToTextFile r ∈ specs) (taken : List SourcePath) :
    r.relativeFileName ∈ taken ++ (creators taken specs).map AppendToTextFile.relativeFileName := by
  induction specs generalizing taken with
  | nil => nomatch h
  | cons spec rest ih =>
      cases spec with
      | changeXmlAttribute s =>
          have hrest : appendToTextFile r ∈ rest := (List.mem_cons.mp h).resolve_left nofun
          exact ih hrest taken
      | appendToTextFile s =>
          rw [creators]
          rcases List.mem_cons.mp h with heq | hrest
          · cases heq
            by_cases htaken : r.relativeFileName ∈ taken
            · exact List.mem_append_left _ htaken
            · rw [if_neg htaken, List.map_cons]
              exact List.mem_append_right _ List.mem_cons_self
          · by_cases htaken : s.relativeFileName ∈ taken
            · rw [if_pos htaken]
              exact ih hrest taken
            · rw [if_neg htaken, List.map_cons, ← List.singleton_append, ← List.append_assoc]
              exact ih hrest (taken ++ [s.relativeFileName])

theorem paths_nextSources (specs : List RecipeSpec) (sources : SourceSet) (supply : IdSupply) :
    (nextSources specs sources supply).paths =
      sources.paths ++ (creators sources.paths specs).map AppendToTextFile.relativeFileName := by
  rw [SourceSet.paths, files_nextSources, List.map_append, map_path_applyAll, map_path_created, SourceSet.paths]

theorem creators_nextSources (specs : List RecipeSpec) (sources : SourceSet) (supply : IdSupply) :
    creators (nextSources specs sources supply).paths specs = [] := by
  rw [List.eq_nil_iff_forall_not_mem, paths_nextSources]
  intro r hr
  have hfirst := mem_creators_iff.mp hr
  exact hfirst.not_mem (target_mem_taken_or_created hfirst.mem sources.paths)

theorem exists_of_mem_created {supply : IdSupply} {recipes : List AppendToTextFile} {file : SourceFile}
    (h : file ∈ created supply recipes) :
    ∃ r ∈ recipes, ∃ id, file = .plainText ⟨id, r.relativeFileName, r.newText⟩ := by
  induction recipes generalizing supply with
  | nil => nomatch h
  | cons r rest ih =>
      rcases List.mem_cons.mp h with rfl | hrest
      · exact ⟨r, List.mem_cons_self, supply.draw.1, rfl⟩
      · obtain ⟨q, hq, hfile⟩ := ih hrest
        exact ⟨q, List.mem_cons_of_mem r hq, hfile⟩

/-- After one cycle every file is as the recipes would leave it. -/
theorem applyAll_eq_self_of_mem_nextSources (hdistinct : (specs.map subject).Nodup)
    (hstable : ∀ spec ∈ specs, spec.IsStable) {sources : SourceSet} {supply : IdSupply} {file : SourceFile}
    (h : file ∈ (nextSources specs sources supply).files) : applyAll specs file = file := by
  rw [files_nextSources, List.mem_append] at h
  rcases h with hedited | hcreated
  · obtain ⟨old, -, rfl⟩ := List.mem_map.mp hedited
    exact applyAll_applyAll hdistinct hstable old
  · obtain ⟨r, hr, id, rfl⟩ := exists_of_mem_created hcreated
    exact applyAll_eq_self_of_newText hdistinct hstable (mem_creators_iff.mp hr).mem rfl rfl

theorem nextSources_nextSources (hdistinct : (specs.map subject).Nodup) (hstable : ∀ spec ∈ specs, spec.IsStable)
    (sources : SourceSet) (supply supply' : IdSupply) :
    nextSources specs (nextSources specs sources supply) supply' = nextSources specs sources supply := by
  have hkept : ∀ file ∈ (nextSources specs sources supply).files, applyAll specs file = file := fun _ hfile =>
    applyAll_eq_self_of_mem_nextSources hdistinct hstable hfile
  apply SourceSet.ext_files
  rw [files_nextSources, creators_nextSources, created, List.append_nil]
  exact (List.map_congr_left hkept).trans (List.map_id _)

end RecipeSpec

end SourceRecipes
