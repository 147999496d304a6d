import Mathlib.Data.List.Basic
import SourceRecipes.SourceFile
import SourceRecipes.Proofs.Markup.Elements

/-!
# Attributes where they occur

An attribute occurs on a tag with a name, inside elements with names. `occurrences` lists the attributes of a tree as they
occur, in the order of their print. `mapTexts` gives every attribute a text that depends on where it occurs, and leaves all
else of the tree as it is; doing so twice is doing so once with the two texts one after the other.
-/

namespace SourceRecipes

/-- An attribute with the name of its tag and the names of the elements around that tag, the innermost first. -/
structure Occurrence where
  above : List String
  tag : String
  entry : Attribute
  deriving DecidableEq

namespace Occurrence

def text (o : Occurrence) : String :=
  o.entry.value.text

def withText (o : Occurrence) (text : String) : Occurrence :=
  { o with entry := o.entry.withText text }

end Occurrence

theorem Attribute.withText_eq_self_iff {a : Attribute} {text : String} : a.withText text = a ↔ text = a.value.text := by
  constructor
  · intro h
    exact congrArg (fun b => b.value.text) h
  · rintro rfl
    rfl

/-! ### The attributes of a tree -/

mutual

/-- The attributes of an element and of all elements inside it, in order; `above` are the names around it. -/
def Element.occurrences (above : List String) (e : Element) : List Occurrence :=
  match e with
  | ⟨_, _, name, attributes, content, _⟩ =>
    attributes.map (fun a => ⟨above, name, a⟩) ++ contentOccurrences (name :: above) content
termination_by structural e

def Child.occurrences (above : List String) (c : Child) : List Occurrence :=
  match c with
  | .element e => Element.occurrences above e
  | .charData _ => []
  | .comment _ => []
termination_by structural c

def contentOccurrences (above : List String) (content : Option (List Child)) : List Occurrence :=
  match content with
  | none => []
  | some children => childrenOccurrences above children
termination_by structural content

def childrenOccurrences (above : List String) (children : List Child) : List Occurrence :=
  match children with
  | [] => []
  | c :: rest => Child.occurrences above c ++ childrenOccurrences above rest
termination_by structural children

end

theorem childrenOccurrences_eq_flatMap (above : List String) (children : List Child) :
    childrenOccurrences above children = children.flatMap (Child.occurrences above) := by
  induction children with
  | nil => rfl
  | cons c rest ih => simp only [childrenOccurrences, List.flatMap_cons, ih]

theorem Element.occurrences_eq (above : List String) (e : Element) :
    Element.occurrences above e = e.attributes.map (fun a => ⟨above, e.name, a⟩) ++
      (Element.children e).flatMap (Child.occurrences (e.name :: above)) := by
  obtain ⟨id, leading, name, attributes, content, beforeDelimiter⟩ := e
  cases content with
  | none => rfl
  | some children => exact congrArg _ (childrenOccurrences_eq_flatMap _ children)

theorem Element.above_subset_of_mem_occurrences {above : List String} {e : Element} {o : Occurrence}
    (ho : o ∈ Element.occurrences above e) : above ⊆ o.above := by
  induction e using Element.induction generalizing above with
  | step e ih =>
      rw [Element.occurrences_eq, List.mem_append] at ho
      rcases ho with ho | ho
      · obtain ⟨a, -, rfl⟩ := List.mem_map.mp ho
        exact List.Subset.refl above
      · obtain ⟨c, hc, ho⟩ := List.mem_flatMap.mp ho
        cases c with
        | element d => exact List.Subset.trans (List.subset_cons_self _ _) (ih d hc ho)
        | charData d => simp [Child.occurrences] at ho
        | comment c => simp [Child.occurrences] at ho

/-! ### New texts in place -/

mutual

/-- The tree with the text `f` gives for an occurrence in the place of the one there. -/
def Element.mapTexts (f : Occurrence → String) (above : List String) (e : Element) : Element :=
  match e with
  | ⟨id, leading, name, attributes, content, beforeDelimiter⟩ =>
    ⟨id, leading, name, attributes.map fun a => a.withText (f ⟨above, name, a⟩),
      contentMapTexts f (name :: above) content, beforeDelimiter⟩
termination_by structural e

def Child.mapTexts (f : Occurrence → String) (above : List String) (c : Child) : Child :=
  match c with
  | .element e => .element (Element.mapTexts f above e)
  | .charData d => .charData d
  | .comment c => .comment c
termination_by structural c

def contentMapTexts (f : Occurrence → String) (above : List String) (content : Option (List Child)) :
    Option (List Child) :=
  match content with
  | none => none
  | some children => some (childrenMapTexts f above children)
termination_by structural content

def childrenMapTexts (f : Occurrence → String) (above : List String) (children : List Child) : List Child :=
  match children with
  | [] => []
  | c :: rest => Child.mapTexts f above c :: childrenMapTexts f above rest
termination_by structural children

end

variable {f g : Occurrence → String} {above : List String}

theorem childrenMapTexts_eq_map (children : List Child) :
    childrenMapTexts f above children = children.map (Child.mapTexts f above) := by
  induction children with
  | nil => rfl
  | cons c rest ih => simp only [childrenMapTexts, List.map_cons, ih]

theorem Element.mapTexts_eq (e : Element) :
    Element.mapTexts f above e = { e with
      attributes := e.attributes.map fun a => a.withText (f ⟨above, e.name, a⟩)
      content := e.content.map (List.map (Child.mapTexts f (e.name :: above))) } := by
  obtain ⟨id, leading, name, attributes, content, beforeDelimiter⟩ := e
  cases content with
  | none => rfl
  | some children => simp only [Element.mapTexts, contentMapTexts, childrenMapTexts_eq_map, Option.map_some]

theorem Element.children_mapTexts (e : Element) :
    Element.children (Element.mapTexts f above e) = (Element.children e).map (Child.mapTexts f (e.name :: above)) := by
  rw [Element.mapTexts_eq]
  cases hc : e.content <;> simp [Element.children, hc]

theorem Element.mapTexts_congr {e : Element} (h : ∀ o ∈ Element.occurrences above e, f o = g o) :
    Element.mapTexts f above e = Element.mapTexts g above e := by
  induction e using Element.induction generalizing above with
  | step e ih =>
      rw [Element.occurrences_eq, List.forall_mem_append] at h
      have hattributes : e.attributes.map (fun a => a.withText (f ⟨above, e.name, a⟩)) =
          e.attributes.map fun a => a.withText (g ⟨above, e.name, a⟩) := by
        apply List.map_congr_left
        intro a ha
        rw [h.1 _ (List.mem_map.mpr ⟨a, ha, rfl⟩)]
      have hcontent : e.content.map (List.map (Child.mapTexts f (e.name :: above))) =
          e.content.map (List.map (Child.mapTexts g (e.name :: above))) := by
        apply Element.map_content_congr
        intro c hc
        cases c with
        | element d => exact congrArg Child.element (ih d hc fun o ho => h.2 o (List.mem_flatMap.mpr ⟨_, hc, ho⟩))
        | charData d => rfl
        | comment c => rfl
      rw [Element.mapTexts_eq, Element.mapTexts_eq, hattributes, hcontent]

theorem Element.mapTexts_self {e : Element} (h : ∀ o ∈ Element.occurrences above e, f o = o.text) :
    Element.mapTexts f above e = e := by
  rw [Element.mapTexts_congr h]
  clear h
  induction e using Element.induction generalizing above with
  | step e ih =>
      have hattributes : e.attributes.map (fun a => a.withText (Occurrence.text ⟨above, e.name, a⟩)) = e.attributes :=
        (List.map_congr_left fun _ _ => rfl).trans (List.map_id _)
      have hcontent : e.content.map (List.map (Child.mapTexts Occurrence.text (e.name :: above))) =
          e.content.map (List.map id) := by
        apply Element.map_content_congr
        intro c hc
        cases c with
        | element d => exact congrArg Child.element (ih d hc)
        | charData d => rfl
        | comment c => rfl
      rw [Element.mapTexts_eq, hattributes, hcontent]
      simp

theorem Element.mapTexts_mapTexts (e : Element) :
    Element.mapTexts g above (Element.mapTexts f above e) =
      Element.mapTexts (fun o => g (o.withText (f o))) above e := by
  induction e using Element.induction generalizing above with
  | step e ih =>
      rw [Element.mapTexts_eq e, Element.mapTexts_eq, Element.mapTexts_eq e]
      simp only [List.map_map, Option.map_map]
      have hcontent : e.content.map (List.map (Child.mapTexts g (e.name :: above)) ∘
            List.map (Child.mapTexts f (e.name :: above))) =
          e.content.map (List.map (Child.mapTexts (fun o => g (o.withText (f o))) (e.name :: above))) := by
        rw [List.map_comp_map]
        apply Element.map_content_congr
        intro c hc
        cases c with
        | element d => exact congrArg Child.element (ih d hc)
        | charData d => rfl
        | comment c => rfl
      rw [hcontent]
      rfl

/-- The attributes of the changed tree stand where those of the tree stand, each with its new text. -/
theorem Element.occurrences_mapTexts (e : Element) :
    Element.occurrences above (Element.mapTexts f above e) =
      (Element.occurrences above e).map fun o => o.withText (f o) := by
  induction e using Element.induction generalizing above with
  | step e ih =>
      have hinside : (Element.children e).flatMap
            (fun c => Child.occurrences (e.name :: above) (Child.mapTexts f (e.name :: above) c)) =
          (Element.children e).flatMap
            (fun c => (Child.occurrences (e.name :: above) c).map fun o => o.withText (f o)) := by
        apply List.flatMap_congr
        intro c hc
        cases c with
        | element d => exact ih d hc
        | charData d => rfl
        | comment c => rfl
      have hname : (Element.mapTexts f above e).name = e.name := by rw [Element.mapTexts_eq]
      have hattributes : (Element.mapTexts f above e).attributes =
          e.attributes.map fun a => a.withText (f ⟨above, e.name, a⟩) := by rw [Element.mapTexts_eq]
      rw [Element.occurrences_eq above (Element.mapTexts f above e), Element.children_mapTexts, hname, hattributes,
        List.flatMap_map, hinside, Element.occurrences_eq, List.map_append, List.map_map, List.map_map, List.map_flatMap]
      rfl

theorem Element.mapTexts_eq_self_iff {e : Element} :
    Element.mapTexts f above e = e ↔ ∀ o ∈ Element.occurrences above e, f o = o.text := by
  constructor
  · intro h o ho
    have hmap : (Element.occurrences above e).map id =
        (Element.occurrences above e).map fun o => o.withText (f o) := by
      rw [← Element.occurrences_mapTexts, h, List.map_id]
    exact (congrArg Occurrence.text (List.map_inj_left.mp hmap o ho)).symm
  · exact Element.mapTexts_self

/-! ### Files -/

namespace SourceFile

def mapTexts (f : Occurrence → String) : SourceFile → SourceFile
  | .plainText t => .plainText t
  | .markup d => .markup { d with root := Element.mapTexts f [] d.root }

/-- The attributes of a file as they occur; a plain text has none. -/
def occurrences : SourceFile → List Occurrence
  | .plainText _ => []
  | .markup d => Element.occurrences [] d.root

theorem mapTexts_text (file : SourceFile) : file.mapTexts Occurrence.text = file := by
  cases file with
  | plainText t => rfl
  | markup d => rw [mapTexts, Element.mapTexts_self fun _ _ => rfl]

theorem mapTexts_mapTexts (file : SourceFile) :
    (file.mapTexts f).mapTexts g = file.mapTexts fun o => g (o.withText (f o)) := by
  cases file with
  | plainText t => rfl
  | markup d => simp only [mapTexts, Element.mapTexts_mapTexts]

theorem mapTexts_eq_mapTexts_iff {file : SourceFile} :
    file.mapTexts f = file.mapTexts g ↔ ∀ o ∈ file.occurrences, f o = g o := by
  cases file with
  | plainText t => simp [mapTexts, occurrences]
  | markup d =>
      rw [mapTexts, mapTexts, occurrences]
      constructor
      · intro h o ho
        have hroot : Element.mapTexts f [] d.root = Element.mapTexts g [] d.root :=
          congrArg Document.root (SourceFile.markup.inj h)
        have hmap := congrArg (Element.occurrences []) hroot
        rw [Element.occurrences_mapTexts, Element.occurrences_mapTexts] at hmap
        exact congrArg Occurrence.text (List.map_inj_left.mp hmap o ho)
      · intro h
        rw [Element.mapTexts_congr h]

end SourceFile

end SourceRecipes
