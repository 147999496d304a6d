import SourceRecipes.Proofs.Markup.Occurrences
import SourceRecipes.Proofs.Markup.Printed

/-!
# Identities and their places

New texts for the attributes of a tree have nothing to do with its identities. Taking all identities out of a tree commutes
with giving it new texts, as long as these do not depend on identities themselves; and every place of the tree,
given by the way that leads to it from the root, has the identity that it had before.
-/

namespace SourceRecipes

/-! ### Trees without identities -/

theorem Element.withoutIds_eq (e : Element) :
    Element.withoutIds e = { e with
      id := .blank
      attributes := e.attributes.map Attribute.withoutIds
      content := e.content.map (List.map Child.withoutIds) } := by
  obtain ⟨id, leading, name, attributes, content, beforeDelimiter⟩ := e
  cases content with
  | none => rfl
  | some children => simp only [Element.withoutIds, contentWithoutIds, childrenWithoutIds_eq_map, Option.map_some]

def Occurrence.withoutIds (o : Occurrence) : Occurrence :=
  { o with entry := o.entry.withoutIds }

theorem Element.occurrences_withoutIds (above : List String) (e : Element) :
    Element.occurrences above (Element.withoutIds e) =
      (Element.occurrences above e).map Occurrence.withoutIds := by
  induction e using Element.induction generalizing above with
  | step e ih =>
      have hchildren : Element.children (Element.withoutIds e) = (Element.children e).map Child.withoutIds := by
        rw [Element.withoutIds_eq]
        cases hc : e.content <;> simp [Element.children, hc]
      have hinside : (Element.children e).flatMap (fun c => Child.occurrences (e.name :: above) (Child.withoutIds c)) =
          (Element.children e).flatMap
            (fun c => (Child.occurrences (e.name :: above) c).map Occurrence.withoutIds) := by
        apply List.flatMap_congr
        intro c hc
        cases c with
        | element d => exact ih d hc _
        | charData d => rfl
        | comment c => rfl
      have hname : (Element.withoutIds e).name = e.name := by rw [Element.withoutIds_eq]
      have hattributes : (Element.withoutIds e).attributes = e.attributes.map Attribute.withoutIds := by
        rw [Element.withoutIds_eq]
      rw [Element.occurrences_eq, hchildren, hname, hattributes, List.flatMap_map, hinside, Element.occurrences_eq,
        List.map_append, List.map_map, List.map_map, List.map_flatMap]
      rfl

theorem Element.withoutIds_mapTexts {f : Occurrence → String} (hf : ∀ o, f o.withoutIds = f o) (above : List String)
    (e : Element) :
    Element.withoutIds (Element.mapTexts f above e) = Element.mapTexts f above (Element.withoutIds e) := by
  induction e using Element.induction generalizing above with
  | step e ih =>
      have hattribute : ∀ a : Attribute, (a.withText (f ⟨above, e.name, a⟩)).withoutIds =
          a.withoutIds.withText (f ⟨above, e.name, a.withoutIds⟩) := by
        intro a
        rw [← hf ⟨above, e.name, a⟩]
        rfl
      have hcontent : e.content.map (List.map (Child.withoutIds ∘ Child.mapTexts f (e.name :: above))) =
          e.content.map (List.map (Child.mapTexts f (e.name :: above) ∘ Child.withoutIds)) := by
        apply Element.map_content_congr
        intro c hc
        cases c with
        | element d => exact congrArg Child.element (ih d hc _)
        | charData d => rfl
        | comment c => rfl
      rw [Element.mapTexts_eq, Element.withoutIds_eq, Element.withoutIds_eq e, Element.mapTexts_eq]
      simp only [List.map_map, Option.map_map, Function.comp_def, hattribute] at hcontent ⊢
      rw [hcontent]

/-! ### Files without identities -/

namespace SourceFile

def withoutIds : SourceFile → SourceFile
  | plainText t => plainText { t with id := .blank }
  | markup d => markup { d with id := .blank, root := Element.withoutIds d.root }

@[simp]
theorem path_withoutIds (file : SourceFile) : file.withoutIds.path = file.path := by
  cases file <;> rfl

@[simp]
theorem fingerprint_withoutIds (file : SourceFile) : file.withoutIds.fingerprint = file.fingerprint := by
  cases file with
  | plainText t => rfl
  | markup d =>
      simp only [withoutIds, fingerprint, stream, Document.stream, Element.stream_withoutIds]

theorem occurrences_withoutIds (file : SourceFile) :
    file.withoutIds.occurrences = file.occurrences.map Occurrence.withoutIds := by
  cases file with
  | plainText t => rfl
  | markup d => exact Element.occurrences_withoutIds [] d.root

theorem withoutIds_mapTexts {f : Occurrence → String} (hf : ∀ o, f o.withoutIds = f o) (file : SourceFile) :
    (file.mapTexts f).withoutIds = file.withoutIds.mapTexts f := by
  cases file with
  | plainText t => rfl
  | markup d => simp only [mapTexts, withoutIds, Element.withoutIds_mapTexts hf]

end SourceFile

/-! ### Places -/

namespace Child

def id : Child → NodeId
  | element e => e.id
  | charData d => d.id
  | comment c => c.id

/-- What stands at the end of a way that leads from child to child, if the tree goes so far. -/
def at? : List Nat → Child → Option Child
  | [], c => some c
  | i :: rest, element e => (Element.children e)[i]?.bind (at? rest)
  | _ :: _, charData _ => none
  | _ :: _, comment _ => none

end Child

/-- A place that has an identity. In a tree it is given by the way from its root. -/
inductive NodePlace where
  | file
  | node (way : List Nat)
  | entry (way : List Nat) (index : Nat)
  | entryValue (way : List Nat) (index : Nat)

namespace SourceFile

def node? (file : SourceFile) (way : List Nat) : Option Child :=
  match file with
  | plainText _ => none
  | markup d => Child.at? way (.element d.root)

def attribute? (file : SourceFile) (way : List Nat) (index : Nat) : Option Attribute :=
  match file.node? way with
  | some (.element e) => e.attributes[index]?
  | _ => none

/-- The identity at a place of the file, if it has the place. -/
def idAt? (file : SourceFile) : NodePlace → Option NodeId
  | .file => some file.id
  | .node way => (file.node? way).map Child.id
  | .entry way index => (file.attribute? way index).map Attribute.id
  | .entryValue way index => (file.attribute? way index).map fun a => a.value.id

end SourceFile

section Places

variable (f : Occurrence → String)

/-- At every place of the changed tree stands what stood there, with its texts changed. -/
theorem Child.exists_at?_mapTexts (way : List Nat) (above : List String) (c : Child) :
    ∃ inner, Child.at? way (Child.mapTexts f above c) = (Child.at? way c).map (Child.mapTexts f inner) := by
  induction way generalizing above c with
  | nil => exact ⟨above, rfl⟩
  | cons i rest ih =>
      cases c with
      | element e =>
          rw [Child.mapTexts, Child.at?, Child.at?, Element.children_mapTexts, List.getElem?_map]
          cases (Element.children e)[i]? with
          | none => exact ⟨above, rfl⟩
          | some d => exact ih (e.name :: above) d
      | charData d => exact ⟨above, rfl⟩
      | comment c => exact ⟨above, rfl⟩

theorem Child.id_mapTexts (above : List String) (c : Child) : Child.id (Child.mapTexts f above c) = Child.id c := by
  cases c with
  | element e =>
      rw [Child.mapTexts, Element.mapTexts_eq]
      rfl
  | charData d => rfl
  | comment c => rfl

namespace SourceFile

theorem exists_node?_mapTexts (file : SourceFile) (way : List Nat) :
    ∃ inner, (file.mapTexts f).node? way = (file.node? way).map (Child.mapTexts f inner) := by
  cases file with
  | plainText t => exact ⟨[], rfl⟩
  | markup d => exact Child.exists_at?_mapTexts f way [] (.element d.root)

theorem exists_attribute?_mapTexts (file : SourceFile) (way : List Nat) (index : Nat) :
    ∃ text : Attribute → String,
      (file.mapTexts f).attribute? way index = (file.attribute? way index).map fun a => a.withText (text a) := by
  obtain ⟨inner, hnode⟩ := exists_node?_mapTexts f file way
  rw [attribute?, attribute?, hnode]
  cases file.node? way with
  | none => exact ⟨fun _ => "", rfl⟩
  | some c =>
      cases c with
      | element e =>
          refine ⟨fun a => f ⟨inner, e.name, a⟩, ?_⟩
          rw [Option.map_some, Child.mapTexts, Element.mapTexts_eq]
          exact List.getElem?_map
      | charData d => exact ⟨fun _ => "", rfl⟩
      | comment c => exact ⟨fun _ => "", rfl⟩

/-- New texts leave every identity in its place. -/
theorem idAt?_mapTexts (file : SourceFile) (place : NodePlace) : (file.mapTexts f).idAt? place = file.idAt? place := by
  cases place with
  | file => cases file <;> rfl
  | node way =>
      obtain ⟨inner, hnode⟩ := exists_node?_mapTexts f file way
      rw [idAt?, idAt?, hnode, Option.map_map]
      exact Option.map_congr fun c _ => Child.id_mapTexts f inner c
  | entry way index =>
      obtain ⟨text, hattribute⟩ := exists_attribute?_mapTexts f file way index
      rw [idAt?, idAt?, hattribute, Option.map_map]
      rfl
  | entryValue way index =>
      obtain ⟨text, hattribute⟩ := exists_attribute?_mapTexts f file way index
      rw [idAt?, idAt?, hattribute, Option.map_map]
      rfl

end SourceFile

end Places

end SourceRecipes
