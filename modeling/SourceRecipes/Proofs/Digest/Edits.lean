import SourceRecipes.Proofs.Digest.Reading
import SourceRecipes.Proofs.Markup.Occurrences

/-!
# Edits show in the stream

Two trees that differ in the texts of their attributes alone have different streams, whatever blanks they have. All
that stands between the texts is the same in both, so the texts are compared one after the other, each at the same place.
-/

namespace SourceRecipes

open ByteStream

theorem flatMap_append_inj {α : Type} {s t : α → ByteStream} {same : α → Prop} {items : List α}
    (hitem : ∀ a ∈ items, ∀ x y, s a ++ x = t a ++ y → same a ∧ x = y) {x y : ByteStream}
    (h : items.flatMap s ++ x = items.flatMap t ++ y) : (∀ a ∈ items, same a) ∧ x = y := by
  induction items with
  | nil => exact ⟨by simp, h⟩
  | cons a rest ih =>
      simp only [List.flatMap_cons, List.append_assoc, List.mem_cons, forall_eq_or_imp] at h hitem ⊢
      obtain ⟨hsame, hrest⟩ := hitem.1 _ _ h
      obtain ⟨hall, htail⟩ := ih hitem.2 hrest
      exact ⟨⟨hsame, hall⟩, htail⟩

theorem Attribute.stream_withText_append_inj {a : Attribute} {s t : String} {x y : ByteStream} (hs : Fits s)
    (ht : Fits t) (h : (a.withText s).stream ++ x = (a.withText t).stream ++ y) : s = t ∧ x = y := by
  simp only [stream, withText, List.append_assoc, List.append_cancel_left_eq] at h
  exact field_append_inj hs ht h

variable {f g : Occurrence → String} {above : List String}

theorem contentStream_append {content : Option (List Child)} {s t : Child → Child} {x y : ByteStream}
    (h : contentStream (content.map (List.map s)) ++ x = contentStream (content.map (List.map t)) ++ y) :
    (content.getD []).flatMap (fun c => Child.stream (s c)) ++ x =
      (content.getD []).flatMap (fun c => Child.stream (t c)) ++ y := by
  cases content with
  | none => exact List.append_cancel_left h
  | some children =>
      simp only [Option.map_some, contentStream, childrenStream_eq_flatMap, List.flatMap_map, List.append_assoc,
        List.append_cancel_left_eq] at h
      exact h

/-- The stream of a tree tells its attribute texts, at the front of any longer stream. -/
theorem Element.stream_mapTexts_append_inj {e : Element} {x y : ByteStream}
    (hf : ∀ o ∈ Element.occurrences above e, Fits (f o)) (hg : ∀ o ∈ Element.occurrences above e, Fits (g o))
    (h : Element.stream (Element.mapTexts f above e) ++ x = Element.stream (Element.mapTexts g above e) ++ y) :
    (∀ o ∈ Element.occurrences above e, f o = g o) ∧ x = y := by
  induction e using Element.induction generalizing above x y with
  | step e ih =>
      rw [Element.occurrences_eq, List.forall_mem_append, List.forall_mem_map] at hf hg
      rw [Element.occurrences_eq, List.forall_mem_append, List.forall_mem_map]
      rw [Element.mapTexts_eq e, Element.mapTexts_eq e, Element.stream_eq, Element.stream_eq] at h
      simp only [List.append_assoc, List.append_cancel_left_eq, List.flatMap_map] at h
      obtain ⟨hattributes, h⟩ := flatMap_append_inj
        (fun a ha _ _ => Attribute.stream_withText_append_inj (hf.1 a ha) (hg.1 a ha)) h
      rw [List.append_cancel_left_eq] at h
      have hchild : ∀ c ∈ Element.children e, ∀ x y,
          Child.stream (Child.mapTexts f (e.name :: above) c) ++ x =
            Child.stream (Child.mapTexts g (e.name :: above) c) ++ y →
          (∀ o ∈ Child.occurrences (e.name :: above) c, f o = g o) ∧ x = y := by
        intro c hc x y h
        cases c with
        | element d =>
            exact ih d hc (fun o ho => hf.2 o (List.mem_flatMap.mpr ⟨_, hc, ho⟩))
              (fun o ho => hg.2 o (List.mem_flatMap.mpr ⟨_, hc, ho⟩)) h
        | charData d => exact ⟨by simp [Child.occurrences], List.append_cancel_left h⟩
        | comment c => exact ⟨by simp [Child.occurrences], List.append_cancel_left h⟩
      obtain ⟨hchildren, htail⟩ := flatMap_append_inj hchild (contentStream_append h)
      refine ⟨⟨hattributes, fun o ho => ?_⟩, List.append_cancel_left htail⟩
      obtain ⟨c, hc, ho⟩ := List.mem_flatMap.mp ho
      exact hchildren c hc o ho

theorem Element.text_mem_texts {e : Element} {o : Occurrence} (ho : o ∈ Element.occurrences above e) :
    o.text ∈ Element.texts e := by
  induction e using Element.induction generalizing above with
  | step e ih =>
      rw [Element.occurrences_eq, List.mem_append] at ho
      rcases ho with ho | ho
      · obtain ⟨a, ha, rfl⟩ := List.mem_map.mp ho
        have htext : a.value.text ∈ e.attributes.flatMap Attribute.texts :=
          List.mem_flatMap.mpr ⟨a, ha, by simp [Attribute.texts]⟩
        exact Element.mem_texts_of_own (by simp [Element.ownTexts, Occurrence.text, htext])
      · obtain ⟨c, hc, ho⟩ := List.mem_flatMap.mp ho
        cases c with
        | element d => exact Element.mem_texts_of_child hc (ih d hc ho)
        | charData d => simp [Child.occurrences] at ho
        | comment c => simp [Child.occurrences] at ho

/-- An edit of attribute texts that leaves the stream as it is leaves the file as it is. -/
theorem SourceFile.mapTexts_eq_self_of_stream_eq {file : SourceFile} (hfile : file.Fits) (hedited : (file.mapTexts f).Fits)
    (h : (file.mapTexts f).stream = file.stream) : file.mapTexts f = file := by
  cases file with
  | plainText t => rfl
  | markup d =>
      have hold : ∀ o ∈ Element.occurrences [] d.root, ByteStream.Fits o.text := fun o ho =>
        hfile _ (List.mem_cons_of_mem _ (Element.text_mem_texts ho))
      have hnew : ∀ o ∈ Element.occurrences [] d.root, ByteStream.Fits (f o) := by
        intro o ho
        have hmem : o.withText (f o) ∈ Element.occurrences [] (Element.mapTexts f [] d.root) := by
          rw [Element.occurrences_mapTexts]
          exact List.mem_map_of_mem ho
        exact hedited _ (List.mem_cons_of_mem _ (Element.text_mem_texts hmem))
      have hself : Element.mapTexts Occurrence.text [] d.root = d.root := Element.mapTexts_self fun _ _ => rfl
      have hstreams : Element.stream (Element.mapTexts f [] d.root) ++ field "" =
          Element.stream (Element.mapTexts Occurrence.text [] d.root) ++ field "" := by
        simp only [mapTexts, stream, Document.stream, List.append_assoc, List.append_cancel_left_eq] at h
        rw [hself, h]
      have hroot : Element.mapTexts f [] d.root = d.root :=
        Element.mapTexts_self (Element.stream_mapTexts_append_inj hnew hold hstreams).1
      rw [mapTexts, hroot]

end SourceRecipes
