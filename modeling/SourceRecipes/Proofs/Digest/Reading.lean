import Mathlib.Data.List.Basic
import SourceRecipes.Proofs.Digest.Field
import SourceRecipes.Proofs.Markup.Printed

/-!
# Reading trees back

The stream of an element can be cut off the front of a longer stream in one way only, as long as no tag ends in
blanks of a certain length. An attribute list carries no count: after the last attribute comes the field of the blanks before
the end of the tag, at the place where another attribute might begin. The byte there is the marker `a` of an attribute
or the length of these blanks modulo `256`, so the two are told apart unless that length leaves the code of `a`.
-/

namespace SourceRecipes

open ByteStream

/-- The field of a text with this length begins like an attribute. -/
def BeginsLikeAttribute (delimiter : String) : Prop :=
  (Text.utf8 delimiter).length % 256 = 97

instance (delimiter : String) : Decidable (BeginsLikeAttribute delimiter) :=
  inferInstanceAs (Decidable (_ = _))

/-- The texts of a file fit their fields. -/
def SourceFile.Fits (f : SourceFile) : Prop :=
  ∀ t ∈ f.texts, ByteStream.Fits t

instance (f : SourceFile) : Decidable f.Fits :=
  inferInstanceAs (Decidable (∀ t ∈ f.texts, ByteStream.Fits t))

theorem marker_append (c : Char) (x : ByteStream) : marker c ++ x = UInt8.ofNat c.toNat :: x := rfl

theorem Quote.fits_text (q : Quote) : Fits q.text := by
  cases q <;> decide

theorem Quote.text_injective : Function.Injective Quote.text := by
  intro p q h
  cases p <;> cases q <;> first | rfl | exact absurd h (by decide)

/-! ### Attributes -/

theorem Attribute.stream_append_inj {a b : Attribute} {x y : ByteStream} (ha : ∀ t ∈ a.texts, Fits t)
    (hb : ∀ t ∈ b.texts, Fits t) (h : a.stream ++ x = b.stream ++ y) : a.withoutIds = b.withoutIds ∧ x = y := by
  simp only [texts, List.mem_cons, forall_eq_or_imp, List.not_mem_nil, false_implies, implies_true, and_true]
    at ha hb
  simp only [stream, List.append_assoc, marker_append, List.cons_append, List.cons.injEq, true_and] at h
  obtain ⟨hleading, h⟩ := field_append_inj ha.1 hb.1 h
  obtain ⟨hkey, h⟩ := field_append_inj ha.2.1 hb.2.1 h
  obtain ⟨hequals, h⟩ := field_append_inj ha.2.2.1 hb.2.2.1 h
  obtain ⟨hvalueLeading, h⟩ := field_append_inj ha.2.2.2.1 hb.2.2.2.1 h
  obtain ⟨hquote, h⟩ := field_append_inj (Quote.fits_text _) (Quote.fits_text _) h
  obtain ⟨htext, h⟩ := field_append_inj ha.2.2.2.2 hb.2.2.2.2 h
  have hquote' := Quote.text_injective hquote
  simp only [withoutIds, Attribute.mk.injEq, AttributeValue.mk.injEq, true_and]
  exact ⟨⟨hleading, hkey, hequals, hvalueLeading, hquote', htext⟩, h⟩

theorem field_append_ne_attribute {d : String} {a : Attribute} {x y : ByteStream}
    (hd : ¬ BeginsLikeAttribute d) : field d ++ x ≠ a.stream ++ y := by
  intro h
  simp only [Attribute.stream, List.append_assoc, marker_append, field_eq_cons, List.cons_append,
    List.cons.injEq] at h
  have hbyte := congrArg UInt8.toNat h.1
  exact hd (by simpa [BeginsLikeAttribute] using hbyte)

/-- The attributes of a tag and the blanks before its end, at the front of a stream. -/
theorem attributes_append_inj {as bs : List Attribute} {d d' : String} {x y : ByteStream}
    (has : ∀ t ∈ as.flatMap Attribute.texts, Fits t) (hbs : ∀ t ∈ bs.flatMap Attribute.texts, Fits t)
    (hd : Fits d) (hd' : Fits d') (hend : ¬ BeginsLikeAttribute d) (hend' : ¬ BeginsLikeAttribute d')
    (h : as.flatMap Attribute.stream ++ (field d ++ x) = bs.flatMap Attribute.stream ++ (field d' ++ y)) :
    as.map Attribute.withoutIds = bs.map Attribute.withoutIds ∧ d = d' ∧ x = y := by
  induction as generalizing bs with
  | nil =>
      cases bs with
      | nil => exact ⟨rfl, field_append_inj hd hd' h⟩
      | cons b bs =>
          simp only [List.flatMap_nil, List.nil_append, List.flatMap_cons, List.append_assoc] at h
          exact absurd h (field_append_ne_attribute hend)
  | cons a as ih =>
      cases bs with
      | nil =>
          simp only [List.flatMap_nil, List.nil_append, List.flatMap_cons, List.append_assoc] at h
          exact absurd h.symm (field_append_ne_attribute hend')
      | cons b bs =>
          simp only [List.flatMap_cons, List.append_assoc, List.forall_mem_append] at h has hbs
          obtain ⟨hab, hrest⟩ := Attribute.stream_append_inj has.1 hbs.1 h
          obtain ⟨hlist, hdelimiter, htail⟩ := ih has.2 hbs.2 hrest
          exact ⟨by simp only [List.map_cons, hab, hlist], hdelimiter, htail⟩

/-! ### Children -/

/-- The texts of a tree fit their fields, and none of its tags ends in blanks that look like an attribute. -/
def Element.IsReadable (e : Element) : Prop :=
  (∀ t ∈ Element.texts e, Fits t) ∧ ∀ d ∈ Element.delimiters e, ¬ BeginsLikeAttribute d

instance (e : Element) : Decidable (Element.IsReadable e) :=
  inferInstanceAs (Decidable (_ ∧ _))

theorem Element.IsReadable.child {e d : Element} (he : Element.IsReadable e)
    (hd : Child.element d ∈ Element.children e) : Element.IsReadable d := by
  refine ⟨fun t ht => he.1 t (Element.mem_texts_of_child hd ht), fun t ht => he.2 t ?_⟩
  obtain ⟨c, hc, htc⟩ := List.mem_map.mp ht
  exact List.mem_map.mpr ⟨c, Element.mem_elements_of_child hd hc, htc⟩

theorem Element.IsReadable.own {e : Element} (he : Element.IsReadable e) :
    (∀ t ∈ Element.ownTexts e, Fits t) ∧ ¬ BeginsLikeAttribute e.beforeDelimiter :=
  ⟨fun t ht => he.1 t (Element.mem_texts_of_own ht),
    he.2 _ (List.mem_map.mpr ⟨e, Element.self_mem_elements e, rfl⟩)⟩

theorem CharData.stream_append_inj {a b : CharData} {x y : ByteStream} (ha : Fits a.text) (hb : Fits b.text)
    (h : a.stream ++ x = b.stream ++ y) : a.isCData = b.isCData ∧ a.text = b.text ∧ x = y := by
  simp only [stream, marker_append, List.cons_append, List.cons.injEq] at h
  have hkind : a.isCData = b.isCData := by
    cases hcdata : a.isCData <;> cases hcdata' : b.isCData <;> simp [hcdata, hcdata'] at h ⊢
  obtain ⟨htext, htail⟩ := field_append_inj ha hb h.2
  exact ⟨hkind, htext, htail⟩

theorem Comment.stream_append_inj {a b : Comment} {x y : ByteStream} (ha : Fits a.text) (hb : Fits b.text)
    (h : a.stream ++ x = b.stream ++ y) : a.text = b.text ∧ x = y := by
  simp only [stream, List.append_assoc, marker_append, List.cons_append, List.cons.injEq, true_and] at h
  obtain ⟨-, h⟩ := field_append_inj (by decide) (by decide) h
  exact field_append_inj ha hb h

def Child.opening : Child → Char
  | .element _ => '<'
  | .charData d => if d.isCData then 'C' else 'c'
  | .comment _ => '!'

theorem Child.stream_eq_marker_append (c : Child) : ∃ rest, Child.stream c = marker (Child.opening c) ++ rest := by
  cases c with
  | element e =>
      rw [Child.stream, Element.stream_eq]
      simp only [List.append_assoc]
      exact ⟨_, rfl⟩
  | charData d => exact ⟨_, rfl⟩
  | comment c =>
      simp only [Child.stream, Comment.stream, List.append_assoc]
      exact ⟨_, rfl⟩

theorem Child.stream_append_ne (c : Child) (x y : ByteStream) : Child.stream c ++ x ≠ marker '.' ++ y := by
  intro h
  obtain ⟨rest, hrest⟩ := Child.stream_eq_marker_append c
  rw [hrest, List.append_assoc, marker_append, marker_append] at h
  have hopening := (List.cons.inj h).1
  cases c with
  | element e => exact absurd hopening (by simp [opening])
  | charData d => cases hcdata : d.isCData <;> simp [opening, hcdata] at hopening
  | comment c => exact absurd hopening (by simp [opening])

/-- An element that can be read back from the front of a stream, whatever comes after it. -/
def Element.ReadsBack (e : Element) : Prop :=
  ∀ (f : Element) (x y : ByteStream), Element.IsReadable f →
    Element.stream e ++ x = Element.stream f ++ y → Element.withoutIds e = Element.withoutIds f ∧ x = y

theorem Child.stream_append_inj {c d : Child} {x y : ByteStream}
    (hc : ∀ t ∈ Child.ownTexts c, Fits t) (hd : ∀ t ∈ Child.ownTexts d, Fits t)
    (hread : ∀ e, c = .element e → Element.ReadsBack e) (hreadable : ∀ f, d = .element f → Element.IsReadable f)
    (h : Child.stream c ++ x = Child.stream d ++ y) : Child.withoutIds c = Child.withoutIds d ∧ x = y := by
  have hopening : UInt8.ofNat (Child.opening c).toNat = UInt8.ofNat (Child.opening d).toNat := by
    obtain ⟨restc, hrestc⟩ := Child.stream_eq_marker_append c
    obtain ⟨restd, hrestd⟩ := Child.stream_eq_marker_append d
    rw [hrestc, hrestd, List.append_assoc, List.append_assoc, marker_append, marker_append] at h
    exact (List.cons.inj h).1
  cases c with
  | element e =>
      cases d with
      | element f =>
          obtain ⟨htree, htail⟩ := hread e rfl f x y (hreadable f rfl) h
          exact ⟨congrArg Child.element htree, htail⟩
      | charData b => cases hcdata : b.isCData <;> simp [opening, hcdata] at hopening
      | comment b => simp [opening] at hopening
  | charData a =>
      cases d with
      | element f => cases hcdata : a.isCData <;> simp [opening, hcdata] at hopening
      | charData b =>
          obtain ⟨hkind, htext, htail⟩ :=
            CharData.stream_append_inj (hc _ (by simp [ownTexts])) (hd _ (by simp [ownTexts])) h
          exact ⟨by simp [withoutIds, hkind, htext], htail⟩
      | comment b => cases hcdata : a.isCData <;> simp [opening, hcdata] at hopening
  | comment a =>
      cases d with
      | element f => simp [opening] at hopening
      | charData b => cases hcdata : b.isCData <;> simp [opening, hcdata] at hopening
      | comment b =>
          obtain ⟨htext, htail⟩ :=
            Comment.stream_append_inj (hc _ (by simp [ownTexts])) (hd _ (by simp [ownTexts])) h
          exact ⟨by simp [withoutIds, htext], htail⟩

theorem children_append_inj {cs ds : List Child} {x y : ByteStream}
    (hcs : ∀ t ∈ cs.flatMap Child.ownTexts, Fits t) (hds : ∀ t ∈ ds.flatMap Child.ownTexts, Fits t)
    (hread : ∀ e, .element e ∈ cs → Element.ReadsBack e) (hreadable : ∀ f, .element f ∈ ds → Element.IsReadable f)
    (h : childrenStream cs ++ (marker '.' ++ x) = childrenStream ds ++ (marker '.' ++ y)) :
    childrenWithoutIds cs = childrenWithoutIds ds ∧ x = y := by
  induction cs generalizing ds with
  | nil =>
      cases ds with
      | nil => exact ⟨rfl, (List.cons.inj h).2⟩
      | cons d ds =>
          simp only [childrenStream, List.nil_append, List.append_assoc] at h
          exact absurd h.symm (Child.stream_append_ne d _ _)
  | cons c cs ih =>
      cases ds with
      | nil =>
          simp only [childrenStream, List.nil_append, List.append_assoc] at h
          exact absurd h (Child.stream_append_ne c _ _)
      | cons d ds =>
          simp only [childrenStream, List.append_assoc, List.flatMap_cons, List.forall_mem_append] at h hcs hds
          obtain ⟨hchild, hrest⟩ := Child.stream_append_inj hcs.1 hds.1
            (fun e he => hread e (he ▸ List.mem_cons_self)) (fun f hf => hreadable f (hf ▸ List.mem_cons_self)) h
          obtain ⟨hlist, htail⟩ := ih hcs.2 hds.2 (fun e he => hread e (List.mem_cons_of_mem _ he))
            (fun f hf => hreadable f (List.mem_cons_of_mem _ hf)) hrest
          exact ⟨by simp only [childrenWithoutIds, hchild, hlist], htail⟩

theorem content_append_inj {e f : Element} {x y : ByteStream}
    (he : ∀ t ∈ (Element.children e).flatMap Child.ownTexts, Fits t)
    (hf : ∀ t ∈ (Element.children f).flatMap Child.ownTexts, Fits t)
    (hread : ∀ d, .element d ∈ Element.children e → Element.ReadsBack d)
    (hreadable : ∀ d, .element d ∈ Element.children f → Element.IsReadable d)
    (h : contentStream e.content ++ (marker '.' ++ x) = contentStream f.content ++ (marker '.' ++ y)) :
    contentWithoutIds e.content = contentWithoutIds f.content ∧ x = y := by
  unfold Element.children at he hf hread hreadable
  cases hc : e.content with
  | none =>
      cases hd : f.content with
      | none =>
          rw [hc, hd] at h
          exact ⟨rfl, by simpa using h⟩
      | some ds =>
          rw [hc, hd] at h
          simp [contentStream, marker] at h
  | some cs =>
      cases hd : f.content with
      | none =>
          rw [hc, hd] at h
          simp [contentStream, marker] at h
      | some ds =>
          rw [hc, Option.getD_some] at he hread
          rw [hd, Option.getD_some] at hf hreadable
          rw [hc, hd] at h
          simp only [contentStream, List.append_assoc, List.append_cancel_left_eq] at h
          obtain ⟨hlist, htail⟩ := children_append_inj he hf hread hreadable h
          exact ⟨congrArg some hlist, htail⟩

/-! ### Elements -/

/-- A readable element is read back, whatever comes after it. -/
theorem Element.readsBack {e : Element} (he : Element.IsReadable e) : Element.ReadsBack e := by
  induction e using Element.induction with
  | step e ih =>
      intro f x y hf h
      obtain ⟨htexts, hend⟩ := he.own
      obtain ⟨htexts', hend'⟩ := hf.own
      simp only [ownTexts, List.mem_cons, forall_eq_or_imp, List.forall_mem_append] at htexts htexts'
      obtain ⟨hleading, hname, hdelimiter, hattributes, hchildren⟩ := htexts
      obtain ⟨hleading', hname', hdelimiter', hattributes', hchildren'⟩ := htexts'
      rw [Element.stream_eq, Element.stream_eq] at h
      simp only [List.append_assoc, List.append_cancel_left_eq] at h
      obtain ⟨hsameLeading, h⟩ := field_append_inj hleading hleading' h
      obtain ⟨hsameName, h⟩ := field_append_inj hname hname' h
      obtain ⟨hsameAttributes, hsameDelimiter, h⟩ :=
        attributes_append_inj hattributes hattributes' hdelimiter hdelimiter' hend hend' h
      obtain ⟨hsameContent, htail⟩ := content_append_inj hchildren hchildren'
        (fun d hd => ih d hd (he.child hd)) (fun d hd => hf.child hd) h
      obtain ⟨id, leading, name, attributes, content, beforeDelimiter⟩ := e
      obtain ⟨id', leading', name', attributes', content', beforeDelimiter'⟩ := f
      exact ⟨by simp_all only [withoutIds], htail⟩

/-- The streams of readable elements are a prefix code: whatever bytes come after them, they say where they end and which
element they are of, up to its identities. -/
theorem Element.stream_append_eq_iff {t u : Element} (ht : Element.IsReadable t) (hu : Element.IsReadable u)
    (s s' : ByteStream) :
    Element.stream t ++ s = Element.stream u ++ s' ↔ Element.withoutIds t = Element.withoutIds u ∧ s = s' := by
  constructor
  · exact Element.readsBack ht u s s' hu
  · rintro ⟨htree, rfl⟩
    rw [← Element.stream_withoutIds t, htree, Element.stream_withoutIds]

def nestedBean (id : NodeId) : Element where
  id := id
  leading := ""
  name := "beans"
  attributes := [Attribute.new id .blank "class" "old.A" .single]
  content := some [
    .comment ⟨id, "a"⟩,
    .element ⟨id, "\n  ", "bean", [Attribute.new .blank id "class" "old.B"], none, " "⟩,
    .charData ⟨id, true, "c"⟩]
  beforeDelimiter := ""

theorem stream_append_eq_iff_nestedBean :
    Element.stream (nestedBean (.ofNat 1)) ++ [97] = Element.stream (nestedBean (.ofNat 2)) ++ [97] ↔
      Element.withoutIds (nestedBean (.ofNat 1)) = Element.withoutIds (nestedBean (.ofNat 2)) ∧
        ([97] : ByteStream) = [97] :=
  Element.stream_append_eq_iff (by decide) (by decide) [97] [97]

end SourceRecipes
