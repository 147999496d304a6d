import SourceRecipes.Proofs.Digest.Forgery

/-!
# Telling files apart by their streams

Files whose tags end in no blanks that look like an attribute have equal streams exactly when they print the same
content. The condition is on the lengths of these blanks alone and cannot be weakened: every length it rules out is the length of
blanks with which two files of different content have one stream.
-/

namespace SourceRecipes

open ByteStream

/-- No tag of a file ends in blanks that look like an attribute. -/
def SourceFile.IsUnambiguous (f : SourceFile) : Prop :=
  ∀ d ∈ f.delimiters, ¬ BeginsLikeAttribute d

theorem printed_eq_of_stream_eq {a b : SourceFile} (ha : a.Fits) (hb : b.Fits) (hunambiguousa : a.IsUnambiguous)
    (hunambiguousb : b.IsUnambiguous) (h : a.stream = b.stream) : a.printed = b.printed := by
  have hkinds : ∀ x y, field "plain_text" ++ x ≠ field "markup" ++ y := by
    intro x y heq
    exact absurd (field_append_inj (by decide) (by decide) heq).1 (by decide)
  cases a with
  | plainText t =>
      cases b with
      | plainText u =>
          obtain ⟨-, htext⟩ := field_append_inj (by decide) (by decide) h
          have hsame : field t.text ++ [] = field u.text ++ [] := congrArg (· ++ []) htext
          exact congrArg Printed.plainText (field_append_inj (ha _ (by simp [SourceFile.texts]))
            (hb _ (by simp [SourceFile.texts])) hsame).1
      | markup e =>
          simp only [SourceFile.stream, PlainText.stream, Document.stream, List.append_assoc] at h
          exact absurd h (hkinds _ _)
  | markup d =>
      cases b with
      | plainText u =>
          simp only [SourceFile.stream, PlainText.stream, Document.stream, List.append_assoc] at h
          exact absurd h.symm (hkinds _ _)
      | markup e =>
          simp only [SourceFile.Fits, SourceFile.texts, List.mem_cons, forall_eq_or_imp] at ha hb
          simp only [SourceFile.stream, Document.stream, List.append_assoc, List.append_cancel_left_eq] at h
          obtain ⟨hprolog, hroot⟩ := field_append_inj ha.1 hb.1 h
          obtain ⟨htree, -⟩ :=
            Element.readsBack ⟨ha.2, hunambiguousa⟩ e.root _ _ ⟨hb.2, hunambiguousb⟩ hroot
          simp only [SourceFile.printed, hprolog, htree]

def SourceFile.ofTag (attributes : List Attribute) (beforeDelimiter : String) : SourceFile :=
  .markup {
    id := .blank
    path := ⟨false, ["a"], by simp, by simp [IsSegment, isKept, isSeparator]⟩
    prolog := none
    root := ⟨.blank, "", "", attributes, none, beforeDelimiter⟩ }

theorem SourceFile.fits_ofTag {attributes : List Attribute} {beforeDelimiter : String}
    (hattributes : ∀ t ∈ attributes.flatMap Attribute.texts, ByteStream.Fits t)
    (hdelimiter : ByteStream.Fits beforeDelimiter) : (ofTag attributes beforeDelimiter).Fits := by
  have hempty : ByteStream.Fits "" := by decide
  intro t ht
  simp only [ofTag, texts, Element.texts, Element.elements, contentElements, Element.ownTexts, Element.children,
    Option.getD_none, List.flatMap_nil, List.append_nil, List.flatMap_cons, List.mem_cons] at ht
  rcases ht with rfl | rfl | rfl | rfl | ht
  · exact hempty
  · exact hempty
  · exact hempty
  · exact hdelimiter
  · exact hattributes t ht

/-- The lengths of the blanks before the ends of the tags are of a class. -/
def SourceFile.DelimitersIn (allowed : Nat → Prop) (f : SourceFile) : Prop :=
  ∀ d ∈ f.delimiters, allowed (Text.utf8 d).length

instance (allowed : Nat → Prop) [DecidablePred allowed] (f : SourceFile) : Decidable (f.DelimitersIn allowed) :=
  inferInstanceAs (Decidable (∀ d ∈ f.delimiters, allowed (Text.utf8 d).length))

theorem SourceFile.mem_texts_of_mem_delimiters {f : SourceFile} {d : String} (hd : d ∈ f.delimiters) : d ∈ f.texts := by
  cases f with
  | plainText t => exact absurd hd List.not_mem_nil
  | markup document =>
      obtain ⟨e, he, rfl⟩ := List.mem_map.mp hd
      exact List.mem_cons_of_mem _ (List.mem_flatMap.mpr ⟨e, he, by simp [Element.ownTexts]⟩)

theorem SourceFile.IsUnambiguous.of_delimitersIn {allowed : Nat → Prop} {f : SourceFile}
    (hallowed : ∀ n < 2 ^ 64, allowed n → n % 256 ≠ 97) (hfits : f.Fits) (hdelimiters : f.DelimitersIn allowed) :
    f.IsUnambiguous :=
  fun d hd => hallowed _ (hfits d (SourceFile.mem_texts_of_mem_delimiters hd)) (hdelimiters d hd)

/-- For every length that leaves the code of an attribute there are two files of different content with one stream: one
has a tag that ends in blanks of this length, the other an attribute in their place and no such blanks. -/
theorem exists_stream_eq_of_printed_ne {n : Nat} (hn : n < 2 ^ 64) (hmod : n % 256 = 97) :
    ∃ a b : SourceFile, a.Fits ∧ b.Fits ∧ a.DelimitersIn (· = n) ∧ b.DelimitersIn (· = 0) ∧
      a.stream = b.stream ∧ a.printed ≠ b.printed := by
  obtain ⟨a, ha, hlength, hfield⟩ := exists_attribute_as_delimiter hn hmod
  have hdelimiter : ByteStream.Fits a.asDelimiter := by
    rwa [ByteStream.Fits, hlength]
  have hends : (SourceFile.ofTag [] a.asDelimiter).delimiters = [a.asDelimiter] := rfl
  have hends' : (SourceFile.ofTag [a] "").delimiters = [""] := rfl
  refine ⟨.ofTag [] a.asDelimiter, .ofTag [a] "", SourceFile.fits_ofTag (by simp) hdelimiter,
    SourceFile.fits_ofTag (by simpa using ha) (by decide), ?_, ?_, ?_, ?_⟩
  · rw [SourceFile.DelimitersIn, hends]
    simpa using hlength
  · rw [SourceFile.DelimitersIn, hends']
    decide
  · simp only [SourceFile.ofTag, SourceFile.stream, Document.stream, Element.stream, List.flatMap_nil,
      List.flatMap_cons, List.append_nil, List.append_assoc, hfield]
  · intro h
    simp [SourceFile.ofTag, SourceFile.printed, Element.withoutIds] at h

/-- Let the blanks before the ends of tags have lengths of a class, among them the length of no blanks at all. The streams
of such files tell exactly their contents apart if and only if the class has no length that leaves the code of an
attribute modulo `256`. -/
theorem streams_separate_contents_iff (allowed : Nat → Prop) (hempty : allowed 0) :
    (∀ a b : SourceFile, a.Fits → b.Fits → a.DelimitersIn allowed → b.DelimitersIn allowed →
      (a.stream = b.stream ↔ a.printed = b.printed)) ↔
    ∀ n < 2 ^ 64, allowed n → n % 256 ≠ 97 := by
  constructor
  · intro hseparate n hn hallowed hmod
    obtain ⟨a, b, ha, hb, hends, hends', hstream, hprinted⟩ := exists_stream_eq_of_printed_ne hn hmod
    refine hprinted ((hseparate a b ha hb (fun d hd => ?_) fun d hd => ?_).mp hstream)
    · rwa [hends d hd]
    · rwa [hends' d hd]
  · intro hallowed a b ha hb hends hends'
    constructor
    · exact printed_eq_of_stream_eq ha hb (.of_delimitersIn hallowed ha hends) (.of_delimitersIn hallowed hb hends')
    · intro h
      rw [SourceFile.stream_eq, SourceFile.stream_eq, h]

theorem streams_separate_contents_of_tags :
    (SourceFile.ofTag [Attribute.new .blank .blank "class" "old.A"] " ").stream =
        (SourceFile.ofTag [Attribute.new .blank .blank "class" "old.B"] " ").stream ↔
      (SourceFile.ofTag [Attribute.new .blank .blank "class" "old.A"] " ").printed =
        (SourceFile.ofTag [Attribute.new .blank .blank "class" "old.B"] " ").printed :=
  (streams_separate_contents_iff (· ≤ 1) (Nat.zero_le 1)).mpr (fun n _ hn hmod => by omega) _ _ (by decide) (by decide)
    (by decide) (by decide)

def Attribute.unquotedClass : Attribute :=
  ⟨.blank, "", "class", "", ⟨.blank, "", .none, "xxxxxxxxxxxxxxxxxxxxxxxxxxxxxxxxxxxxxxxxxxx"⟩⟩

/-- A tag with an attribute and one that ends in the blanks which stand for it have one stream. -/
theorem stream_eq_of_unquotedClass :
    (SourceFile.ofTag [] Attribute.unquotedClass.asDelimiter).Fits ∧
      (SourceFile.ofTag [Attribute.unquotedClass] "").Fits ∧
      (SourceFile.ofTag [] Attribute.unquotedClass.asDelimiter).stream =
        (SourceFile.ofTag [Attribute.unquotedClass] "").stream ∧
      (SourceFile.ofTag [] Attribute.unquotedClass.asDelimiter).printed ≠
        (SourceFile.ofTag [Attribute.unquotedClass] "").printed := by
  decide +kernel

end SourceRecipes
