import Mathlib.Data.List.Basic
import SourceRecipes.SourceFile
import SourceRecipes.Proofs.Markup.Elements

/-!
# What is printed of a file

Two files print the same content if they are of one kind and agree in everything but their identities and
paths. `withoutIds` takes the identities out of a tree, `texts` lists the texts that stand in it, and `delimiters` the
blanks before the ends of its tags, one for each element. The stream of a file is determined by what is printed of it.
-/

namespace SourceRecipes

open ByteStream

def NodeId.blank : NodeId :=
  ofNat 0

def Attribute.withoutIds (a : Attribute) : Attribute :=
  { a with id := .blank, value := { a.value with id := .blank } }

mutual

def Element.withoutIds (e : Element) : Element :=
  match e with
  | ⟨_, leading, name, attributes, content, beforeDelimiter⟩ =>
    ⟨.blank, leading, name, attributes.map Attribute.withoutIds, contentWithoutIds content, beforeDelimiter⟩
termination_by structural e

def Child.withoutIds (c : Child) : Child :=
  match c with
  | .element e => .element (Element.withoutIds e)
  | .charData d => .charData { d with id := .blank }
  | .comment c => .comment { c with id := .blank }
termination_by structural c

def contentWithoutIds (content : Option (List Child)) : Option (List Child) :=
  match content with
  | none => none
  | some children => some (childrenWithoutIds children)
termination_by structural content

def childrenWithoutIds (children : List Child) : List Child :=
  match children with
  | [] => []
  | c :: rest => Child.withoutIds c :: childrenWithoutIds rest
termination_by structural children

end

theorem childrenWithoutIds_eq_map (children : List Child) :
    childrenWithoutIds children = children.map Child.withoutIds := by
  induction children with
  | nil => rfl
  | cons c rest ih => simp only [childrenWithoutIds, List.map_cons, ih]

/-! ### Texts and delimiters -/

def Attribute.texts (a : Attribute) : List String :=
  [a.leading, a.key, a.beforeEquals, a.value.leading, a.value.text]

def Child.ownTexts : Child → List String
  | .element _ => []
  | .charData d => [d.text]
  | .comment c => [c.text]

/-- The texts of an element that do not stand in a child element. -/
def Element.ownTexts (e : Element) : List String :=
  e.leading :: e.name :: e.beforeDelimiter ::
    (e.attributes.flatMap Attribute.texts ++ (Element.children e).flatMap Child.ownTexts)

def Element.texts (e : Element) : List String :=
  (Element.elements e).flatMap Element.ownTexts

theorem Element.mem_texts_of_own {e : Element} {t : String} (ht : t ∈ Element.ownTexts e) : t ∈ Element.texts e :=
  List.mem_flatMap.mpr ⟨e, Element.self_mem_elements e, ht⟩

theorem Element.mem_texts_of_child {e d : Element} (hd : Child.element d ∈ Element.children e) {t : String}
    (ht : t ∈ Element.texts d) : t ∈ Element.texts e := by
  obtain ⟨c, hc, htc⟩ := List.mem_flatMap.mp ht
  exact List.mem_flatMap.mpr ⟨c, Element.mem_elements_of_child hd hc, htc⟩

/-- The blanks before the ends of the tags. -/
def Element.delimiters (e : Element) : List String :=
  (Element.elements e).map fun d => d.beforeDelimiter

/-! ### Files -/

/-- What is printed of a file, whatever its path and its identities. -/
inductive Printed where
  | plainText (text : String)
  | markup (prolog : String) (root : Element)
  deriving DecidableEq

namespace SourceFile

/-- What is printed of the file; without a prolog it is as if that were empty. -/
def printed : SourceFile → Printed
  | plainText t => .plainText t.text
  | markup d => .markup (d.prolog.getD "") (Element.withoutIds d.root)

def texts : SourceFile → List String
  | plainText t => [t.text]
  | markup d => d.prolog.getD "" :: Element.texts d.root

def delimiters : SourceFile → List String
  | plainText _ => []
  | markup d => Element.delimiters d.root

end SourceFile

/-! ### Streams -/

theorem Element.stream_eq (e : Element) :
    Element.stream e = marker '<' ++ field e.leading ++ field e.name ++ e.attributes.flatMap Attribute.stream ++
      field e.beforeDelimiter ++ contentStream e.content ++ marker '.' := by
  obtain ⟨id, leading, name, attributes, content, beforeDelimiter⟩ := e
  rfl

theorem Attribute.stream_withoutIds (a : Attribute) : a.withoutIds.stream = a.stream := rfl

theorem Element.stream_withoutIds (e : Element) : Element.stream (Element.withoutIds e) = Element.stream e := by
  induction e using Element.induction with
  | step e ih =>
      obtain ⟨id, leading, name, attributes, content, beforeDelimiter⟩ := e
      have hcontent : contentStream (contentWithoutIds content) = contentStream content := by
        cases content with
        | none => rfl
        | some children =>
            simp only [contentWithoutIds, contentStream, childrenStream_eq_flatMap, childrenWithoutIds_eq_map,
              List.flatMap_map]
            congr 1
            apply List.flatMap_congr
            intro c hc
            cases c with
            | element d => exact ih d hc
            | charData d => rfl
            | comment c => rfl
      simp only [Element.withoutIds, Element.stream, hcontent, List.flatMap_map, Attribute.stream_withoutIds]

def Printed.stream : Printed → ByteStream
  | plainText text => field "plain_text" ++ field text
  | markup prolog root => field "markup" ++ field prolog ++ Element.stream root ++ field ""

theorem SourceFile.stream_eq (f : SourceFile) : f.stream = f.printed.stream := by
  cases f with
  | plainText t => rfl
  | markup d => simp only [printed, Printed.stream, stream, Document.stream, Element.stream_withoutIds]

end SourceRecipes
