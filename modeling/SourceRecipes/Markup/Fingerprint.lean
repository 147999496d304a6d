import SourceRecipes.Digest.ContentHash
import SourceRecipes.Markup.Basic

/-!
# Fingerprints of markup

What is printed of a document enters the fingerprint stream, identities and path do not. Markers open and close
the parts: `a` an attribute, `<` an element, `/` or `>` the end of its tag without or with content, `.` the end of the
element, `c` and `C` character data, `!` a comment. Comments and the end of the document carry an empty field for blanks
that are never there.
-/

namespace SourceRecipes

open ByteStream

def Attribute.stream (a : Attribute) : ByteStream :=
  marker 'a' ++ field a.leading ++ field a.key ++ field a.beforeEquals ++
    field a.value.leading ++ field a.value.quote.text ++ field a.value.text

def CharData.stream (d : CharData) : ByteStream :=
  marker (if d.isCData then 'C' else 'c') ++ field d.text

def Comment.stream (c : Comment) : ByteStream :=
  marker '!' ++ field "" ++ field c.text

mutual

def Element.stream (e : Element) : ByteStream :=
  match e with
  | ⟨_, leading, name, attributes, content, beforeDelimiter⟩ =>
    marker '<' ++ field leading ++ field name ++ attributes.flatMap Attribute.stream ++
      field beforeDelimiter ++ contentStream content ++ marker '.'
termination_by structural e

def Child.stream (c : Child) : ByteStream :=
  match c with
  | .element e => Element.stream e
  | .charData d => d.stream
  | .comment c => c.stream
termination_by structural c

def contentStream (content : Option (List Child)) : ByteStream :=
  match content with
  | none => marker '/'
  | some children => marker '>' ++ childrenStream children
termination_by structural content

def childrenStream (children : List Child) : ByteStream :=
  match children with
  | [] => []
  | c :: rest => Child.stream c ++ childrenStream rest
termination_by structural children

end

/-- The stream of a document: its kind, its prolog (an absent one counts as empty), its root and the empty end. -/
def Document.stream (d : Document) : ByteStream :=
  field "markup" ++ field (d.prolog.getD "") ++ Element.stream d.root ++ field ""

def Document.fingerprint (d : Document) : ContentHash :=
  ContentHash.ofBytes d.stream

end SourceRecipes
