import SourceRecipes.Markup.Fingerprint
import SourceRecipes.Markup.Visitor

/-!
# Source files

A source file is a plain text or a markup document at a path. Its fingerprint depends on its kind and content only.
-/

namespace SourceRecipes

/-- A file that is one opaque text. -/
structure PlainText where
  id : NodeId
  path : SourcePath
  text : String
  deriving DecidableEq

def PlainText.stream (t : PlainText) : ByteStream :=
  ByteStream.field "plain_text" ++ ByteStream.field t.text

inductive SourceKind where
  | plainText
  | markup
  deriving DecidableEq, Repr

def SourceKind.text : SourceKind → String
  | .plainText => "plain_text"
  | .markup => "markup"

inductive SourceFile where
  | plainText (file : PlainText)
  | markup (document : Document)
  deriving DecidableEq

namespace SourceFile

def kind : SourceFile → SourceKind
  | plainText _ => .plainText
  | markup _ => .markup

def id : SourceFile → NodeId
  | plainText t => t.id
  | markup d => d.id

def path : SourceFile → SourcePath
  | plainText t => t.path
  | markup d => d.path

def stream : SourceFile → ByteStream
  | plainText t => t.stream
  | markup d => d.stream

def fingerprint (f : SourceFile) : ContentHash :=
  ContentHash.ofBytes f.stream

def plainText? : SourceFile → Option PlainText
  | plainText t => some t
  | markup _ => none

def markup? : SourceFile → Option Document
  | markup d => some d
  | plainText _ => none

def moveTo (f : SourceFile) (path : SourcePath) : SourceFile :=
  match f with
  | plainText t => plainText { t with path }
  | markup d => markup { d with path }

end SourceFile

/-- Lets a visitor walk a file; only markup is ever changed. -/
def Visitor.visitFile {σ : Type} (v : Visitor σ) (f : SourceFile) : StateM σ (Option SourceFile) :=
  match f with
  | .plainText _ => pure none
  | .markup d => do return (← v.visitDocument d).map SourceFile.markup

end SourceRecipes
