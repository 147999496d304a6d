import SourceRecipes.NodeId
import SourceRecipes.Path

/-!
# Markup trees

A markup document is a tree of elements in the manner of XML. Every node has an identity, and keeps the blanks
that stand around it in print, so that an edit of one place leaves the print of all others alone. An element without
content is closed by its own tag, one with content (empty content too) by a tag of its own.

Elements and their children contain each other. The structure `ElementOf` leaves the type of the children open; closing the
knot in `Child` keeps field access and `with` updates on elements.
-/

namespace SourceRecipes

/-- The quotes around an attribute value. -/
inductive Quote where
  | double
  | single
  | none
  deriving DecidableEq, Repr

def Quote.text : Quote → String
  | .double => "\""
  | .single => "'"
  | .none => ""

/-- The value of an attribute: `leading` is the blank before its opening quote, `text` stands between the quotes. -/
structure AttributeValue where
  id : NodeId
  leading : String
  quote : Quote
  text : String
  deriving DecidableEq

/-- An attribute: `leading` is the blank before its key, `beforeEquals` the one after it. -/
structure Attribute where
  id : NodeId
  leading : String
  key : String
  beforeEquals : String
  value : AttributeValue
  deriving DecidableEq

def Attribute.withText (a : Attribute) (text : String) : Attribute :=
  { a with value := { a.value with text } }

/-- Character data, plain or as a `CDATA` section. -/
structure CharData where
  id : NodeId
  isCData : Bool
  text : String
  deriving DecidableEq

structure Comment where
  id : NodeId
  text : String
  deriving DecidableEq

/-- An element with children of a given type: `leading` is the blank before its tag, `beforeDelimiter` the one before the end of that tag. -/
structure ElementOf (Child : Type) where
  id : NodeId
  leading : String
  name : String
  attributes : List Attribute
  content : Option (List Child)
  beforeDelimiter : String

/-- What may stand inside an element. -/
inductive Child where
  | element (element : ElementOf Child)
  | charData (data : CharData)
  | comment (comment : Comment)

abbrev Element := ElementOf Child

/-! ### Equality -/

mutual

def Element.decEq (s t : Element) : Decidable (s = t) :=
  match s, t with
  | ⟨id, leading, name, attributes, content, delimiter⟩, ⟨id', leading', name', attributes', content', delimiter'⟩ =>
    if h : id = id' ∧ leading = leading' ∧ name = name' ∧ attributes = attributes' ∧ delimiter = delimiter' then
      match contentDecEq content content' with
      | isTrue hcontent => isTrue (by obtain ⟨rfl, rfl, rfl, rfl, rfl⟩ := h; rw [hcontent])
      | isFalse hcontent => isFalse (by intro heq; injection heq; contradiction)
    else isFalse (by intro heq; injection heq; exact h ⟨‹_›, ‹_›, ‹_›, ‹_›, ‹_›⟩)
termination_by structural s

def Child.decEq (c d : Child) : Decidable (c = d) :=
  match c, d with
  | .element s, .element t =>
    match Element.decEq s t with
    | isTrue h => isTrue (by rw [h])
    | isFalse h => isFalse (by intro heq; injection heq; contradiction)
  | .charData a, .charData b =>
    if h : a = b then isTrue (by rw [h]) else isFalse (by intro heq; injection heq; contradiction)
  | .comment a, .comment b =>
    if h : a = b then isTrue (by rw [h]) else isFalse (by intro heq; injection heq; contradiction)
  | .element _, .charData _ | .element _, .comment _ | .charData _, .element _
  | .charData _, .comment _ | .comment _, .element _ | .comment _, .charData _ => isFalse (by intro heq; injection heq)
termination_by structural c

def contentDecEq (c d : Option (List Child)) : Decidable (c = d) :=
  match c, d with
  | none, none => isTrue rfl
  | some cs, some ds =>
    match childrenDecEq cs ds with
    | isTrue h => isTrue (by rw [h])
    | isFalse h => isFalse (by intro heq; injection heq; contradiction)
  | none, some _ | some _, none => isFalse (by intro heq; injection heq)
termination_by structural c

def childrenDecEq (cs ds : List Child) : Decidable (cs = ds) :=
  match cs, ds with
  | [], [] => isTrue rfl
  | c :: cs, d :: ds =>
    match Child.decEq c d with
    | isTrue h =>
      match childrenDecEq cs ds with
      | isTrue hs => isTrue (by rw [h, hs])
      | isFalse hs => isFalse (by intro heq; injection heq; contradiction)
    | isFalse h => isFalse (by intro heq; injection heq; contradiction)
  | [], _ :: _ | _ :: _, [] => isFalse (by intro heq; injection heq)
termination_by structural cs

end

instance : DecidableEq Element := Element.decEq

instance : DecidableEq Child := Child.decEq

namespace Child

def element? : Child → Option Element
  | .element e => some e
  | _ => none

end Child

namespace ElementOf

def isSelfClosing (e : Element) : Bool :=
  e.content.isNone

def attribute? (e : Element) (key : String) : Option Attribute :=
  e.attributes.find? fun a => a.key == key

def childElements (e : Element) : List Element :=
  (e.content.getD []).filterMap Child.element?

def child? (e : Element) (name : String) : Option Element :=
  e.childElements.find? fun c => c.name == name

def pushAttribute (e : Element) (a : Attribute) : Element :=
  { e with attributes := e.attributes ++ [a] }

/-- One more child at the end; an element without content gets one. -/
def pushChild (e : Element) (c : Child) : Element :=
  { e with content := some (e.content.getD [] ++ [c]) }

/-- Edits the first attribute with a key, if there is one. -/
def modifyAttribute? (e : Element) (key : String) (f : Attribute → Attribute) : Option Element :=
  let rec go : List Attribute → Option (List Attribute)
    | [] => none
    | a :: rest => if a.key == key then some (f a :: rest) else (go rest).map (a :: ·)
  (go e.attributes).map fun attributes => { e with attributes }

end ElementOf

/-- A markup file: its path, what stands before the root element, and the root element. -/
structure Document where
  id : NodeId
  path : SourcePath
  prolog : Option String
  root : Element
  deriving DecidableEq

/-! ### New nodes -/

/-- An attribute in its usual print: one space before it, none around the equals sign. -/
def Attribute.new (id valueId : NodeId) (key text : String) (quote : Quote := .double) : Attribute :=
  ⟨id, " ", key, "", ⟨valueId, "", quote, text⟩⟩

def Element.new (id : NodeId) (name : String) : Element :=
  ⟨id, "", name, [], none, ""⟩

end SourceRecipes
