import SourceRecipes.Yaml.Node.Grammar
import SourceRecipes.Yaml.Scalar

/-!
# Reading YAML

What is asked for is read from the node at hand. A reference is read as the node it stands for, but only so often. A string
is the text of any scalar; a truth value or a number is one that is not quoted. A record or a list may be left out
where a node can, so that it is empty; an explicit null is not enough.

A record that says its kind is first read as a value, so its scalars have to be of the right type by themselves.
-/

namespace SourceRecipes.Yaml

/-- The node at hand, in its document, and how many sequences and mappings may still be entered. -/
structure Place where
  document : Document
  node : Node
  levels : Nat

/-- A reader; its state is the number of references followed so far. -/
abbrev Reader := ReaderT Place (StateT Nat (Except Error))

namespace Reader

variable {α δ τ : Type}

def raise (fault : Fault) : Reader α :=
  throw (.fault fault)

def ofExcept (x : Except Error α) : Reader α :=
  fun _ => liftM x

/-- Reads another node, which lies one level deeper. -/
def inside (node : Node) (read : Reader α) : Reader α :=
  fun place => read { place with node, levels := place.levels - 1 }

/-- Fails if no further sequence or mapping may be entered. -/
def enter : Reader Unit := do
  if (← read).levels = 0 then throw .tooDeep

/-- The node at hand, or the one that it refers to. -/
def target : Reader Node := do
  let place ← read
  match place.node with
  | .reference number =>
    modify (· + 1)
    if (← get) > place.document.referenceLimit then throw .tooManyReferences
    match place.document.target? number with
    | some node => return node
    | none => throw .malformed
  | node => return node

def isLeftOut : Node → Bool
  | .void => true
  | .scalar _ _ style text => style == .plain && text.isEmpty
  | _ => false

def string : Reader String := do
  match ← target with
  | .scalar _ _ _ text => return text
  | node => raise (.invalidType node.found .string)

def boolean : Reader Bool := do
  let node ← target
  match node with
  | .scalar _ tag style text =>
    match if readsAs boolTag tag style then boolOf? text else none with
    | some b => return b
    | none => raise (.invalidType node.found .boolean)
  | node => raise (.invalidType node.found .boolean)

/-- Reads a number that fits 32 bits without a sign. -/
def word : Reader UInt32 := do
  let node ← target
  match node with
  | .scalar _ tag style text =>
    match if readsAs intTag tag style && text.front != '-' then integerOf? text else none with
    | some n => ofExcept ((FromValue.wordOfInt n).mapError .fault)
    | none => raise (.invalidType node.found .word)
  | node => raise (.invalidType node.found .word)

/-- Whether a scalar is a null, if it can be told. -/
def isNull (tag : Option String) (style : ScalarStyle) (text : String) : Except Error Bool :=
  if style != .plain then .ok false
  else if tag == some nullTag then if isNullText text then .ok true else .error .unusableTag
  else .ok (tag.isNone && (text.isEmpty || isNullText text))

def optional (read : Reader α) : Reader (Option α) := do
  let node ← target
  let isAbsent ← match node with
    | .void => pure true
    | .scalar _ tag style text => ofExcept (isNull tag style text)
    | _ => pure false
  if isAbsent then return none else return some (← fun place => read { place with node })

/-- Takes a value of any type; what is inside a sequence or mapping does not matter. -/
def any (handler : Handler α) : Reader α := do
  match ← target with
  | .scalar _ tag style text =>
    let datum ← ofExcept (scalarDatum tag style text)
    ofExcept (answered datum handler.expected (handler.scalar datum))
  | .sequence _ tag _ =>
    ofExcept (refuseLocalTag tag)
    enter
    ofExcept ((handler.orFault .sequence handler.sequence).mapError .fault)
  | .mapping _ tag _ =>
    ofExcept (refuseLocalTag tag)
    enter
    ofExcept ((handler.orFault .mapping handler.mapping).mapError .fault)
  | node => raise (.invalidType node.found .string)

def list (read : Reader α) : Reader (List α) := do
  let node ← target
  match node with
  | .sequence _ _ items =>
    enter
    items.mapM fun item => inside item read
  | node => if isLeftOut node then return [] else raise (.invalidType node.found .sequence)

def entry (r : Record Reader δ) (draft : Record.Draft δ) (key value : Node) : Reader (Record.Draft δ) := do
  match r.indexOf? (← inside key string) with
  | none => return draft
  | some index =>
    match r.fields[index]? with
    | none => return draft
    | some f =>
      if draft.seen.contains index then raise (.duplicateField f.key)
      else return ⟨← inside value (f.read draft.record), index :: draft.seen⟩

def record (r : Record Reader δ) : Reader δ := do
  let node ← target
  match node with
  | .mapping _ _ entries =>
    enter
    let draft ← entries.foldlM (fun draft (key, value) => entry r draft key value) r.begin
    ofExcept ((r.finish draft).mapError .fault)
  | node =>
    if isLeftOut node then ofExcept ((r.finish r.begin).mapError .fault)
    else raise (.invalidType node.found (.record r.name))

instance : DataSource Reader where
  fail := raise
  string := string
  boolean := boolean
  word := word
  optional := optional
  any := any
  list := list
  record := record

/-! ### Values and records that say their kind -/

/-- Reads a value as it is, entering so many sequences and mappings. -/
def valueWithin : (levels : Nat) → Reader Value
  | 0 => do
    match ← target with
    | .scalar _ tag style text => ofExcept (scalarValue tag style text)
    | _ => throw .tooDeep
  | levels + 1 => do
    match ← target with
    | .scalar _ tag style text => ofExcept (scalarValue tag style text)
    | .sequence _ tag items =>
      ofExcept (refuseLocalTag tag)
      return .sequence (← items.mapM fun item => inside item (valueWithin levels))
    | .mapping _ tag entries =>
      ofExcept (refuseLocalTag tag)
      let read := valueWithin levels
      return .mapping (← entries.mapM fun (key, value) => do return (← inside key read, ← inside value read))
    | node => raise (.invalidType node.found .sequence)

def value : Reader Value := do
  valueWithin (← read).levels

def taggedEntry (tag : String) (kind : String → Except Fault τ) (kept : Option τ × List (Value × Value))
    (key content : Node) : Reader (Option τ × List (Value × Value)) := do
  match ← inside key value with
  | .string text =>
    if text = tag then
      if kept.1.isSome then raise (.duplicateField tag)
      else return (some (← ofExcept ((kind (← inside content string)).mapError .fault)), kept.2)
    else return (kept.1, (.string text, ← inside content value) :: kept.2)
  | other => return (kept.1, (other, ← inside content value) :: kept.2)

/-- Reads the kind of a record and what else it holds, from a mapping or from a sequence that begins with the kind. -/
def kindAndRest (name tag : String) (kind : String → Except Fault τ) : Reader (τ × Value) := do
  match ← target with
  | .mapping _ localTag entries =>
    ofExcept (refuseLocalTag localTag)
    enter
    let kept ← entries.foldlM (fun kept (key, content) => taggedEntry tag kind kept key content) (none, [])
    match kept with
    | (some t, entries) => return (t, .mapping entries.reverse)
    | (none, _) => raise (.missingField tag)
  | .sequence _ localTag (first :: rest) =>
    ofExcept (refuseLocalTag localTag)
    enter
    let t ← ofExcept ((kind (← inside first string)).mapError .fault)
    return (t, .sequence (← rest.mapM fun item => inside item value))
  | .sequence _ _ [] => raise (.missingField tag)
  | node => raise (.invalidType node.found (.taggedRecord name))

instance : TaggedSource Reader where
  tagged name tag kind readKind := do
    let (t, rest) ← kindAndRest name tag kind
    ofExcept ((readKind t rest).mapError .fault)

end Reader

/-- How many sequences and mappings may be open at once. -/
def depthLimit : Nat := 128

def Document.read {α : Type} (reader : Reader α) (d : Document) : Except Error α := do
  let (a, _) ← reader ⟨d, d.root, depthLimit⟩ 0
  return a

def read {α : Type} (reader : Reader α) (text : String) : Except Error α := do
  (← Document.parse text).read reader

end SourceRecipes.Yaml
