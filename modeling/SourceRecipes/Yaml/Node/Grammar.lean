import SourceRecipes.Yaml.Node
import SourceRecipes.Yaml.Token.Layout

/-!
# From tokens to nodes

Tokens form a tree by a grammar in which a node may be left out wherever one could stand: it is an empty plain scalar
then. A sequence that is the value in a mapping need not be indented further than the mapping; nothing in the layout
announces it. Inside brackets a pair may stand for a mapping of its own.

Before the document there may be directives, and a line that begins it; after it only lines that end it.
-/

namespace SourceRecipes.Yaml

/-- What is left of the tokens, and what the names in them mean. -/
structure Pending where
  tokens : List Token
  handles : List (String × String) := []
  /-- The names of anchors met so far, each with the number it has now. -/
  anchors : List (String × Nat) := []

abbrev Grammar := StateT Pending (Except Error)

namespace Grammar

def malformed {α : Type} : Grammar α :=
  throw .malformed

def peek : Grammar (Option Token) :=
  return (← get).tokens.head?

def advance : Grammar Unit :=
  modify fun p => { p with tokens := p.tokens.tail }

/-- How many tokens are left, a bound for the parts still to come. -/
def remaining : Grammar Nat :=
  return (← get).tokens.length

/-! ### Properties of nodes -/

/-- The number of an anchor: how many different names there were before it. -/
def declare (name : String) : Grammar Nat :=
  modifyGet fun p =>
    let number := p.anchors.length
    let others := p.anchors.filter fun anchor => anchor.1 ≠ name
    (number, { p with anchors := (name, number) :: others })

def fullTag (handle suffix : String) : Grammar String := do
  if handle.isEmpty then return suffix
  else
    match (← get).handles.lookup handle with
    | some start => return start ++ suffix
    | none => malformed

def anchor? : Grammar (Option Nat) := do
  match ← peek with
  | some (.anchor name) =>
    advance
    return some (← declare name)
  | _ => return none

def tag? : Grammar (Option String) := do
  match ← peek with
  | some (.tag handle suffix) =>
    advance
    return some (← fullTag handle suffix)
  | _ => return none

/-- Reads an anchor and a tag in either order, at most one of each. -/
def properties : Grammar (Option Nat × Option String) := do
  match ← peek with
  | some (.tag ..) =>
    let tag ← tag?
    return (← anchor?, tag)
  | _ =>
    let anchor ← anchor?
    return (anchor, ← tag?)

/-! ### Sequences and mappings

Each of these is told how to read a node; `fuel` bounds the number of parts. -/

/-- Reads a node unless one of some tokens is next. -/
def nodeUnless (isNext : Token → Bool) (node : Grammar Node) : Grammar Node := do
  match ← peek with
  | some token => if isNext token then return Node.empty else node
  | none => node

/-- Reads what follows a sign of a value, or an empty node if there is no such sign. -/
def valueUnless (isNext : Token → Bool) (node : Grammar Node) : Grammar Node := do
  match ← peek with
  | some .value =>
    advance
    nodeUnless isNext node
  | _ => return Node.empty

/-- Reads the items of a sequence given by indentation, up to where it ends. -/
def blockItems (node : Grammar Node) : (fuel : Nat) → Grammar (List Node)
  | 0 => malformed
  | fuel + 1 => do
    match ← peek with
    | some .entry =>
      advance
      let item ← nodeUnless (fun t => t == .entry || t == .blockEnd) node
      return item :: (← blockItems node fuel)
    | some .blockEnd =>
      advance
      return []
    | _ => malformed

/-- Reads the items of a sequence that is not indented, up to the first other token. -/
def unindentedItems (node : Grammar Node) : (fuel : Nat) → Grammar (List Node)
  | 0 => malformed
  | fuel + 1 => do
    match ← peek with
    | some .entry =>
      advance
      let item ← nodeUnless (fun t => t == .entry || t == .key || t == .value || t == .blockEnd) node
      return item :: (← unindentedItems node fuel)
    | _ => return []

/-- Reads the entries of a mapping given by indentation, up to where it ends. -/
def blockEntries (node : Grammar Node) : (fuel : Nat) → Grammar (List (Node × Node))
  | 0 => malformed
  | fuel + 1 => do
    match ← peek with
    | some .key =>
      advance
      let isNext (t : Token) := t == .key || t == .value || t == .blockEnd
      let key ← nodeUnless isNext node
      let value ← valueUnless isNext node
      return (key, value) :: (← blockEntries node fuel)
    | some .blockEnd =>
      advance
      return []
    | _ => malformed

/-- Passes over the comma before a part in brackets that is not the first. -/
def separator (isFirst : Bool) : Grammar Unit := do
  if !isFirst then
    match ← peek with
    | some .comma => advance
    | _ => malformed

/-- Reads a pair inside square brackets after the sign of its key. If the key is left out, the token after that sign is
passed over. -/
def pair (node : Grammar Node) : Grammar Node := do
  let key ← match ← peek with
    | some .value | some .comma | some .closeBracket => do
      advance
      pure Node.empty
    | _ => node
  let value ← valueUnless (fun t => t == .comma || t == .closeBracket) node
  return .mapping none none [(key, value)]

/-- Reads the items in square brackets, up to the closing one. -/
def flowItems (node : Grammar Node) : (fuel : Nat) → (isFirst : Bool) → Grammar (List Node)
  | 0, _ => malformed
  | fuel + 1, isFirst => do
    if (← peek) == some .closeBracket then
      advance
      return []
    else
      separator isFirst
      match ← peek with
      | some .closeBracket =>
        advance
        return []
      | some .key =>
        advance
        let item ← pair node
        return item :: (← flowItems node fuel false)
      | _ =>
        let item ← node
        return item :: (← flowItems node fuel false)

def flowEntries (node : Grammar Node) : (fuel : Nat) → (isFirst : Bool) → Grammar (List (Node × Node))
  | 0, _ => malformed
  | fuel + 1, isFirst => do
    if (← peek) == some .closeBrace then
      advance
      return []
    else
      separator isFirst
      match ← peek with
      | some .closeBrace =>
        advance
        return []
      | some .key =>
        advance
        let key ← nodeUnless (fun t => t == .value || t == .comma || t == .closeBrace) node
        let value ← valueUnless (fun t => t == .comma || t == .closeBrace) node
        return (key, value) :: (← flowEntries node fuel false)
      | _ =>
        let key ← node
        return (key, Node.empty) :: (← flowEntries node fuel false)

/-! ### Nodes -/

/-- Where a node stands: in brackets, by indentation, or as key or value in a mapping by indentation. -/
inductive Position where
  | flow
  | block
  | inMapping
  deriving DecidableEq

def reference (name : String) : Grammar Node := do
  match (← get).anchors.lookup name with
  | some number => return .reference number
  | none => throw (.unknownAnchor name)

/-- Reads a node. As `fuel` one more than the number of tokens left is enough: whatever contains other nodes
takes a token before each of them. -/
def node : (fuel : Nat) → Position → Grammar Node
  | 0, _ => malformed
  | fuel + 1, position => do
    match ← peek with
    | some (.reference name) =>
      advance
      reference name
    | _ =>
      let (anchor, tag) ← properties
      match ← peek, position with
      | some .entry, .inMapping => return .sequence anchor tag (← unindentedItems (node fuel .block) (fuel + 1))
      | some (.scalar style text), _ =>
        advance
        return .scalar anchor tag style text
      | some .openBracket, _ =>
        advance
        return .sequence anchor tag (← flowItems (node fuel .flow) (fuel + 1) true)
      | some .openBrace, _ =>
        advance
        return .mapping anchor tag (← flowEntries (node fuel .flow) (fuel + 1) true)
      | some .sequenceStart, .block | some .sequenceStart, .inMapping =>
        advance
        return .sequence anchor tag (← blockItems (node fuel .block) (fuel + 1))
      | some .mappingStart, .block | some .mappingStart, .inMapping =>
        advance
        return .mapping anchor tag (← blockEntries (node fuel .inMapping) (fuel + 1))
      | _, _ => if anchor.isSome || tag.isSome then return .scalar anchor tag .plain "" else malformed

/-! ### Documents -/

/-- The handles that need no directive. -/
def usualHandles : List (String × String) :=
  [("!", "!"), ("!!", "tag:yaml.org,2002:")]

/-- Reads directives: at most one version, and no handle twice. -/
def directives : (fuel : Nat) → (hasVersion : Bool) → Grammar Unit
  | 0, _ => malformed
  | fuel + 1, hasVersion => do
    match ← peek with
    | some (.version major minor) =>
      if hasVersion || major ≠ 1 || (minor ≠ 1 ∧ minor ≠ 2) then malformed
      else
        advance
        directives fuel true
    | some (.tagHandle handle start) =>
      if ((← get).handles.lookup handle).isSome then malformed
      else
        advance
        modify fun p => { p with handles := (handle, start) :: p.handles }
        directives fuel hasVersion
    | _ => modify fun p => { p with handles := p.handles ++ usualHandles }

def isOutside : Token → Bool
  | .version .. | .tagHandle .. | .documentStart | .documentEnd => true
  | _ => false

def root : Grammar Node := do
  let fuel := (← remaining) + 1
  match ← peek with
  | none => return .void
  | some .documentEnd => malformed
  | some token =>
    directives fuel false
    if isOutside token then
      if (← peek) == some .documentStart then
        advance
        match ← peek with
        | none => return Node.empty
        | some token => if isOutside token then return Node.empty else node fuel .block
      else malformed
    else node fuel .block

/-- Passes over the lines that end a document; nothing may come after them. -/
def finish : (fuel : Nat) → Grammar Unit
  | 0 => malformed
  | fuel + 1 => do
    match ← peek with
    | none => return
    | some .documentEnd =>
      advance
      finish fuel
    | some _ => throw .severalDocuments

end Grammar

def Document.parse (text : String) : Except Error Document := do
  let tokens ← tokens text
  let (root, _) ← (do
    let root ← Grammar.root
    Grammar.finish ((← Grammar.remaining) + 1)
    return root : Grammar Node).run { tokens }
  return .ofNode root

end SourceRecipes.Yaml
