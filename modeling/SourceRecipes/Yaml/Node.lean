import SourceRecipes.Yaml.Basic
import SourceRecipes.Yaml.Token

/-!
# Nodes of YAML

A document is a tree of nodes. A node may have an anchor, and elsewhere a reference stands for it. An anchor is known by
a number, the count of different anchor names met before it, and a reference to a number stands for the last node in the
document that has it.
-/

namespace SourceRecipes.Yaml

inductive Node where
  /-- What an empty text holds. -/
  | void
  | scalar (anchor : Option Nat) (tag : Option String) (style : ScalarStyle) (text : String)
  | sequence (anchor : Option Nat) (tag : Option String) (items : List Node)
  | mapping (anchor : Option Nat) (tag : Option String) (entries : List (Node × Node))
  | reference (number : Nat)

namespace Node

def empty : Node :=
  scalar none none .plain ""

def found : Node → Found
  | void => .null
  | scalar _ _ _ text => .string text
  | sequence .. => .sequence
  | mapping .. => .mapping
  | reference _ => .null

mutual

/-- How many marks a node takes when it is written as a row of scalars, references, beginnings and ends. -/
def size (n : Node) : Nat :=
  match n with
  | void => 1
  | scalar .. => 1
  | sequence _ _ items => itemsSize items + 2
  | mapping _ _ entries => entriesSize entries + 2
  | reference _ => 1
termination_by structural n

def itemsSize (items : List Node) : Nat :=
  match items with
  | [] => 0
  | n :: rest => size n + itemsSize rest
termination_by structural items

def entriesSize (entries : List (Node × Node)) : Nat :=
  match entries with
  | [] => 0
  | e :: rest => entrySize e + entriesSize rest
termination_by structural entries

def entrySize (entry : Node × Node) : Nat :=
  match entry with
  | (key, value) => size key + size value
termination_by structural entry

end

def numbered (anchor : Option Nat) (n : Node) : List (Nat × Node) :=
  anchor.toList.map fun number => (number, n)

mutual

/-- The nodes with anchors in the order in which they begin. -/
def anchored (n : Node) : List (Nat × Node) :=
  match n with
  | void => []
  | scalar anchor tag style text => numbered anchor (scalar anchor tag style text)
  | sequence anchor tag items => numbered anchor (sequence anchor tag items) ++ itemsAnchored items
  | mapping anchor tag entries => numbered anchor (mapping anchor tag entries) ++ entriesAnchored entries
  | reference _ => []
termination_by structural n

def itemsAnchored (items : List Node) : List (Nat × Node) :=
  match items with
  | [] => []
  | n :: rest => anchored n ++ itemsAnchored rest
termination_by structural items

def entriesAnchored (entries : List (Node × Node)) : List (Nat × Node) :=
  match entries with
  | [] => []
  | e :: rest => entryAnchored e ++ entriesAnchored rest
termination_by structural entries

def entryAnchored (entry : Node × Node) : List (Nat × Node) :=
  match entry with
  | (key, value) => anchored key ++ anchored value
termination_by structural entry

end

end Node

/-- A tree of nodes, with what the references in it stand for. -/
structure Document where
  root : Node
  targets : List (Nat × Node)

namespace Document

def ofNode (root : Node) : Document :=
  ⟨root, root.anchored⟩

/-- The last node whose anchor has a number. -/
def target? (d : Document) (number : Nat) : Option Node :=
  d.targets.reverse.lookup number

/-- How many references may be followed when the document is read. -/
def referenceLimit (d : Document) : Nat :=
  100 * d.root.size

end Document

end SourceRecipes.Yaml
