/-!
# Tokens of YAML

A text is a row of tokens. Some of them stand for characters of the text, others for what its layout says: where a sequence
or mapping begins and ends by indentation, and that what follows is a key.
-/

namespace SourceRecipes.Yaml

/-- How a scalar is written. -/
inductive ScalarStyle where
  | plain
  | singleQuoted
  | doubleQuoted
  | literal
  | folded
  deriving DecidableEq, Repr

inductive Token where
  | version (major minor : Nat)
  | tagHandle (handle start : String)
  | documentStart
  | documentEnd
  /-- A sequence given by indentation begins. -/
  | sequenceStart
  /-- A mapping given by indentation begins. -/
  | mappingStart
  /-- A sequence or mapping given by indentation ends. -/
  | blockEnd
  /-- An item of a sequence given by indentation follows. -/
  | entry
  | key
  | value
  | openBracket
  | closeBracket
  | openBrace
  | closeBrace
  | comma
  | reference (name : String)
  | anchor (name : String)
  | tag (handle suffix : String)
  | scalar (style : ScalarStyle) (text : String)
  deriving DecidableEq, Repr

end SourceRecipes.Yaml
