import SourceRecipes.Text.Digits
import SourceRecipes.Yaml.Basic
import SourceRecipes.Yaml.Token

/-!
# Anchors, tags and directives

All of them are names. A tag is a handle, which is short for the beginning of the full tag, and a suffix. In both
an octet may be escaped as a percent sign and two hexadecimal digits; tags are kept as rows of octets, each a character of
its own. What follows an octet zero does not belong to the tag.
-/

namespace SourceRecipes.Yaml

/-- Reads the name of an anchor or a reference, after its sign. -/
def anchorName (spots : List Spot) : Except Error (String × List Spot) :=
  let (name, rest) := spanChars isNameChar spots
  let next := front rest
  if !name.isEmpty && (isGap next || "?:,]\x7d%@`".toList.contains next) then .ok (String.ofList name, rest)
  else .error .malformed

/-! ### Tags -/

/-- Whether a character may occur in a tag; commas and brackets only in one that is given in full. -/
def isTagChar (full : Bool) (c : Char) : Bool :=
  isNameChar c || ";/?:@&=+$.%!~*'()".toList.contains c || (full && ",[]".toList.contains c)

/-- How many octets follow one that begins a character. -/
def octetsAfter? (octet : Nat) : Option Nat :=
  if octet < 0x80 then some 0
  else if octet / 0x20 = 0x6 then some 1
  else if octet / 0x10 = 0xe then some 2
  else if octet / 0x08 = 0x1e then some 3
  else none

/-- How many octets are still to come after this one, if it may stand where `pending` octets are to come. -/
def octetStep? (pending octet : Nat) : Option Nat :=
  match pending with
  | 0 => octetsAfter? octet
  | pending + 1 => if octet / 0x40 = 0x2 then some pending else none

/-- Reads the characters of a tag, in the midst of a character with so many escaped octets still to come. -/
def tagChars (full : Bool) : (pending : Nat) → List Spot → Except Error (List Char × List Spot)
  | pending, s :: h :: l :: rest =>
    if s.char == '%' then
      match Text.hexValue? h.char, Text.hexValue? l.char with
      | some high, some low =>
        match octetStep? pending (16 * high + low) with
        | none => .error .malformed
        | some pending =>
          (tagChars full pending rest).map fun (chars, rest) => (Char.ofNat (16 * high + low) :: chars, rest)
      | _, _ => .error .malformed
    else if pending ≠ 0 then .error .malformed
    else if isTagChar full s.char then
      (tagChars full 0 (h :: l :: rest)).map fun (chars, rest) => (s.char :: chars, rest)
    else .ok ([], s :: h :: l :: rest)
  | pending, [s, e] =>
    if pending ≠ 0 || s.char == '%' then .error .malformed
    else if isTagChar full s.char then .ok ([s.char], [e])
    else .ok ([], [s, e])
  | pending, rest => if pending ≠ 0 then .error .malformed else .ok ([], rest)

def tagOf (chars : List Char) : String :=
  String.ofList (chars.takeWhile (· != '\x00'))

/-- Reads the characters of a tag, of which there must be some. -/
def tagText (full : Bool) (spots : List Spot) : Except Error (String × List Spot) := do
  let (chars, rest) ← tagChars full 0 spots
  if chars.isEmpty then .error .malformed else return (tagOf chars, rest)

/-- Reads a tag after its first exclamation mark, as handle and suffix. -/
def tagParts (spots : List Spot) : Except Error (String × String × List Spot) :=
  if front spots == '<' then do
    let (suffix, rest) ← tagText true spots.tail
    if front rest == '>' then return ("", suffix, rest.tail) else .error .malformed
  else
    let (name, rest) := spanChars isNameChar spots
    if front rest == '!' then do
      let (suffix, rest) ← tagText false rest.tail
      return ("!" ++ String.ofList name ++ "!", suffix, rest)
    else do
      let (chars, rest) ← tagChars false 0 rest
      let suffix := tagOf (name ++ chars)
      return if suffix.isEmpty then ("", "!", rest) else ("!", suffix, rest)

/-- Reads a tag after its first exclamation mark; only inside brackets a comma may follow it. -/
def tagToken (inFlow : Bool) (spots : List Spot) : Except Error (Token × List Spot) := do
  let (handle, suffix, rest) ← tagParts spots
  if isGap (front rest) || (inFlow && front rest == ',') then return (.tag handle suffix, rest)
  else .error .malformed

/-! ### Directives -/

/-- Reads a number of at most nine digits. -/
def versionNumber (spots : List Spot) : Except Error (Nat × List Spot) :=
  let (digits, rest) := spanChars Text.isDigit spots
  match Text.number? 10 digits with
  | none => .error .malformed
  | some n => if digits.length ≤ 9 then .ok (n, rest) else .error .malformed

/-- Reads the version that a text says it is written for. -/
def versionDirective (spots : List Spot) : Except Error (Token × List Spot) := do
  let (major, rest) ← versionNumber (dropBlanks spots)
  if front rest != '.' then .error .malformed
  else
    let (minor, rest) ← versionNumber rest.tail
    return (.version major minor, rest)

def handleDirective (spots : List Spot) : Except Error (Token × List Spot) := do
  let spots := dropBlanks spots
  if front spots != '!' then .error .malformed
  else
    let (name, rest) := spanChars isNameChar spots.tail
    let closed := front rest == '!'
    let handle := if closed then "!" ++ String.ofList name ++ "!" else "!"
    let rest := if closed then rest.tail else rest
    if (!closed && !name.isEmpty) || !isBlank (front rest) then .error .malformed
    else
      let (start, rest) ← tagText true (dropBlanks rest)
      if isGap (front rest) then return (.tagHandle handle start, rest) else .error .malformed

/-- Reads a directive after its percent sign, with the rest of its line. -/
def directive (spots : List Spot) : Except Error (Token × List Spot) := do
  let (name, rest) := spanChars isNameChar spots
  let (token, rest) ←
    if !isGap (front rest) then .error .malformed
    else if name == "YAML".toList then versionDirective rest
    else if name == "TAG".toList then handleDirective rest
    else .error .malformed
  return (token, ← dropLineEnd rest)

end SourceRecipes.Yaml
