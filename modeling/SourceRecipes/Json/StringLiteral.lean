import SourceRecipes.Json.Basic

/-!
# JSON strings

A string is read character by character up to its closing quote. Characters beyond `U+FFFF` may be written as two
escapes, the halves of a surrogate pair; half a pair on its own is malformed. A string that is skipped is read
with less care: there any four hexadecimal digits will do.

An escape that is cut short by the end of the text counts as truncated when fewer than four bytes are left for its digits,
whatever they are.
-/

namespace SourceRecipes.Json

def shortEscape? : Char → Option Char
  | '"' => some '"'
  | '\\' => some '\\'
  | '/' => some '/'
  | 'b' => some '\x08'
  | 'f' => some '\x0c'
  | 'n' => some '\n'
  | 'r' => some '\r'
  | 't' => some '\t'
  | _ => none

/-- What is wrong with an escape of which `digits` digits were read before this rest. -/
def badDigits (digits : Nat) (rest : List Char) : Error :=
  if digits + (rest.take 4).foldl (fun n c => n + c.utf8Size) 0 < 4 then .truncated else .malformed

def isHighSurrogate (unit : Nat) : Bool :=
  0xd800 ≤ unit && unit ≤ 0xdbff

def isLowSurrogate (unit : Nat) : Bool :=
  0xdc00 ≤ unit && unit ≤ 0xdfff

def surrogatePair (high low : Nat) : Char :=
  Char.ofNat (0x10000 + 0x400 * (high - 0xd800) + (low - 0xdc00))

/-- Where the reading of a string stands: between characters, after a backslash, among the digits of an escape (after a
high surrogate or not), or between the two escapes of a pair. -/
inductive StringState where
  | plain
  | escape
  | digits (high : Option Nat) (count value : Nat)
  | afterHigh (high : Nat)
  | escapeAfterHigh (high : Nat)

/-- Reads the rest of a string, up to and with its closing quote. -/
def readString : StringState → List Char → Except Error (List Char × List Char)
  | _, [] => .error .truncated
  | .plain, c :: rest =>
    if c = '"' then .ok ([], rest)
    else if c = '\\' then readString .escape rest
    else if c.toNat < 0x20 then .error .malformed
    else (readString .plain rest).map fun (text, rest) => (c :: text, rest)
  | .escape, c :: rest =>
    match shortEscape? c with
    | some d => (readString .plain rest).map fun (text, rest) => (d :: text, rest)
    | none => if c = 'u' then readString (.digits none 0 0) rest else .error .malformed
  | .digits high count value, c :: rest =>
    match Text.hexValue? c with
    | none => .error (badDigits count (c :: rest))
    | some digit =>
      let value := 16 * value + digit
      if count < 3 then readString (.digits high (count + 1) value) rest
      else
        match high with
        | none =>
          if isLowSurrogate value then .error .malformed
          else if isHighSurrogate value then readString (.afterHigh value) rest
          else (readString .plain rest).map fun (text, rest) => (Char.ofNat value :: text, rest)
        | some high =>
          if isLowSurrogate value then
            (readString .plain rest).map fun (text, rest) => (surrogatePair high value :: text, rest)
          else .error .malformed
  | .afterHigh high, c :: rest => if c = '\\' then readString (.escapeAfterHigh high) rest else .error .malformed
  | .escapeAfterHigh high, c :: rest => if c = 'u' then readString (.digits (some high) 0 0) rest else .error .malformed

/-- Skips the rest of a string, up to and with its closing quote. -/
def skipString : StringState → List Char → Except Error (List Char)
  | _, [] => .error .truncated
  | .escape, c :: rest =>
    if (shortEscape? c).isSome then skipString .plain rest
    else if c = 'u' then skipString (.digits none 0 0) rest
    else .error .malformed
  | .digits high count value, c :: rest =>
    match Text.hexValue? c with
    | none => .error (badDigits count (c :: rest))
    | some _ => if count < 3 then skipString (.digits high (count + 1) value) rest else skipString .plain rest
  | _, c :: rest =>
    if c = '"' then .ok rest
    else if c = '\\' then skipString .escape rest
    else if c.toNat < 0x20 then .error .malformed
    else skipString .plain rest

/-! ### Writing -/

def escaped (c : Char) : List Char :=
  if c = '"' then ['\\', '"']
  else if c = '\\' then ['\\', '\\']
  else if c = '\x08' then ['\\', 'b']
  else if c = '\x0c' then ['\\', 'f']
  else if c = '\n' then ['\\', 'n']
  else if c = '\r' then ['\\', 'r']
  else if c = '\t' then ['\\', 't']
  else if c.toNat < 0x20 then ['\\', 'u', '0', '0', Text.hexDigit (c.toNat / 16), Text.hexDigit (c.toNat % 16)]
  else [c]

def writeString (text : List Char) : List Char :=
  '"' :: (text.flatMap escaped ++ ['"'])

end SourceRecipes.Json
