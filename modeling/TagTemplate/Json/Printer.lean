import TagTemplate.Json.Basic
import TagTemplate.Text.Quoted

/-!
# JSON text

Values are printed without blanks, members in their order. In strings only the quotation mark, the
backslash and the control characters below U+0020 are escaped.
-/

namespace TagTemplate.Json

open TagTemplate.Text (hexDigits)

def printChar (c : Char) : List Char :=
  if c = '"' then ['\\', '"']
  else if c = '\\' then ['\\', '\\']
  else if c = '\x08' then ['\\', 'b']
  else if c = '\x0c' then ['\\', 'f']
  else if c = '\n' then ['\\', 'n']
  else if c = '\r' then ['\\', 'r']
  else if c = '\t' then ['\\', 't']
  else if c.toNat < 0x20 then '\\' :: 'u' :: hexDigits 4 c.toNat
  else [c]

def printString (s : String) : List Char :=
  '"' :: s.toList.flatMap printChar ++ ['"']

mutual

/-- The characters of a value. What is malformed has none. -/
def print : Json → List Char
  | .null => "null".toList
  | .bool b => (if b then "true" else "false").toList
  | .integer n => (toString n).toList
  | .fraction text => text.toList
  | .string s => printString s
  | .array items => '[' :: printItems items
  | .object members => '\x7b' :: printMembers members
  | .malformed _ => []

def printItems : List Json → List Char
  | [] => [']']
  | [v] => print v ++ [']']
  | v :: w :: vs => print v ++ ',' :: printItems (w :: vs)

def printMembers : List (String × Json) → List Char
  | [] => ['\x7d']
  | [(k, v)] => printString k ++ ':' :: print v ++ ['\x7d']
  | (k, v) :: m :: ms => printString k ++ ':' :: print v ++ ',' :: printMembers (m :: ms)

end

def text (v : Json) : String := String.ofList v.print

end TagTemplate.Json
