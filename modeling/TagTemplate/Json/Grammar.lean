import TagTemplate.Json.Basic

/-!
# The grammar of JSON text

What texts stand for a value. Blanks may stand around every value and every name, a character of a
string may be written by an escape, and the members of an object stand in its order. Values with
numbers are left out.
-/

namespace TagTemplate.Json

def isSpace (c : Char) : Bool := c == ' ' || c == '\t' || c == '\n' || c == '\r'

def hexValue? (c : Char) : Option Nat :=
  if c.isDigit then some (c.toNat - 0x30)
  else if 'a' ≤ c ∧ c ≤ 'f' then some (c.toNat - 0x57)
  else if 'A' ≤ c ∧ c ≤ 'F' then some (c.toNat - 0x37)
  else none

def hexQuad? (a b c d : Char) : Option Nat := do
  let a ← hexValue? a
  let b ← hexValue? b
  let c ← hexValue? c
  let d ← hexValue? d
  return ((a * 16 + b) * 16 + c) * 16 + d

def unitChar? (n : Nat) : Option Char :=
  if 0xd800 ≤ n ∧ n ≤ 0xdfff then none else some (Char.ofNat n)

def pairChar? (high low : Nat) : Option Char :=
  if 0xd800 ≤ high ∧ high ≤ 0xdbff ∧ 0xdc00 ≤ low ∧ low ≤ 0xdfff then
    some (Char.ofNat (0x10000 + (high - 0xd800) * 0x400 + (low - 0xdc00)))
  else none

def shortEscape? : Char → Option Char
  | '"' => some '"'
  | '\\' => some '\\'
  | '/' => some '/'
  | 'b' => some '\x08'
  | 'f' => some '\x0c'
  | 'n' => some '\n'
  | 'r' => some '\r'
  | 't' => some '\t'
  | _ => none

def AllBlank (cs : List Char) : Prop := ∀ c ∈ cs, isSpace c = true

/-- The ways to write a character of a string. -/
inductive CharText : Char → List Char → Prop where
  | plain {c} (hquote : c ≠ '"') (hbackslash : c ≠ '\\') (hcontrol : 0x20 ≤ c.toNat) :
      CharText c [c]
  | short {c letter} (h : shortEscape? letter = some c) : CharText c ['\\', letter]
  | unit {x a b c d n} (hquad : hexQuad? a b c d = some n) (hunit : unitChar? n = some x) :
      CharText x ['\\', 'u', a, b, c, d]
  | pair {x a b c d high a' b' c' d' low} (hhigh : hexQuad? a b c d = some high)
      (hlow : hexQuad? a' b' c' d' = some low) (hpair : pairChar? high low = some x) :
      CharText x ['\\', 'u', a, b, c, d, '\\', 'u', a', b', c', d']

inductive CharsText : List Char → List Char → Prop where
  | nil : CharsText [] []
  | cons {c cs written rest} (hc : CharText c written) (hcs : CharsText cs rest) :
      CharsText (c :: cs) (written ++ rest)

mutual

inductive ValueText : Json → List Char → Prop where
  | null : ValueText .null ['n', 'u', 'l', 'l']
  | yes : ValueText (.bool true) ['t', 'r', 'u', 'e']
  | no : ValueText (.bool false) ['f', 'a', 'l', 's', 'e']
  | string {s cs} (h : CharsText s.toList cs) : ValueText (.string s) ('"' :: (cs ++ ['"']))
  | emptyArray {blanks} (h : AllBlank blanks) : ValueText (.array []) ('[' :: (blanks ++ [']']))
  | array {items cs} (h : ItemsText items cs) : ValueText (.array items) ('[' :: (cs ++ [']']))
  | emptyObject {blanks} (h : AllBlank blanks) :
      ValueText (.object []) ('\x7b' :: (blanks ++ ['\x7d']))
  | object {members cs} (h : MembersText members cs) :
      ValueText (.object members) ('\x7b' :: (cs ++ ['\x7d']))

/-- A value with blanks around it. -/
inductive ElementText : Json → List Char → Prop where
  | mk {v before cs after} (hbefore : AllBlank before) (h : ValueText v cs)
      (hafter : AllBlank after) : ElementText v (before ++ (cs ++ after))

inductive ItemsText : List Json → List Char → Prop where
  | last {v cs} (hv : ElementText v cs) : ItemsText [v] cs
  | more {v vs cs ds} (hv : ElementText v cs) (hvs : ItemsText vs ds) :
      ItemsText (v :: vs) (cs ++ ',' :: ds)

inductive MemberText : String × Json → List Char → Prop where
  | mk {k v before key between cs} (hbefore : AllBlank before) (hk : CharsText k.toList key)
      (hbetween : AllBlank between) (hv : ElementText v cs) :
      MemberText (k, v) (before ++ '"' :: (key ++ '"' :: (between ++ ':' :: cs)))

inductive MembersText : List (String × Json) → List Char → Prop where
  | last {m cs} (hm : MemberText m cs) : MembersText [m] cs
  | more {m ms cs ds} (hm : MemberText m cs) (hms : MembersText ms ds) :
      MembersText (m :: ms) (cs ++ ',' :: ds)

end

def TextOf (text : String) (v : Json) : Prop := ElementText v text.toList

end TagTemplate.Json
