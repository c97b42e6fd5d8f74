import TagTemplate.Text.HalfPair
import TagTemplate.Yaml.Cursor

/-!
# Quoted scalars

In single quotes a quote is written twice, in double quotes a backslash begins an escape. Lines are
folded: blanks around a line break are dropped, and the breaks count as inside any text. A mark
between documents must not stand at the begin of a line.
-/

namespace TagTemplate.Yaml

def readBreaks : Nat → Cursor → Except DocumentFault (List Char × Cursor)
  | 0, _ => .error .malformed
  | fuel + 1, k =>
    if k.atMark then .error .malformed
    else
      match (k.skip isSpace).lineBreak? with
      | none => .ok ([], k.skip isSpace)
      | some (c, k) => do
        let (breaks, k) ← readBreaks fuel k
        return (c :: breaks, k)

def readGap (k : Cursor) : Except DocumentFault (List Char × Cursor) :=
  let (blanks, k) := k.span isSpace
  match k.lineBreak? with
  | none => .ok (blanks, k)
  | some (first, k) => do
    let (others, k) ← readBreaks k.steps k
    return (folded first others, k)

def isHexDigit (c : Char) : Bool := c.isDigit || ('a' ≤ c && c ≤ 'f') || ('A' ≤ c && c ≤ 'F')

def hexValue (c : Char) : Nat :=
  if c.isDigit then c.toNat - 0x30
  else if 'a' ≤ c then c.toNat - 0x57
  else c.toNat - 0x37

def maxCodePoint : Nat := 0x7fffffff

def readCodePoint (width : Nat) (cs : List Char) : Except DocumentFault Char :=
  let digits := cs.take width
  if digits.length < width || !digits.all isHexDigit then .error .malformed
  else
    let n := digits.foldl (fun n c => 16 * n + hexValue c) 0
    match Text.ofCodePoint? n with
    | some c => .ok c
    | none => .error (if maxCodePoint < n then .tooLarge else .notValue)

def plainEscapes : List (Char × Char) :=
  [('0', '\x00'), ('a', '\x07'), ('b', '\x08'), ('t', '\t'), ('\t', '\t'), ('n', '\n'),
    ('v', '\x0b'), ('f', '\x0c'), ('r', '\r'), ('e', '\x1b'), (' ', ' '), ('"', '"'), ('\\', '\\'),
    ('/', '/'), ('N', '\x85'), ('_', '\xa0'), ('L', '\u2028'), ('P', '\u2029')]

def codeEscapes : List (Char × Nat) := [('x', 2), ('u', 4), ('U', 8)]

/-- What an escape stands for, after its backslash, and the place after it. An escaped line break
stands for nothing. -/
def readEscape (k : Cursor) : Except DocumentFault (List Char × Cursor) :=
  match k.rest with
  | [] => .error .malformed
  | c :: cs =>
    match plainEscapes.lookup c, codeEscapes.lookup c with
    | some meant, _ => .ok ([meant], k.next)
    | none, some width => do return ([← readCodePoint width cs], k.next.advance width)
    | none, none => if isBreak c then readBreaks k.steps k.next else .error .malformed

/-- The rest of a quoted scalar; `shown` is its text so far, last character first. -/
def readQuotedRest (double : Bool) : Nat → List Char → Cursor →
    Except DocumentFault (List Char × Cursor)
  | 0, _, _ => .error .malformed
  | fuel + 1, shown, k =>
    match k.rest with
    | [] => .error .malformed
    | c :: cs =>
      if isSpace c || isBreak c then do
        let (gap, k) ← readGap k
        readQuotedRest double fuel (gap.reverse ++ shown) k
      else if double && c = '\\' then do
        let (meant, k) ← readEscape k.next
        readQuotedRest double fuel (meant.reverse ++ shown) k
      else if !double && c = '\'' && cs.head? = some '\'' then
        readQuotedRest double fuel (c :: shown) (k.advance 2)
      else if c = if double then '"' else '\'' then .ok (shown.reverse, k.next)
      else readQuotedRest double fuel (c :: shown) k.next

def readQuoted (double : Bool) (k : Cursor) : Except DocumentFault (List Char × Cursor) :=
  readQuotedRest double k.steps [] k.next

end TagTemplate.Yaml
