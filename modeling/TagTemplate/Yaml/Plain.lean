import TagTemplate.Yaml.Cursor

/-!
# Plain scalars

A plain scalar begins with no indicator and ends at a comment, at a colon before a blank, between
brackets also at a mark of theirs, and where a line is not indented enough. Its lines are folded.
-/

namespace TagTemplate.Yaml

def isFlowMark (c : Char) : Bool :=
  c == ',' || c == '[' || c == ']' || c == '\x7b' || c == '\x7d'

def indicators : List Char := "-?:,[]\x7b\x7d#&*!|>'\"%@".toList ++ ['\x60']

def startsPlain (inFlow : Bool) : List Char → Bool
  | [] => false
  | c :: cs =>
    if isSpace c || isBreak c then false
    else if indicators.contains c then
      !atBlank cs && (c == '-' || (!inFlow && (c == '?' || c == ':')))
    else true

def endsWord (inFlow : Bool) : List Char → Bool
  | [] => true
  | c :: cs =>
    isSpace c || isBreak c ||
      (c == ':' && (atBlank cs || (inFlow && meets isFlowMark cs))) ||
      (inFlow && (isFlowMark c || c == '?'))

def wordLength (inFlow : Bool) : List Char → Nat
  | [] => 0
  | c :: cs => if endsWord inFlow (c :: cs) then 0 else wordLength inFlow cs + 1

/-- The line breaks from the begin of a line on, with spaces among them, and the place after all of
them. At a mark between documents nothing more is read, and there are none. -/
def plainBreaks : Nat → Cursor → Option (List Char) × Cursor
  | 0, k => (none, k)
  | fuel + 1, k =>
    if k.atMark then (none, k)
    else
      match k.skipSpaces.lineBreak? with
      | none => (some [], k.skipSpaces)
      | some (c, k) =>
        let (others, k) := plainBreaks fuel k
        (others.map (c :: ·), k)

/-- What follows a word: what the gap stands for, nothing if no word can follow it, whether there is
a line break in it, and the place after it. -/
structure Gap where
  text : List Char
  brokeLine : Bool
  after : Cursor

def plainGap (k : Cursor) : Gap :=
  let (blanks, k) := k.span (· == ' ')
  match k.lineBreak? with
  | none => ⟨blanks, false, k⟩
  | some (first, k) =>
    let (others, k) := plainBreaks k.steps k
    ⟨(others.map (folded first)).getD [], true, k⟩

/-- A plain scalar that was read: its text, whether a line break follows the last word, and the
place after it. -/
structure PlainRead where
  text : List Char
  brokeLine : Bool
  after : Cursor

/-- Reads on word by word; `shown` is the text with the gap after it, last character first, `text`
the text up to the last word. -/
def readWords (inFlow : Bool) (indent : Int) : Nat → List Char → PlainRead → PlainRead
  | 0, _, r => r
  | fuel + 1, shown, r =>
    let length := if r.after.rest.head? == some '#' then 0 else wordLength inFlow r.after.rest
    if length = 0 then r
    else
      let shown := (r.after.rest.take length).reverse ++ shown
      let gap := plainGap (r.after.advance length)
      let r := ⟨shown, gap.brokeLine, gap.after⟩
      if gap.text.isEmpty || (!inFlow && gap.after.column < indent) then r
      else readWords inFlow indent fuel (gap.text.reverse ++ shown) r

/-- A plain scalar. Lines that it goes on in are indented by at least `indent`. -/
def readPlain (inFlow : Bool) (indent : Int) (k : Cursor) : PlainRead :=
  let r := readWords inFlow indent k.steps [] ⟨[], false, k⟩
  { r with text := r.text.reverse }

end TagTemplate.Yaml
