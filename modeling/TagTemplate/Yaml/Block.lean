import TagTemplate.Yaml.Cursor

/-!
# Block scalars

After `|` the lines of a text follow as they are, after `>` they are folded. The header may say how
far the lines are indented and what happens to the line breaks at the end: by default one of them is
kept.
-/

namespace TagTemplate.Yaml

inductive Chomping where
  | strip
  | clip
  | keep
  deriving DecidableEq, Repr

structure BlockHeader where
  chomping : Chomping := .clip
  increment : Option Nat := none
  deriving DecidableEq, Repr

def chomping? : Char → Option Chomping
  | '+' => some .keep
  | '-' => some .strip
  | _ => none

def increment? (c : Char) : Option Nat :=
  if c.isDigit && c ≠ '0' then some (c.toNat - 0x30) else none

def readHeader : List Char → Option BlockHeader
  | [] => some {}
  | [c] =>
    match chomping? c, increment? c with
    | some chomping, _ => some { chomping }
    | none, some n => some { increment := some n }
    | none, none => none
  | [c, d] =>
    match chomping? c, increment? d, increment? c, chomping? d with
    | some chomping, some n, _, _ | _, _, some n, some chomping =>
      some { chomping, increment := some n }
    | _, _, _, _ => none
  | _ => none

/-- The empty lines before the content that is indented by `indent`, or by less, as line breaks, and
the place after them. -/
def blockBreaks (indent : Int) : Nat → Cursor → List Char × Cursor
  | 0, k => ([], k)
  | fuel + 1, k =>
    let spaces := (k.rest.takeWhile (· == ' ')).length
    let k := k.advance (min spaces (indent - k.column).toNat)
    match k.lineBreak? with
    | none => ([], k)
    | some (c, k) =>
      let (breaks, k) := blockBreaks indent fuel k
      (c :: breaks, k)

/-- The empty lines before the first line of content, as line breaks, the largest column that spaces
reach to, and the place after them. -/
def blockIndentation (widest : Nat) : Nat → Cursor → List Char × Nat × Cursor
  | 0, k => ([], widest, k)
  | fuel + 1, k =>
    let k' := k.skipSpaces
    let widest := if k'.index = k.index then widest else max widest k'.column
    match k'.lineBreak? with
    | none => ([], widest, k')
    | some (c, k) =>
      let (breaks, widest, k) := blockIndentation widest fuel k
      (c :: breaks, widest, k)

def atBlockLine (indent : Int) (k : Cursor) : Bool := k.column == indent && !k.rest.isEmpty

/-- A block scalar that is being read: its text, last character first, the last line break, the
empty lines after it, and the place after them. -/
structure BlockRead where
  text : List Char := []
  lastBreak : List Char := []
  breaks : List Char
  after : Cursor

def readBlockLines (fold : Bool) (indent : Int) : Nat → BlockRead → BlockRead
  | 0, r => r
  | fuel + 1, r =>
    if !atBlockLine indent r.after then r
    else
      let indented (k : Cursor) : Bool := k.rest.head?.any isSpace
      let (line, k) := r.after.span fun c => !isBreak c
      let text := line.reverse ++ r.breaks.reverse ++ r.text
      let (lastBreak, k) := match k.lineBreak? with
        | some (c, k) => ([c], k)
        | none => ([], k)
      let (breaks, k) := blockBreaks indent k.steps k
      if !atBlockLine indent k then ⟨text, lastBreak, breaks, k⟩
      else
        let joined :=
          if fold && lastBreak = ['\n'] && !indented r.after && !indented k then
            if breaks.isEmpty then [' '] else []
          else lastBreak
        readBlockLines fold indent fuel ⟨joined ++ text, lastBreak, breaks, k⟩

def readBlock (fold : Bool) (parent : Int) (k : Cursor) :
    Except DocumentFault (List Char × Cursor) := do
  let (header, k) := k.next.span fun c => !isBreak c && c != ' '
  let some header := readHeader header | .error .malformed
  let k ← k.restOfLine
  let least := max 1 (parent + 1)
  let (breaks, indent, k) := match header.increment with
    | some n =>
      let indent := least + n - 1
      let (breaks, k) := blockBreaks indent k.steps k
      (breaks, indent, k)
    | none =>
      let (breaks, widest, k) := blockIndentation 0 k.steps k
      (breaks, max least widest, k)
  let r := readBlockLines fold indent k.steps { breaks, after := k }
  let ending := match header.chomping with
    | .strip => []
    | .clip => r.lastBreak
    | .keep => r.lastBreak ++ r.breaks
  return (r.text.reverse ++ ending, r.after)

end TagTemplate.Yaml
