import TagTemplate.Yaml.Token

/-!
# Reading tokens

Tokens are read on demand. Whether a scalar or a pair of brackets is a key shows only at the colon
after it; until then it is pending, and the token for the key is put in front of it later. A pending
key is given up at the end of its line, or after too many characters; where only a key can stand,
that is an error. Blocks are opened and closed by the columns in which tokens stand.
-/

namespace TagTemplate.Yaml

/-- A key that is pending: the number of its first token, where it begins, and whether it has to be
a key. -/
structure PendingKey where
  number : Nat
  required : Bool
  start : Cursor
  deriving DecidableEq, Repr

/-- A document that is being read: the tokens read and not yet taken, the number of those taken, the
column of the innermost block and of the ones around it, how many brackets are open, whether a key
may begin here, and the pending keys by the brackets that they stand in. -/
structure Lexer where
  cursor : Cursor
  tokens : List Token := []
  taken : Nat := 0
  indent : Int := -1
  outer : List Int := []
  brackets : Nat := 0
  keyAllowed : Bool := true
  pending : List (Nat × PendingKey) := []
  ended : Bool := false

namespace Lexer

def maxKeyLength : Nat := 1024

def inFlow (l : Lexer) : Bool := l.brackets != 0

def push (l : Lexer) (t : Token) : Lexer := { l with tokens := l.tokens ++ [t] }

def insert (l : Lexer) (number : Nat) (t : Token) : Lexer :=
  { l with tokens := l.tokens.take (number - l.taken) ++ t :: l.tokens.drop (number - l.taken) }

/-- The key can no longer be one: it is on another line, or too far away. -/
def isStale (l : Lexer) (key : PendingKey) : Bool :=
  key.start.line != l.cursor.line || maxKeyLength < l.cursor.index - key.start.index

def dropStale (l : Lexer) : Except DocumentFault Lexer :=
  if l.pending.any fun p => l.isStale p.2 && p.2.required then .error .malformed
  else .ok { l with pending := l.pending.filter fun p => !l.isStale p.2 }

def dropKey (l : Lexer) : Except DocumentFault Lexer :=
  match l.pending.lookup l.brackets with
  | some key =>
    if key.required then .error .malformed
    else .ok { l with pending := l.pending.filter (·.1 != l.brackets) }
  | none => .ok l

def saveKey (l : Lexer) : Except DocumentFault Lexer := do
  if !l.keyAllowed then return l
  let required := !l.inFlow && l.indent == l.cursor.column
  let l ← l.dropKey
  let key : PendingKey := ⟨l.taken + l.tokens.length, required, l.cursor⟩
  return { l with pending := (l.brackets, key) :: l.pending }

def unwindFrom (column : Int) (l : Lexer) : List Int → Lexer
  | [] => l
  | indent :: outer =>
    if column < l.indent then unwindFrom column { l.push .blockEnd with indent, outer } outer
    else l

/-- Closes the blocks further to the right than a column. Between brackets columns mean nothing. -/
def unwind (l : Lexer) (column : Int) : Lexer :=
  if l.inFlow then l else l.unwindFrom column l.outer

def indentTo (l : Lexer) (column : Nat) : Option Lexer :=
  if l.indent < column then some { l with indent := column, outer := l.indent :: l.outer } else none

def advance (l : Lexer) (n : Nat) : Lexer := { l with cursor := l.cursor.advance n }

/-- The place of the next token, after spaces, comments and line breaks. Outside brackets a key may
begin on a new line. -/
def skipToToken : Nat → Lexer → Lexer
  | 0, l => l
  | fuel + 1, l =>
    let k := l.cursor.skipSpaces.skipComment
    match k.lineBreak? with
    | none => { l with cursor := k }
    | some (_, k) =>
      skipToToken fuel { l with cursor := k, keyAllowed := l.keyAllowed || !l.inFlow }

def skipMark (l : Lexer) : Lexer :=
  if l.cursor.index = 0 && l.cursor.rest.head? == some byteOrderMark then l.advance 1 else l

def readEnd (l : Lexer) : Except DocumentFault Lexer := do
  let l ← (l.unwind (-1)).dropKey
  return { l.push .streamEnd with keyAllowed := false, pending := [], ended := true }

def leaveDocument (l : Lexer) : Except DocumentFault Lexer := do
  return { ← (l.unwind (-1)).dropKey with keyAllowed := false }

def readDirectiveLine (l : Lexer) : Except DocumentFault Lexer := do
  let l ← l.leaveDocument
  let (directive, cursor) ← readDirective l.cursor
  return { l.push (.directive directive) with cursor }

def readMark (l : Lexer) (t : Token) : Except DocumentFault Lexer := do
  return (← l.leaveDocument).push t |>.advance 3

def openBracket (l : Lexer) (t : Token) : Except DocumentFault Lexer := do
  let l ← l.saveKey
  return { (l.push t).advance 1 with brackets := l.brackets + 1, keyAllowed := true }

def closeBracket (l : Lexer) (t : Token) : Except DocumentFault Lexer := do
  if !l.inFlow then .error .malformed
  let l ← l.dropKey
  return { (l.push t).advance 1 with brackets := l.brackets - 1, keyAllowed := false }

def readComma (l : Lexer) : Except DocumentFault Lexer := do
  let l ← l.dropKey
  return { (l.push .flowEntry).advance 1 with keyAllowed := true }

def openBlock (l : Lexer) (t : Token) : Except DocumentFault Lexer :=
  if l.inFlow then .ok l
  else if !l.keyAllowed then .error .malformed
  else .ok ((l.indentTo l.cursor.column).map (·.push t) |>.getD l)

def readItem (l : Lexer) : Except DocumentFault Lexer := do
  let l ← (← l.openBlock .blockSequenceStart).dropKey
  return { (l.push .blockEntry).advance 1 with keyAllowed := true }

def readKey (l : Lexer) : Except DocumentFault Lexer := do
  let l ← l.openBlock .blockMappingStart
  let l ← { l with keyAllowed := !l.inFlow }.dropKey
  return (l.push .key).advance 1

/-- The colon of a value. If a key is pending it is one. -/
def readValue (l : Lexer) : Except DocumentFault Lexer := do
  match l.pending.lookup l.brackets with
  | some key =>
    let l := { l with pending := l.pending.filter (·.1 != l.brackets), keyAllowed := false }
    let l := l.insert key.number .key
    let l := if l.inFlow then l
      else ((l.indentTo key.start.column).map (·.insert key.number .blockMappingStart)).getD l
    return (l.push .value).advance 1
  | none =>
    let l ← l.openBlock .blockMappingStart
    let l ← { l with keyAllowed := !l.inFlow }.dropKey
    return (l.push .value).advance 1

def readKeyPart (l : Lexer) (read : Cursor → Except DocumentFault (Token × Cursor)) :
    Except DocumentFault Lexer := do
  let l ← l.saveKey
  let (t, cursor) ← read l.cursor
  return { l.push t with cursor, keyAllowed := false }

def readBlockScalar (l : Lexer) (fold : Bool) : Except DocumentFault Lexer := do
  let l ← { l with keyAllowed := true }.dropKey
  let (text, cursor) ← readBlock fold l.indent l.cursor
  return { l.push (.scalar false text) with cursor }

/-- A plain scalar. After a line break a key may begin. -/
def readPlainScalar (l : Lexer) : Except DocumentFault Lexer := do
  let l ← l.saveKey
  let r := readPlain l.inFlow (l.indent + 1) l.cursor
  return { l.push (.scalar true r.text) with cursor := r.after, keyAllowed := r.brokeLine }

def readTokenAt (l : Lexer) (c : Char) (cs : List Char) : Except DocumentFault Lexer :=
  let lineStart := l.cursor.column == 0
  let outside := !l.inFlow
  if lineStart && c == '%' then l.readDirectiveLine
  else if lineStart && l.cursor.atMark then
    l.readMark (if c = '-' then .documentStart else .documentEnd)
  else if c == '[' then l.openBracket .flowSequenceStart
  else if c == '\x7b' then l.openBracket .flowMappingStart
  else if c == ']' then l.closeBracket .flowSequenceEnd
  else if c == '\x7d' then l.closeBracket .flowMappingEnd
  else if c == ',' then l.readComma
  else if c == '-' && atBlank cs then l.readItem
  else if c == '?' && (l.inFlow || atBlank cs) then l.readKey
  else if c == ':' && (l.inFlow || atBlank cs) then l.readValue
  else if c == '*' then
    l.readKeyPart fun k => (readAnchor k).map fun r => (Token.alias r.1, r.2)
  else if c == '&' then
    l.readKeyPart fun k => (readAnchor k).map fun r => (Token.anchor r.1, r.2)
  else if c == '!' then l.readKeyPart fun k => (readTag k).map fun r => (Token.tag r.1, r.2)
  else if outside && c == '|' then l.readBlockScalar false
  else if outside && c == '>' then l.readBlockScalar true
  else if c == '\'' || c == '"' then
    l.readKeyPart fun k => (readQuoted (c == '"') k).map fun r => (Token.scalar false r.1, r.2)
  else if startsPlain l.inFlow (c :: cs) then l.readPlainScalar
  else .error .malformed

def readMore (l : Lexer) : Except DocumentFault Lexer := do
  let l ← (skipToToken l.cursor.steps l.skipMark).dropStale
  let l := l.unwind l.cursor.column
  match l.cursor.rest with
  | [] => l.readEnd
  | c :: cs => l.readTokenAt c cs

def firstIsPending (l : Lexer) : Bool := l.pending.any fun p => p.2.number == l.taken

def settle : Nat → Lexer → Except DocumentFault Lexer
  | 0, l => .ok l
  | fuel + 1, l => do
    if l.ended then return l
    if l.tokens.isEmpty then settle fuel (← l.readMore)
    else
      let l ← l.dropStale
      if l.firstIsPending then settle fuel (← l.readMore) else return l

def peek (l : Lexer) : Except DocumentFault (Token × Lexer) := do
  let l ← settle (l.cursor.steps + 1) l
  return (l.tokens.head?.getD .streamEnd, l)

def take (l : Lexer) : Lexer :=
  match l.tokens with
  | [] => l
  | _ :: tokens => { l with tokens, taken := l.taken + 1 }

end Lexer

end TagTemplate.Yaml
