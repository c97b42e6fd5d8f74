import TagTemplate.Markup.Diagnostic
import TagTemplate.Text.Blank
import TagTemplate.Text.Split
import TagTemplate.Text.Word

/-!
# Tokens

A template is a sequence of text runs, opening tags and closing tags. Only `<pop:` and `</pop:`
begin a tag. A comment, from `<!--` to the next `-->` or to the end, is text whatever it holds.

A token is read from a window of a text. The only thing outside the window that matters is the
character right after it: a value whose quotation mark stands there is not closed rather than not
quoted.
-/

namespace TagTemplate.Markup

open TagTemplate.Text (isBlank isWord length_dropWhile_le)

/-- An attribute as written. The value starts at `offset`, after the mark `quote`. -/
structure RawAttribute where
  name : String
  value : List Char
  offset : Nat
  quote : Char
  deriving DecidableEq, Repr

structure Opening where
  name : String
  attributes : List RawAttribute
  selfClosing : Bool
  source : String
  offset : Nat
  deriving DecidableEq, Repr

/-- A run of text or a tag, with its offset. Tags keep the text they were written as. -/
inductive Token where
  | text (value : String) (offset : Nat)
  | opening (tag : Opening)
  | closing (name : String) (source : String) (offset : Nat)
  deriving DecidableEq, Repr

def Token.source : Token → String
  | .text value _ => value
  | .opening tag => tag.source
  | .closing _ source _ => source

def Token.offset : Token → Nat
  | .text _ offset => offset
  | .opening tag => tag.offset
  | .closing _ _ offset => offset

def openMark : List Char := ['<', 'p', 'o', 'p', ':']

def closeMark : List Char := ['<', '/', 'p', 'o', 'p', ':']

def commentOpen : List Char := ['<', '!', '-', '-']

def commentClose : List Char := ['-', '-', '>']

def isNameStart (c : Char) : Bool := c.isAlpha || c == '_'

def isNameChar (c : Char) : Bool := isWord c || c == '.' || c == ':' || c == '-'

def readName : List Char → Option (String × List Char)
  | [] => none
  | c :: cs =>
    if isNameStart c then
      some (String.ofList (c :: cs.takeWhile isNameChar), cs.dropWhile isNameChar)
    else none

def skipBlank (cs : List Char) : List Char := cs.dropWhile isBlank

def readTagEnd (cs : List Char) : Option (Bool × List Char) :=
  match skipBlank cs with
  | '/' :: '>' :: r => some (true, r)
  | '>' :: r => some (false, r)
  | _ => none

def readClosingEnd (cs : List Char) : Option (List Char) :=
  match skipBlank cs with
  | '>' :: r => some r
  | _ => none

def readAttributeName (cs : List Char) : Option (String × List Char) :=
  match cs with
  | [] => none
  | c :: r =>
    if isBlank c then
      match readName (skipBlank r) with
      | none => none
      | some (name, r) =>
        match skipBlank r with
        | '=' :: r => some (name, skipBlank r)
        | _ => none
    else none

def isQuote (c : Char) : Bool := c == '"' || c == '\''

def readValue (beyond : Option Char) (cs : List Char) :
    Except Fault (Char × List Char × List Char × List Char) :=
  match cs with
  | [] =>
    match beyond with
    | some c => if isQuote c then .error .unterminatedValue else .error .unquotedValue
    | none => .error .unquotedValue
  | q :: r =>
    if isQuote q then
      match r.dropWhile (· != q) with
      | [] => .error .unterminatedValue
      | _ :: rest => .ok (q, r.takeWhile (· != q), r, rest)
    else .error .unquotedValue

def readAttribute (beyond : Option Char) (offset : Nat) (cs : List Char) :
    Except Fault (RawAttribute × List Char) :=
  match readAttributeName cs with
  | none => .error .malformed
  | some (name, r) =>
    match readValue beyond r with
    | .error fault => .error fault
    | .ok (quote, value, inner, rest) =>
      .ok (⟨name, value, offset + (cs.length - inner.length), quote⟩, rest)

theorem length_skipBlank_le (cs : List Char) : (skipBlank cs).length ≤ cs.length :=
  length_dropWhile_le _ _

theorem length_readName {cs r : List Char} {name : String} (h : readName cs = some (name, r)) :
    r.length < cs.length := by
  unfold readName at h
  split at h
  · simp at h
  · rename_i c cs
    split at h
    · simp only [Option.some.injEq, Prod.mk.injEq] at h
      obtain ⟨-, rfl⟩ := h
      exact Nat.lt_succ_of_le (length_dropWhile_le _ cs)
    · simp at h

theorem length_readTagEnd {cs r : List Char} {closed : Bool}
    (h : readTagEnd cs = some (closed, r)) : r.length < cs.length := by
  unfold readTagEnd at h
  have hle := length_skipBlank_le cs
  split at h
  · rename_i hs
    simp only [Option.some.injEq, Prod.mk.injEq] at h
    obtain ⟨-, rfl⟩ := h
    simp only [hs, List.length_cons] at hle
    omega
  · rename_i hs
    simp only [Option.some.injEq, Prod.mk.injEq] at h
    obtain ⟨-, rfl⟩ := h
    simp only [hs, List.length_cons] at hle
    omega
  · simp at h

theorem length_readClosingEnd {cs r : List Char} (h : readClosingEnd cs = some r) :
    r.length < cs.length := by
  unfold readClosingEnd at h
  have hle := length_skipBlank_le cs
  split at h
  · rename_i hs
    simp only [Option.some.injEq] at h
    subst h
    simp only [hs, List.length_cons] at hle
    omega
  · simp at h

theorem length_readAttributeName {cs r : List Char} {name : String}
    (h : readAttributeName cs = some (name, r)) : r.length < cs.length := by
  unfold readAttributeName at h
  split at h
  · simp at h
  · rename_i c cs
    split at h
    · split at h
      · simp at h
      · rename_i n r₁ hn
        split at h
        · rename_i r₂ he
          simp only [Option.some.injEq, Prod.mk.injEq] at h
          obtain ⟨-, rfl⟩ := h
          have h₁ := length_skipBlank_le cs
          have h₂ := length_readName hn
          have h₃ := length_skipBlank_le r₁
          have h₄ := length_skipBlank_le r₂
          simp only [he, List.length_cons] at h₃
          simp only [List.length_cons]
          omega
        · simp at h
    · simp at h

theorem length_readValue {beyond : Option Char} {cs value inner rest : List Char} {q : Char}
    (h : readValue beyond cs = .ok (q, value, inner, rest)) :
    rest.length + value.length < cs.length := by
  unfold readValue at h
  split at h
  · split at h
    · split at h <;> simp at h
    · simp at h
  · rename_i c r
    split at h
    · split at h
      · simp at h
      · rename_i d rest' hd
        simp only [Except.ok.injEq, Prod.mk.injEq] at h
        obtain ⟨rfl, rfl, rfl, rfl⟩ := h
        have := congrArg List.length (List.takeWhile_append_dropWhile (p := (· != c)) (l := r))
        simp only [hd, List.length_append, List.length_cons] at this
        simp only [List.length_cons]
        omega
    · simp at h

theorem length_readAttribute {beyond : Option Char} {offset : Nat} {cs rest : List Char}
    {a : RawAttribute} (h : readAttribute beyond offset cs = .ok (a, rest)) :
    rest.length < cs.length ∧ a.value.length < cs.length := by
  unfold readAttribute at h
  split at h
  · simp at h
  · rename_i name r hn
    split at h
    · simp at h
    · rename_i q value inner rest' hv
      simp only [Except.ok.injEq, Prod.mk.injEq] at h
      obtain ⟨rfl, rfl⟩ := h
      have := length_readAttributeName hn
      have := length_readValue hv
      exact ⟨by omega, by simp only; omega⟩

def readAttributes (beyond : Option Char) (offset : Nat) (cs : List Char) :
    Except Fault (List RawAttribute × Bool × List Char) :=
  match readTagEnd cs with
  | some (closed, rest) => .ok ([], closed, rest)
  | none =>
    match h : readAttribute beyond offset cs with
    | .error fault => .error fault
    | .ok (a, rest) =>
      have : rest.length < cs.length := (length_readAttribute h).1
      match readAttributes beyond (offset + (cs.length - rest.length)) rest with
      | .error fault => .error fault
      | .ok (as, closed, after) => .ok (a :: as, closed, after)
termination_by cs.length

def consumed (cs rest : List Char) : String := String.ofList (cs.take (cs.length - rest.length))

def readOpening (beyond : Option Char) (offset : Nat) (cs body : List Char) :
    Except Fault (Token × List Char) :=
  match readName body with
  | none => .error .invalidName
  | some (name, r) =>
    match readAttributes beyond (offset + (cs.length - r.length)) r with
    | .error fault => .error fault
    | .ok (attributes, selfClosing, rest) =>
      .ok (.opening ⟨name, attributes, selfClosing, consumed cs rest, offset⟩, rest)

def readClosing (offset : Nat) (cs body : List Char) : Except Fault (Token × List Char) :=
  match readName body with
  | none => .error .invalidClosingName
  | some (name, r) =>
    match readClosingEnd r with
    | none => .error .malformedClosing
    | some rest => .ok (.closing name (consumed cs rest) offset, rest)

end TagTemplate.Markup
