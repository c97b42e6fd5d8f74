/-!
# Lines and columns

Offsets count characters from 0, lines and columns count from 1. Only the line feed ends a line. An
offset below zero counts from the end.
-/

namespace TagTemplate.Text

structure Position where
  line : Nat
  column : Nat
  deriving DecidableEq, Repr

def Position.start : Position := ⟨1, 1⟩

def Position.next (p : Position) (c : Char) : Position :=
  if c = '\n' then ⟨p.line + 1, 1⟩ else ⟨p.line, p.column + 1⟩

/-- The place of an offset. Past the end of the text the columns of its last line count on. -/
def position (text : List Char) (offset : Nat) : Position :=
  let p := (text.take offset).foldl Position.next Position.start
  ⟨p.line, p.column + (offset - text.length)⟩

def clamp (length : Nat) (offset : Int) : Nat :=
  if offset < 0 then (length + offset).toNat else min offset.toNat length

def slice (text : List Char) (start stop : Int) : List Char :=
  (text.take (clamp text.length stop)).drop (clamp text.length start)

/-- The line and the column of any offset. Columns count on past both ends of the text. -/
def lineAndColumn (text : List Char) (offset : Int) : Nat × Int :=
  let inside := clamp text.length offset
  let p := position text inside
  (p.line, p.column + (offset - inside))

end TagTemplate.Text
