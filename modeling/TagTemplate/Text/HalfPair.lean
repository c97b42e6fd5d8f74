/-!
# Halves of surrogate pairs

A surrogate code point by itself is no character, and no encoding can write it; but an escape may
name one. A text that has to carry it carries instead a character of the last private plane, whose
code point is larger by 2²⁰. No text is taken to have such a character of its own.
-/

namespace TagTemplate.Text

def halfPairShift : Nat := 0x100000

def isSurrogate (n : Nat) : Bool := 0xd800 ≤ n && n < 0xe000

def halfPair (n : Nat) : Char := Char.ofNat (n + halfPairShift)

def isHalfPair (c : Char) : Bool :=
  halfPairShift ≤ c.toNat && isSurrogate (c.toNat - halfPairShift)

def codePoint (c : Char) : Nat := if isHalfPair c then c.toNat - halfPairShift else c.toNat

/-- The text can be written: no surrogate is in it. -/
def isWritable (s : String) : Bool := s.toList.all fun c => !isHalfPair c

/-- The text can name a file. There halves that stand for bytes beyond ASCII are as good as those
bytes. -/
def canNameFile (s : String) : Bool :=
  s.toList.all fun c => !isHalfPair c || (0xdc80 ≤ codePoint c && codePoint c ≤ 0xdcff)

def ofCodePoint? (n : Nat) : Option Char :=
  if isSurrogate n then some (halfPair n)
  else if h : n.isValidChar then some (Char.ofNatAux n h)
  else none

end TagTemplate.Text
