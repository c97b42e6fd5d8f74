import TagTemplate.Fault
import TagTemplate.Text.Blank
import TagTemplate.Text.HalfPair

/-!
# Encodings

How the bytes of a file stand for text. Whatever ends a line in the file, a line feed ends it in the
text.
-/

namespace TagTemplate

inductive ByteOrder where
  | littleEndian
  | bigEndian
  deriving DecidableEq, Repr

/-- How bytes stand for text. A mark in front of the text is left out if the encoding is a marked
one; units of two bytes without an order need one. -/
inductive Encoding where
  | utf8 (marked : Bool)
  | utf16 (order : Option ByteOrder)
  | latin1
  | windows1252
  | ascii
  | unknown
  deriving DecidableEq, Repr

namespace Encoding

/-- The parts of a name, in lower case: whatever is no ASCII letter, digit or dot separates them. -/
def nameParts (cs : List Char) : List (List Char) :=
  Text.words (cs.map fun c => if c.isAlphanum || c == '.' then c.toLower else ' ')

/-- The encoding of a name. Case does not matter, nor what separates the parts of the name. -/
def ofName (name : String) : Encoding :=
  match String.intercalate "_" ((nameParts name.toList).map String.ofList) with
  | "utf_8" | "utf8" | "utf" | "u8" | "utf8_ucs2" | "utf8_ucs4" | "cp65001" => .utf8 false
  | "utf_8_sig" => .utf8 true
  | "utf_16" | "utf16" | "u16" => .utf16 none
  | "utf_16_le" | "utf_16le" | "unicodelittleunmarked" => .utf16 (some .littleEndian)
  | "utf_16_be" | "utf_16be" | "unicodebigunmarked" => .utf16 (some .bigEndian)
  | "latin_1" | "latin1" | "latin" | "l1" | "8859" | "iso8859" | "iso8859_1" | "iso_8859_1"
  | "iso_8859_1_1987" | "iso_ir_100" | "csisolatin1" | "cp819" | "ibm819" => .latin1
  | "cp1252" | "1252" | "windows_1252" => .windows1252
  | "ascii" | "us_ascii" | "us" | "646" | "iso646_us" | "iso_ir_6" | "csascii" | "cp367"
  | "ibm367" => .ascii
  | _ => .unknown

def textOfBytes (bytes : List UInt8) : String :=
  String.ofList (bytes.map fun b => Char.ofNat b.toNat)

def windowsHigh : List Nat :=
  [0x20ac, 0, 0x201a, 0x192, 0x201e, 0x2026, 0x2020, 0x2021, 0x2c6, 0x2030, 0x160, 0x2039, 0x152,
   0, 0x17d, 0, 0, 0x2018, 0x2019, 0x201c, 0x201d, 0x2022, 0x2013, 0x2014, 0x2dc, 0x2122, 0x161,
   0x203a, 0x153, 0, 0x17e, 0x178]

def windowsChar? (b : UInt8) : Option Char :=
  if 0x80 ≤ b && b < 0xa0 then
    match windowsHigh[b.toNat - 0x80]? with
    | none | some 0 => none
    | some n => some (Char.ofNat n)
  else some (Char.ofNat b.toNat)

def units? (order : ByteOrder) : List UInt8 → Option (List Nat)
  | [] => some []
  | [_] => none
  | a :: b :: rest => do
    let units ← units? order rest
    return (match order with
      | .littleEndian => a.toNat + 0x100 * b.toNat
      | .bigEndian => 0x100 * a.toNat + b.toNat) :: units

def isHigh (n : Nat) : Bool := 0xd800 ≤ n && n < 0xdc00

def isLow (n : Nat) : Bool := 0xdc00 ≤ n && n < 0xe000

/-- The characters of units: a pair of surrogates is one character, and one by itself is none. -/
def charsOfUnits? : List Nat → Option (List Char)
  | [] => some []
  | [n] => if Text.isSurrogate n then none else some [Char.ofNat n]
  | high :: low :: rest =>
    if isHigh high && isLow low then
      (charsOfUnits? rest).map
        (Char.ofNat (0x10000 + 0x400 * (high - 0xd800) + (low - 0xdc00)) :: ·)
    else if Text.isSurrogate high then none
    else (charsOfUnits? (low :: rest)).map (Char.ofNat high :: ·)

def textOfUnits (order : ByteOrder) (bytes : List UInt8) : Except FileFault String :=
  match (units? order bytes).bind charsOfUnits? with
  | some cs => .ok (String.ofList cs)
  | none => .error .undecodable

def textOfMarkedUnits : List UInt8 → Except FileFault String
  | [] => .ok ""
  | 0xff :: 0xfe :: rest => textOfUnits .littleEndian rest
  | 0xfe :: 0xff :: rest => textOfUnits .bigEndian rest
  | bytes => do
    let _ ← textOfUnits .littleEndian bytes
    .error .unmarked

def byteOrderMark : Char := '\ufeff'

def withoutMark (text : String) : String :=
  match text.toList with
  | c :: cs => if c = byteOrderMark then String.ofList cs else text
  | [] => text

def decode (encoding : Encoding) (bytes : ByteArray) : Except FileFault String :=
  match encoding with
  | .utf8 marked =>
    match String.fromUTF8? bytes with
    | some text => .ok (if marked then withoutMark text else text)
    | none => .error .undecodable
  | .utf16 none => textOfMarkedUnits bytes.toList
  | .utf16 (some order) => textOfUnits order bytes.toList
  | .latin1 => .ok (textOfBytes bytes.toList)
  | .windows1252 =>
    match bytes.toList.mapM windowsChar? with
    | some cs => .ok (String.ofList cs)
    | none => .error .undecodable
  | .ascii =>
    if bytes.toList.all (· < 0x80) then .ok (textOfBytes bytes.toList) else .error .undecodable
  | .unknown => .error .unknownEncoding

def unifyNewlines : List Char → List Char
  | [] => []
  | '\r' :: '\n' :: cs => '\n' :: unifyNewlines cs
  | '\r' :: cs => '\n' :: unifyNewlines cs
  | c :: cs => c :: unifyNewlines cs

def text (encoding : Encoding) (bytes : ByteArray) : Except FileFault String := do
  return String.ofList (unifyNewlines (← encoding.decode bytes).toList)

end Encoding

end TagTemplate
