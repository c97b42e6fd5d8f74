import TagTemplate.Text.Split
import TagTemplate.Yaml.Token

/-!
# Nodes of documents

A document is a tree of scalars, sequences and mappings. Every node has a tag that says what kind of
value it stands for. A plain scalar without a tag gets one by its form; all other scalars are texts.
-/

namespace TagTemplate.Yaml

/-- What kind of value a node stands for. -/
inductive Tag where
  | null
  | bool
  | int
  | float
  | timestamp
  | str
  | seq
  | map
  | merge
  | value
  | unknown
  deriving DecidableEq, Repr

/-- A node of a document. -/
inductive Node where
  | scalar (tag : Tag) (text : List Char)
  | sequence (tag : Tag) (items : List Node)
  | mapping (tag : Tag) (entries : List (Node × Node))

def Node.tag : Node → Tag
  | .scalar tag _ | .sequence tag _ | .mapping tag _ => tag

def standardStart : String := "tag:yaml.org,2002:"

def standardTags : List (String × Tag) :=
  [("null", .null), ("bool", .bool), ("int", .int), ("float", .float), ("timestamp", .timestamp),
    ("str", .str), ("seq", .seq), ("map", .map), ("merge", .merge), ("value", .value)]

def Tag.ofName (name : String) : Tag :=
  (standardTags.find? fun t => standardStart ++ t.1 == name).elim .unknown (·.2)

def nullWords : List String := ["", "~", "null", "Null", "NULL"]

def boolWords : List String :=
  ["yes", "Yes", "YES", "no", "No", "NO", "true", "True", "TRUE", "false", "False", "FALSE",
    "on", "On", "ON", "off", "Off", "OFF"]

def infinityWords : List String := [".inf", ".Inf", ".INF"]

def nanWords : List String := [".nan", ".NaN", ".NAN"]

def dropSign : List Char → List Char
  | '-' :: cs | '+' :: cs => cs
  | cs => cs

def isDigitPart (c : Char) : Bool := c.isDigit || c == '_'

def isDigits (cs : List Char) : Bool := cs.head?.any Char.isDigit && cs.all isDigitPart

def isSixty : List Char → Bool
  | [c] => c.isDigit
  | [c, d] => '0' ≤ c && c ≤ '5' && d.isDigit
  | _ => false

def isSexagesimal (cs : List Char) : Bool :=
  match Text.pieces ':' cs with
  | first :: part :: parts => isDigits first && (part :: parts).all isSixty
  | _ => false

/-- The form of an integer: in base two, eight, ten, sixteen or sixty. -/
def isInteger (cs : List Char) : Bool :=
  match dropSign cs with
  | '0' :: 'b' :: ds => !ds.isEmpty && ds.all fun c => c == '0' || c == '1' || c == '_'
  | '0' :: 'x' :: ds => !ds.isEmpty && ds.all fun c => isHexDigit c || c == '_'
  | '0' :: ds => ds.all fun c => ('0' ≤ c && c ≤ '7') || c == '_'
  | ds => isDigits ds || isSexagesimal ds

def isExponent : List Char → Bool
  | [] => true
  | e :: sign :: ds =>
    (e == 'e' || e == 'E') && (sign == '-' || sign == '+') && !ds.isEmpty && ds.all Char.isDigit
  | _ => false

/-- The form of a number with a point: in base ten or sixty, or a word. -/
def isFloat (cs : List Char) : Bool :=
  let ds := dropSign cs
  let whole := ds.takeWhile fun c => isDigitPart c || c == ':'
  match ds.dropWhile fun c => isDigitPart c || c == ':' with
  | '.' :: rest =>
    let isTail := isExponent (rest.dropWhile isDigitPart)
    if whole.isEmpty then
      infinityWords.contains (String.ofList ds) || nanWords.contains (String.ofList cs) ||
        (cs.length = ds.length && rest.head?.any Char.isDigit && isTail)
    else (isDigits whole && isTail) || (isSexagesimal whole && rest.all isDigitPart)
  | _ => false

def isShortNumber (cs : List Char) : Bool :=
  (cs.length = 1 || cs.length = 2) && cs.all Char.isDigit

def isNumberOf (length : Nat) (cs : List Char) : Bool := cs.length = length && cs.all Char.isDigit

/-- The time zone at the end of a time: nothing, `Z`, or a distance in hours and minutes. -/
def isZone (cs : List Char) : Bool :=
  match cs.dropWhile isSpace with
  | ['Z'] => true
  | [] => cs.isEmpty
  | sign :: cs =>
    (sign == '-' || sign == '+') &&
      match Text.pieces ':' cs with
      | [hours] => isShortNumber hours
      | [hours, minutes] => isShortNumber hours && isNumberOf 2 minutes
      | _ => false

def isSecondsAndZone (cs : List Char) : Bool :=
  isNumberOf 2 (cs.take 2) &&
    match cs.drop 2 with
    | '.' :: rest => isZone (rest.dropWhile Char.isDigit)
    | rest => isZone rest

def isClock (cs : List Char) : Bool :=
  let hours := cs.takeWhile (· != ':')
  let rest := (cs.dropWhile (· != ':')).drop 1
  let minutes := rest.takeWhile (· != ':')
  isShortNumber hours && isNumberOf 2 minutes &&
    isSecondsAndZone ((rest.dropWhile (· != ':')).drop 1)

def isTimestamp (cs : List Char) : Bool :=
  let date := cs.takeWhile fun c => c.isDigit || c == '-'
  match Text.pieces '-' date, cs.drop date.length with
  | [year, month, day], [] => isNumberOf 4 year && isNumberOf 2 month && isNumberOf 2 day
  | [year, month, day], c :: rest =>
    isNumberOf 4 year && isShortNumber month && isShortNumber day &&
      if c == 't' || c == 'T' then isClock rest
      else isSpace c && isClock (rest.dropWhile isSpace)
  | _, _ => false

def Tag.ofPlain (cs : List Char) : Tag :=
  let word := String.ofList cs
  if boolWords.contains word then .bool
  else if isFloat cs then .float
  else if isInteger cs then .int
  else if word = "<<" then .merge
  else if nullWords.contains word then .null
  else if isTimestamp cs then .timestamp
  else if word = "=" then .value
  else .str

end TagTemplate.Yaml
