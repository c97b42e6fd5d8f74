import TagTemplate.Number.Reading
import TagTemplate.Template

/-!
# Options of a template

The options that a template is constructed with are checked one by one. Only if each of them is fine
it is checked that there is a source: the text itself, or a name and a way to read it.
-/

namespace TagTemplate

/-- Options as given. What is absent takes its default; `unknown` holds the names of options that
there are not. -/
structure Configuration where
  text : Option HostValue := none
  name : Option HostValue := none
  read : Option (String → Except Fault (Option String)) := none
  require : Option (String → Except Fault (Option HostValue)) := none
  filters : List (String × HostValue) := []
  maxDepth : Option HostValue := none
  layoutPrefix : Option HostValue := none
  unknown : List String := []

inductive Complaint where
  | notText
  | notNumber
  | notNumeral
  | notWhole
  | notFinite
  | tooLarge
  | notPositive
  | notFunction
  | unknown
  | noSource
  deriving DecidableEq, Repr

def Complaint.code : Complaint → String
  | .notText => "string_type"
  | .notNumber => "int_type"
  | .notNumeral => "int_parsing"
  | .notWhole => "int_from_float"
  | .notFinite => "finite_number"
  | .tooLarge => "int_parsing_size"
  | .notPositive => "greater_than"
  | .notFunction => "callable_type"
  | .unknown => "extra_forbidden"
  | .noSource => "value_error"

abbrev Complaints := List (String × Complaint)

namespace Configuration

def wholeLimit : Nat := Nat.pow 2 63

def wholeNumber (x : Binary64) : Except Complaint Int :=
  match x with
  | .nan | .infinity _ => .error .notFinite
  | .finite negative m e =>
    let small (n : Nat) : Except Complaint Int :=
      if n < wholeLimit then .ok (if negative then -(n : Int) else n) else .error .tooLarge
    if 0 ≤ e then small (m * Nat.pow 2 e.toNat)
    else if m % Nat.pow 2 (-e).toNat = 0 then small (m / Nat.pow 2 (-e).toNat)
    else .error .notWhole

def dropZeroFraction (cs : List Char) : List Char :=
  match cs.dropWhile (· != '.') with
  | '.' :: zeros => if zeros.all (· == '0') then cs.takeWhile (· != '.') else cs
  | _ => cs

def readNumeral (cs : List Char) : Except Complaint Int :=
  if Text.maxIntegerDigits < (String.ofList cs).utf8ByteSize then .error .tooLarge
  else if cs.all fun c => c.toNat < 0x80 then
    match Text.readSigned? (dropZeroFraction cs) with
    | some n => .ok n
    | none => .error .notNumeral
  else .error .notNumeral

def wholeOf : HostValue → Except Complaint Int
  | .number (.integer n) => .ok n
  | .number (.float x) => wholeNumber x
  | .bool b => .ok (if b then 1 else 0)
  | .string s => readNumeral (Text.trimPlain s.toList)
  | _ => .error .notNumber

def optionalText (location : String) : Option HostValue → Except Complaints (Option String)
  | none | some .null => .ok none
  | some (.string s) => .ok (some s)
  | some _ => .error [(location, .notText)]

def textOr (location fallback : String) : Option HostValue → Except Complaints String
  | none => .ok fallback
  | some (.string s) => .ok s
  | some _ => .error [(location, .notText)]

def positiveOr (location : String) (fallback : Nat) : Option HostValue → Except Complaints Nat
  | none => .ok fallback
  | some v =>
    match wholeOf v with
    | .error complaint => .error [(location, complaint)]
    | .ok n => if 0 < n then .ok n.toNat else .error [(location, .notPositive)]

def functionsOf (location : String) :
    List (String × HostValue) → Except Complaints (List (String × HostFunction))
  | [] => .ok []
  | (name, v) :: rest =>
    match v, functionsOf location rest with
    | .function f, .ok fs => .ok ((name, f) :: fs)
    | .function _, .error complaints => .error complaints
    | _, .ok _ => .error [(location ++ "." ++ name, .notFunction)]
    | _, .error complaints => .error ((location ++ "." ++ name, .notFunction) :: complaints)

def complaintsOf {α : Type} : Except Complaints α → Complaints
  | .ok _ => []
  | .error complaints => complaints

def inOrder (complaints : Complaints) : Complaints :=
  complaints.mergeSort fun a b =>
    a.1 < b.1 || (a.1 == b.1 && (a.2.code < b.2.code || a.2.code == b.2.code))

def check (c : Configuration) : Except Complaints Settings :=
  let text := optionalText "template" c.text
  let name := optionalText "name" c.name
  let filters := functionsOf "filters" (OrderedMap.ofPairs c.filters)
  let maxDepth := positiveOr "max_depth" 100 c.maxDepth
  let layoutPrefix := textOr "layout_prefix" "layouts/" c.layoutPrefix
  let unknown : Complaints := c.unknown.map fun option => (option, .unknown)
  match text, name, filters, maxDepth, layoutPrefix, unknown with
  | .ok text, .ok name, .ok filters, .ok maxDepth, .ok layoutPrefix, [] =>
    if text.isNone && (name.isNone || c.read.isNone) then .error [("", .noSource)]
    else .ok
      { text, name,
        environment := { read := c.read, require := c.require, filters, maxDepth, layoutPrefix } }
  | _, _, _, _, _, _ =>
    .error (inOrder (complaintsOf text ++ complaintsOf name ++ complaintsOf filters ++
      complaintsOf maxDepth ++ complaintsOf layoutPrefix ++ unknown))

end Configuration

end TagTemplate
