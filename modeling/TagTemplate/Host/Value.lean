import TagTemplate.Number.Basic
import TagTemplate.OrderedMap

/-!
# Values of the host

A page is rendered from values that the host program supplies: plain data, one-shot streams, objects
with attributes, and functions. A function is given by the arguments it accepts and a small
expression for its result. Before anything is done with a value it is brought into one of a few
forms, its content.
-/

namespace TagTemplate

/-- The arguments a function accepts: at least `required`, at most `limit` if there is a limit. A
function that wants a named argument can never be called. -/
structure Arity where
  required : Nat
  limit : Option Nat
  needsNamed : Bool := false
  deriving DecidableEq, Repr

def Arity.accepts (a : Arity) (count : Nat) : Bool :=
  !a.needsNamed && a.required ≤ count &&
    match a.limit with
    | none => true
    | some n => count ≤ n

def Arity.select {α : Type} (a : Arity) (arguments : List α) : List α :=
  match a.limit with
  | none => arguments
  | some n => arguments.take n

/-- The kinds of error that host code raises. -/
inductive HostErrorKind where
  | general
  | value
  | missingAttribute
  | recursion
  deriving DecidableEq, Repr

mutual

/-- A value of the host. The identity of a stream tells whether it has been read; a stream ends, and
reading it does not fail. -/
inductive HostValue where
  | null
  | bool (b : Bool)
  | number (n : Number)
  | string (s : String)
  | list (items : List HostValue)
  | stream (id : Nat) (items : List HostValue)
  | function (f : HostFunction)
  | object (o : HostObject)
  | content (c : Content)

/-- A function of the host. Calls of a labelled one leave a trace. -/
structure HostFunction where
  arity : Arity
  label : Option String
  body : HostExpr

/-- Something with named properties: a mapping, a record with plain and computed attributes, or an
object without attributes that has no text. -/
inductive HostObject where
  | mapping (entries : List (String × HostValue))
  | record (fields : List (String × HostValue)) (computed : List (String × HostExpr))
  | unprintable

/-- The content of a value. The items of an array are still values of the host. -/
inductive Content where
  | missing
  | null
  | bool (b : Bool)
  | number (n : Number)
  | string (s : String)
  | array (items : List HostValue)
  | callable (f : HostFunction)
  | object (o : HostObject)

/-- What a host function computes from the arguments it was given. It may raise an error, also one
that it has only a name for, and it may go on with something else where a handler catches an error.
The attributes that it is given it leaves as they are. -/
inductive HostExpr where
  | value (v : HostValue)
  | option (name : String)
  | optionsText
  | optionsMap
  | enclosing
  | lookup (name : Option String)
  | own (name : String)
  | get (name : String) (fallback : Option HostValue)
  | text
  | argumentCount
  | concat (parts : List HostExpr)
  | upper (e : HostExpr)
  | length (e : HostExpr)
  | records (count : HostExpr)
  | list (items : List HostExpr)
  | cases (e : HostExpr) (branches : List (String × HostExpr)) (otherwise : Option HostExpr)
  | counter (name : String)
  | raise (kind : HostErrorKind) (message : String)
  | throw (error : String)
  | attempt (handler : String) (e otherwise : HostExpr)

end

instance : Inhabited HostValue := ⟨.null⟩
instance : Inhabited Content := ⟨.missing⟩
instance : Inhabited HostExpr := ⟨.value .null⟩

namespace Content

def kind : Content → String
  | .missing => "Missing"
  | .null => "Null"
  | .bool _ => "Bool"
  | .number _ => "Number"
  | .string _ => "String"
  | .array _ => "Array"
  | .callable _ => "Callable"
  | .object _ => "Object"

/-- There is something to show. Zero is present. -/
def present : Content → Bool
  | .missing | .null => false
  | .bool b => b
  | .string s => s ≠ ""
  | .array items => !items.isEmpty
  | .number _ | .callable _ | .object _ => true

def text? : Content → Option String
  | .bool b => some (if b then "true" else "false")
  | .number n => some n.text
  | .string s => some s
  | _ => none

def raw : Content → HostValue
  | .missing | .null => .null
  | .bool b => .bool b
  | .number n => .number n
  | .string s => .string s
  | .array items => .list items
  | .callable f => .function f
  | .object o => .object o

/-- The items without the first `skip`, and of those at most `limit`. Negative numbers count as
zero. -/
def window (items : List HostValue) (skip : Int) (limit : Option Int) : List HostValue :=
  match limit with
  | none => items.drop skip.toNat
  | some n => (items.drop skip.toNat).take n.toNat

end Content

namespace HostValue

def expressionText : HostValue → String
  | .string s => s
  | .number n => n.text
  | .bool b => if b then "true" else "false"
  | .content c => c.text?.getD ""
  | _ => ""

end HostValue

end TagTemplate
