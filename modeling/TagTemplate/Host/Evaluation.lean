import TagTemplate.Action
import TagTemplate.Html.Join
import TagTemplate.Text.Integer

/-!
# Calling host functions

A call passes the attributes of a tag, a way to render what the tag encloses, the scope, or a text.
The result of a function is computed from what it was passed.
-/

namespace TagTemplate

structure ScopeAccess where
  lookup : Option String → Action Content
  own : String → Action Content

inductive Argument where
  | options (o : Options)
  | enclosing (render : Action String)
  | scope (s : ScopeAccess)
  | text (s : String)
  | other

/-- The arguments of a call by their kinds, and their number. Of several of a kind the last one
counts. -/
structure Received where
  options : Option Options := none
  enclosing : Option (Action String) := none
  scope : Option ScopeAccess := none
  text : Option String := none
  count : Nat := 0

def Received.add (r : Received) (a : Argument) : Received :=
  let r := { r with count := r.count + 1 }
  match a with
  | .options o => { r with options := some o }
  | .enclosing render => { r with enclosing := some render }
  | .scope s => { r with scope := some s }
  | .text s => { r with text := some s }
  | .other => r

def Received.ofArguments (arguments : List Argument) : Received := arguments.foldl Received.add {}

mutual

def HostValue.refresh : HostValue → Action HostValue
  | .list items => do return .list (← refreshItems items)
  | .stream _ items => do
    let items ← refreshItems items
    return .stream (← Action.freshStream) items
  | .object o => do return .object (← o.refresh)
  | v => return v

def HostObject.refresh : HostObject → Action HostObject
  | .mapping entries => do return .mapping (← refreshEntries entries)
  | .record fields computed => do return .record (← refreshEntries fields) computed
  | .unprintable => return .unprintable

def refreshItems : List HostValue → Action (List HostValue)
  | [] => return []
  | v :: vs => do
    let v ← v.refresh
    return v :: (← refreshItems vs)

def refreshEntries : List (String × HostValue) → Action (List (String × HostValue))
  | [] => return []
  | (name, v) :: entries => do
    let v ← v.refresh
    return (name, v) :: (← refreshEntries entries)

end

def upperAscii (s : String) : String := String.ofList (s.toList.map Char.toUpper)

def attributeLine (o : Options) : String :=
  String.join (o.map fun p => p.1 ++ "=" ++ p.2 ++ ";")

def numberedRecords (n : Int) : List HostValue :=
  (List.range n.toNat).map fun (i : Nat) =>
    .object (.mapping [("id", .number (.integer (i + 1)))])

namespace HostExpr

mutual

def eval (r : Received) : HostExpr → Action HostValue
  | .value v => v.refresh
  | .option name => return ((r.options.bind (·.lookup name)).map HostValue.string).getD .null
  | .optionsText => return (r.options.map fun o => HostValue.string (attributeLine o)).getD .null
  | .optionsMap =>
    match r.options with
    | some o => return .object (.mapping (o.map fun p => (p.1, .string p.2)))
    | none => return .null
  | .enclosing =>
    match r.enclosing with
    | some render => do return .string (← render)
    | none => return .null
  | .lookup name =>
    match r.scope with
    | some scope => do return .content (← scope.lookup name)
    | none => return .null
  | .own name =>
    match r.scope with
    | some scope => do return .content (← scope.own name)
    | none => return .null
  | .get name fallback =>
    match r.scope with
    | some scope => do
      match ← scope.lookup (some name) with
      | .missing => (fallback.getD .null).refresh
      | c => return c.raw
    | none => return .null
  | .text => return (r.text.map HostValue.string).getD .null
  | .argumentCount => return .number (.integer r.count)
  | .concat parts => do return .string (String.join (← evalTexts r parts))
  | .upper e => do return .string (upperAscii (← e.eval r).expressionText)
  | .length e => do return .number (.integer (← e.eval r).expressionText.length)
  | .records e => do
    match Text.readPlainInteger? (← e.eval r).expressionText with
    | some n => return .list (numberedRecords n)
    | none => Action.fail .badNumber
  | .list items => do return .list (← evalItems r items)
  | .cases e branches otherwise => do
    let key := (← e.eval r).expressionText
    match evalBranch? r key branches with
    | some branch => branch
    | none => evalOptional r otherwise
  | .counter name => do return .number (.integer (← Action.count name))
  | .raise kind message => Action.fail (.raised kind message)
  | .throw error => do
    match (← Action.observe (·.host.program)).raised? error with
    | some fault => Action.fail fault
    | none => return .null
  | .attempt handler e otherwise => do
    let program ← Action.observe (·.host.program)
    Action.recover (program.isCaught handler) (e.eval r) (otherwise.eval r)

def evalItems (r : Received) : List HostExpr → Action (List HostValue)
  | [] => return []
  | e :: es => do
    let v ← e.eval r
    return v :: (← evalItems r es)

def evalTexts (r : Received) : List HostExpr → Action (List String)
  | [] => return []
  | e :: es => do
    let v ← e.eval r
    return v.expressionText :: (← evalTexts r es)

def evalBranch? (r : Received) (key : String) :
    List (String × HostExpr) → Option (Action HostValue)
  | [] => none
  | (name, e) :: branches => if name = key then some (e.eval r) else evalBranch? r key branches

def evalOptional (r : Received) : Option HostExpr → Action HostValue
  | some e => e.eval r
  | none => return .null

end

end HostExpr

def HostFunction.call (f : HostFunction) (arguments : List Argument) : Action HostValue :=
  if f.arity.accepts arguments.length then do
    match f.label with
    | some label => Action.trace (.function label)
    | none => pure ()
    f.body.eval (.ofArguments arguments)
  else Action.fail .badCall

/-- Calls a value with as many leading arguments as it can take. Only functions can be called. -/
def HostValue.invoke (v : HostValue) (arguments : List Argument) : Action HostValue :=
  match v with
  | .function f => f.call (f.arity.select arguments)
  | _ => Action.fail .badCall

end TagTemplate
