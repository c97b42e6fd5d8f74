import TagTemplate.Host.Evaluation

/-!
# From values to content

Every value of the host is brought into one of a few forms before it is looked into or shown. An
object has properties: the entries of a mapping, what a record's own `lookup` function finds, or its
attributes, of which those with a leading underscore stay private. Objects may also bring markup.

What filters and producers of markup return is shown as text. A record may give itself a text. What
else has none, such as a function, is shown by what the host program has to stand for it.
-/

namespace TagTemplate

namespace HostObject

def attribute? (o : HostObject) (name : String) : Action (Option HostValue) :=
  match o with
  | .record fields computed =>
    match fields.lookup name with
    | some v => return some v
    | none =>
      match computed.lookup name with
      | some e => do return some (← e.eval {})
      | none => return none
  | _ => return none

/-- Reads an attribute that may be absent. A computed attribute can turn out to be. -/
def attributeOrNone (o : HostObject) (name : String) : Action (Option HostValue) := do
  match ← Action.attempt (o.attribute? name) with
  | .ok v => return v
  | .error (.raised .missingAttribute _) => return none
  | .error fault => Action.fail fault

def hasMarkup (o : HostObject) : Action Bool := do
  return (← o.attributeOrNone "__html__").isSome

end HostObject

namespace Content

def ofHost : HostValue → Action Content
  | .content c => return c
  | .null => return .null
  | .bool b => return .bool b
  | .number n => return .number n
  | .string s => return .string s
  | .list items => return .array items
  | .stream id items => do return .array (if ← Action.openStream id then items else [])
  | .function f => return .callable f
  | .object o => do
    let _ ← o.hasMarkup
    return .object o

end Content

namespace HostObject

def get (o : HostObject) (name : String) : Action Content :=
  match o with
  | .mapping entries =>
    match entries.lookup name with
    | some v => Content.ofHost v
    | none => return .missing
  | .record .. =>
    if name.startsWith "_" then return .missing
    else do
      match ← o.attributeOrNone "lookup" with
      | some (.function f) =>
        match ← f.call [.text name] with
        | .null => return .missing
        | v => Content.ofHost v
      | _ =>
        match ← o.attributeOrNone name with
        | some v => Content.ofHost v
        | none => return .missing
  | .unprintable => return .missing

/-- What makes the markup of an object: its own markup, or else the property `html`. -/
def producer (o : HostObject) : Action HostValue :=
  match o with
  | .mapping entries => return (entries.lookup "html").getD .null
  | .record .. => do
    if ← o.hasMarkup then return (← o.attribute? "__html__").getD .null
    return (← o.attributeOrNone "html").getD .null
  | .unprintable => return .null

end HostObject

/-- The property of a content value. Only objects have any. -/
def Content.get (c : Content) (name : String) : Action Content :=
  match c with
  | .object o => o.get name
  | _ => return .missing

def Number.written (n : Number) : Action String :=
  if n.isShowable then return n.text else Action.fail .badNumber

def HostReference.written (r : HostReference) : Action String := do
  return (← Action.observe (·.host.program)).reference r

def HostObject.text? (o : HostObject) (name : String) : Action (Option String) := do
  match ← o.attribute? name with
  | none => return none
  | some (.string s) => return some s
  | some _ => Action.fail (.raised .general "not a text")

mutual

def HostValue.literal : HostValue → Action String
  | .null => return "None"
  | .bool b => return if b then "True" else "False"
  | .number n => n.written
  | .string s => return Text.quoted s
  | .list items => do return "[" ++ String.intercalate ", " (← literals items) ++ "]"
  | .stream .. => HostReference.stream.written
  | .function _ => HostReference.function.written
  | .object o => o.literal
  | .content c => c.literal

def HostObject.literal : HostObject → Action String
  | .mapping entries => do
    return "\x7b" ++ String.intercalate ", " (← entryLiterals entries) ++ "\x7d"
  | .record fields computed => do
    match ← (HostObject.record fields computed).text? "__repr__" with
    | some text => return text
    | none => HostReference.record.written
  | .unprintable => Action.fail (.raised .general "unstringifiable")

/-- The text of content. A single item of an array is followed by a comma. -/
def Content.literal : Content → Action String
  | .missing => return "Missing()"
  | .null => return "Null()"
  | .bool b => return "Bool(raw=" ++ (if b then "True" else "False") ++ ")"
  | .number n => do return "Number(raw=" ++ (← n.written) ++ ")"
  | .string s => return "String(raw=" ++ Text.quoted s ++ ")"
  | .array items => do
    let texts ← literals items
    let comma := if texts.length = 1 then "," else ""
    return "Array(items=(" ++ String.intercalate ", " texts ++ comma ++ "))"
  | .callable _ => do return "Callable(raw=" ++ (← HostReference.function.written) ++ ")"
  | .object o => do return "Object(raw=" ++ (← o.literal) ++ ")"

def literals : List HostValue → Action (List String)
  | [] => return []
  | v :: vs => do
    let text ← v.literal
    return text :: (← literals vs)

def entryLiterals : List (String × HostValue) → Action (List String)
  | [] => return []
  | (name, v) :: entries => do
    let text ← v.literal
    return (Text.quoted name ++ ": " ++ text) :: (← entryLiterals entries)

end

def HostValue.shown : HostValue → Action String
  | .string s => return s
  | .object (.record fields computed) => do
    match ← (HostObject.record fields computed).text? "__str__" with
    | some text => return text
    | none => (HostObject.record fields computed).literal
  | v => v.literal

end TagTemplate
