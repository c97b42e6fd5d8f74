import TagTemplate.Json.Printer
import TagTemplate.Json.Reader
import TagTemplate.Markup.Node
import TagTemplate.Text.HalfPair

/-!
# Stored templates

A compiled template is stored as JSON by a library, the codec: a node is an object that says its
`type` first. The codec that is used where no other is given loads members in any order, ignores
those it does not know and fills in those that may be absent, but is strict about types. It finds
faults in the order of the text.
-/

namespace TagTemplate.Markup

mutual

def Node.toJson : Node → Json
  | .text value => .object [("type", .string "text"), ("text", .string value)]
  | .tag t => t.toJson

def Tag.toJson : Tag → Json
  | { name, extension, attributes, children, selfClosing } =>
    .object [
      ("type", .string "tag"),
      ("name", .string name),
      ("namespace", match extension with | none => .null | some e => .string e),
      ("attributes", .object (attributesToJson attributes)),
      ("children", .array (nodesToJson children)),
      ("self_closing", .bool selfClosing)]

def AttributeValue.toJson : AttributeValue → Json
  | .literal value => .string value
  | .markup nodes => .array (nodesToJson nodes)

def nodesToJson : List Node → List Json
  | [] => []
  | n :: ns => n.toJson :: nodesToJson ns

def attributesToJson : List (String × AttributeValue) → List (String × Json)
  | [] => []
  | (name, v) :: as => (name, v.toJson) :: attributesToJson as

end

/-- Why a stored template cannot be loaded: it is no JSON, or it is not of the right form. -/
inductive LoadFault where
  | notJson
  | wrongForm
  deriving DecidableEq, Repr

structure Draft where
  text : Option String := none
  name : Option String := none
  extension : Option String := none
  attributes : List (String × AttributeValue) := []
  children : List Node := []
  selfClosing : Bool := false

inductive NodeType where
  | text
  | tag
  deriving DecidableEq, Repr

/-- The fault of a value of the wrong type: where reading stopped there is no value. -/
def mismatch : Json → LoadFault
  | .malformed _ => .notJson
  | _ => .wrongForm

def loadString : Json → Except LoadFault String
  | .string s => .ok s
  | v => .error (mismatch v)

/-- The name of a type. What does not begin as a string is of the wrong form, whether or not it can
be read. -/
def loadTypeName : Json → Except LoadFault String
  | .string s => .ok s
  | .malformed (some c) => .error (if c = '"' then .notJson else .wrongForm)
  | v => .error (mismatch v)

def nodeType : List (String × Json) → Except LoadFault NodeType
  | [] => .error .wrongForm
  | (key, v) :: ms =>
    if key = "type" then
      match loadTypeName v with
      | .ok "text" => .ok .text
      | .ok "tag" => .ok .tag
      | .ok _ => .error .wrongForm
      | .error fault => .error fault
    else if v.complete then nodeType ms
    else .error .notJson

def NodeType.name : NodeType → String
  | .text => "text"
  | .tag => "tag"

def Draft.node (d : Draft) : NodeType → Except LoadFault Node
  | .text =>
    match d.text with
    | some value => .ok (.text value)
    | none => .error .wrongForm
  | .tag =>
    match d.name with
    | some name => .ok (.tag ⟨name, d.extension, d.attributes, d.children, d.selfClosing⟩)
    | none => .error .wrongForm

mutual

def loadNode : Json → Except LoadFault Node
  | .object members => do
    let type ← nodeType members
    let draft ← loadMembers type {} members
    draft.node type
  | v => .error (mismatch v)

def loadNodes : List Json → Except LoadFault (List Node)
  | [] => .ok []
  | v :: vs => do
    let n ← loadNode v
    let ns ← loadNodes vs
    return n :: ns

def loadValue : Json → Except LoadFault AttributeValue
  | .string s => .ok (.literal s)
  | .array items => do
    let nodes ← loadNodes items
    return .markup nodes
  | v => .error (mismatch v)

/-- Loads attributes; of several values for one name the last counts. -/
def loadAttributes (loaded : List (String × AttributeValue)) :
    List (String × Json) → Except LoadFault (List (String × AttributeValue))
  | [] => .ok loaded
  | (key, v) :: ms => do
    let value ← loadValue v
    loadAttributes (OrderedMap.insert loaded key value) ms

def loadChildren : Json → Except LoadFault (List Node)
  | .array items => loadNodes items
  | v => .error (mismatch v)

def loadAttributeMap : Json → Except LoadFault (List (String × AttributeValue))
  | .object members => loadAttributes [] members
  | v => .error (mismatch v)

def loadMembers (type : NodeType) (draft : Draft) :
    List (String × Json) → Except LoadFault Draft
  | [] => .ok draft
  | (key, v) :: ms => do
    let draft ←
      if key = "type" then do
        let name ← loadTypeName v
        if name = type.name then .ok draft else .error .wrongForm
      else match type, key with
        | .text, "text" => do
          let text ← loadString v
          .ok { draft with text := some text }
        | .tag, "name" => do
          let name ← loadString v
          .ok { draft with name := some name }
        | .tag, "namespace" =>
          match v with
          | .null => .ok { draft with extension := none }
          | v => do
            let extension ← loadString v
            .ok { draft with extension := some extension }
        | .tag, "attributes" => do
          let attributes ← loadAttributeMap v
          .ok { draft with attributes }
        | .tag, "children" => do
          let children ← loadChildren v
          .ok { draft with children }
        | .tag, "self_closing" =>
          match v with
          | .bool b => .ok { draft with selfClosing := b }
          | v => .error (mismatch v)
        | _, _ => if v.complete then .ok draft else .error .notJson
    loadMembers type draft ms

end

def readNodes (text : String) : Except LoadFault (List Node) :=
  match Json.readText text.toList with
  | (v, whole) => do
    let nodes ← loadChildren v
    if whole then .ok nodes else .error .notJson

/-- A library that writes trees as JSON and reads them from it. -/
structure Codec where
  encode (nodes : List Node) : String
  decode (text : String) : Except LoadFault (List Node)

def Codec.compact : Codec where
  encode nodes := (Json.array (nodesToJson nodes)).text
  decode := readNodes

def dump (nodes : List Node) (codec : Codec := .compact) : String := codec.encode nodes

def dump? (nodes : List Node) : Option String :=
  if Text.isWritable (dump nodes) then some (dump nodes) else none

def load (text : String) (codec : Codec := .compact) : Except LoadFault (List Node) :=
  codec.decode text

end TagTemplate.Markup
