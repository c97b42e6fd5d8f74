import TagTemplate.OrderedMap

/-!
# Compiled templates

A compiled template is a list of nodes: text that is passed through and tags. A tag may name an
extension, in whose exported object its name is then looked up. An attribute value is literal text,
or markup of its own that is rendered where the tag is.
-/

namespace TagTemplate.Markup

mutual

/-- Literal text or a tag. -/
inductive Node where
  | text (value : String)
  | tag (tag : Tag)

/-- A tag with its attributes in writing order and what it encloses. -/
structure Tag where
  name : String
  extension : Option String
  attributes : List (String × AttributeValue)
  children : List Node
  selfClosing : Bool

/-- The value of an attribute. -/
inductive AttributeValue where
  | literal (value : String)
  | markup (nodes : List Node)

end

deriving instance BEq for Node, Tag, AttributeValue

instance : Inhabited Node := ⟨.text ""⟩

def Tag.qualifiedName (t : Tag) : String :=
  match t.extension with
  | none | some "" => t.name
  | some e => e ++ ":" ++ t.name

def Tag.literal? (t : Tag) (key : String) : Option String :=
  match t.attributes.lookup key with
  | some (.literal value) => some value
  | _ => none

mutual

/-- The tags of a node: a tag itself, then those in its attribute values, then those it encloses. -/
def Node.tags : Node → List Tag
  | .text _ => []
  | .tag t => t :: t.innerTags

def Tag.innerTags : Tag → List Tag
  | { attributes, children, .. } => tagsOfAttributes attributes ++ tagsOf children

def AttributeValue.tags : AttributeValue → List Tag
  | .literal _ => []
  | .markup nodes => tagsOf nodes

def tagsOf : List Node → List Tag
  | [] => []
  | n :: ns => n.tags ++ tagsOf ns

def tagsOfAttributes : List (String × AttributeValue) → List Tag
  | [] => []
  | (_, v) :: as => v.tags ++ tagsOfAttributes as

end

end TagTemplate.Markup
