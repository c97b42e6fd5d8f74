import TagTemplate.Render.Page

/-!
# Templates

A template has a source: its own text, or a name to read it by. It is compiled once, together with
every template that it refers to by a literal name, so that a fault anywhere shows then. From then
on it can be rendered any number of times; every rendering starts with nothing fetched but the
template itself.
-/

namespace TagTemplate

open Markup (Node Tag tagsOf)

/-- Where a template comes from, and what renderings are given. -/
structure Settings where
  text : Option String := none
  name : Option String := none
  environment : Environment := {}

/-- A template, and its nodes once it is compiled. -/
structure Template where
  settings : Settings
  nodes : Option (List Node) := none

def Template.description (t : Template) : String :=
  "<Template " ++ Markup.templateLabel t.settings.name ++
    (if t.nodes.isSome then " (compiled)>" else " (not compiled)>")

def sourceKind : String := "template"

namespace Settings

def source (settings : Settings) : Action String :=
  match settings.text, settings.name with
  | some text, _ => return text
  | none, some name => do
    match ← settings.environment.readSource name with
    | some text => return text
    | none => Action.fail (.resolution sourceKind name)
  | none, none => Action.fail (.resolution sourceKind "")

def reference? (settings : Settings) (tag : Tag) : Option String :=
  match tag.extension, tag.name with
  | none, "include" => tag.literal? "template"
  | none, "layout" => (tag.literal? "name").map (settings.environment.layoutPrefix ++ ·)
  | _, _ => none

/-- The names already seen, and the templates whose references are still to be followed, last one
first. -/
structure Search where
  seen : List String
  pending : List (List Node)

/-- Follows the reference of one tag: a name not seen before is fetched. -/
def follow (settings : Settings) (search : Search) (tag : Tag) : Action Search :=
  match settings.reference? tag with
  | none => return search
  | some name =>
    if search.seen.contains name || settings.environment.read.isNone then return search
    else do
      match ← settings.environment.template name with
      | none => return { search with seen := name :: search.seen }
      | some nodes => return ⟨name :: search.seen, nodes :: search.pending⟩

def followAll (settings : Settings) : Nat → Search → Action Unit
  | _, ⟨_, []⟩ => return ()
  | 0, _ => Action.fail .exhausted
  | budget + 1, ⟨seen, nodes :: pending⟩ => do
    settings.followAll budget (← (tagsOf nodes).foldlM settings.follow ⟨seen, pending⟩)

def compile (settings : Settings) (budget : Nat) : Action (List Node) := do
  let source ← settings.source
  let nodes ← Action.ofExcept ((Markup.compile source settings.name).mapError Fault.compile)
  settings.followAll budget ⟨settings.name.toList, [nodes]⟩
  return nodes

end Settings

namespace Template

/-- The template after an attempt to compile it, and its nodes. A compiled one stays as it is. -/
def compiled (t : Template) (budget : Nat) (host : HostState) :
    Except Fault (List Node) × Template × HostState :=
  match t.nodes with
  | some nodes => (.ok nodes, t, host)
  | none =>
    match Action.perform (t.settings.compile budget) (State.start host) with
    | (.ok nodes, s) => (.ok nodes, { t with nodes := some nodes }, s.host)
    | (.error fault, s) => (.error fault, t, s.host)

/-- The templates that a rendering starts with: the template itself, if it has a name. -/
def preloaded (t : Template) (nodes : List Node) : OrderedMap (Option (List Node)) :=
  match t.settings.name with
  | none => []
  | some name => [(name, some nodes)]

def renderNodes (t : Template) (budget : Nat) (nodes : List Node) (content : HostValue)
    (host : HostState) : Except Fault String × HostState :=
  let result := Action.perform (t.settings.environment.renderPage budget nodes content)
    { State.start host with templates := t.preloaded nodes }
  (result.1, result.2.host)

def render (t : Template) (budget : Nat) (content : HostValue) (host : HostState) :
    Except Fault String × Template × HostState :=
  match t.compiled budget host with
  | (.ok nodes, t, host) =>
    let (result, host) := t.renderNodes budget nodes content host
    (result, t, host)
  | (.error fault, t, host) => (.error fault, t, host)

end Template

end TagTemplate
