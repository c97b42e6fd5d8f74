import TagTemplate.Render.Value

/-!
# Rendering tags

A tag is rendered in a scope. Its attributes come first. Then its name is resolved: in the extension
it names, or by one of the structural tags, or in the scope; with `no_` before it, it asks whether
there is nothing of that name. What the name means decides how the tag is shown. A tag that shows
nothing shows what its attribute `default` says.

How enclosed nodes are rendered is a parameter here, so that no definition in this module refers to
itself.
-/

namespace TagTemplate

open Markup (Node Tag AttributeValue)

abbrev Renderer := List Node → Scope → Action String

def attributeText (render : Renderer) (scope : Scope) : AttributeValue → Action String
  | .literal text => return text
  | .markup nodes => render nodes scope

def optionsOf (render : Renderer) (scope : Scope) (tag : Tag) : Action Options :=
  tag.attributes.mapM fun p => do return (p.1, ← attributeText render scope p.2)

/-- A tag that is being rendered: with the values of its attributes, the scope it stands in, and the
scope that what it encloses is put into. -/
structure Occurrence where
  tag : Tag
  options : Options
  scope : Scope
  parent : Scope

namespace Occurrence

def enclosed (o : Occurrence) (render : Renderer) : Action String := render o.tag.children o.scope

/-- The arguments of a host function that the tag calls. Functions do not change the options that
they are given. -/
def arguments (o : Occurrence) (render : Renderer) : List Argument :=
  [.options o.options, .enclosing (o.enclosed render), .scope o.scope.access]

def call (o : Occurrence) (render : Renderer) (f : HostFunction) : Action Content := do
  Content.ofHost (← (HostValue.function f).invoke (o.arguments render))

def settle (o : Occurrence) (render : Renderer) : Nat → HostFunction → Action Content
  | 0, _ => Action.fail .exhausted
  | budget + 1, f => do
    match ← o.call render f with
    | .callable g => o.settle render budget g
    | c => return c

end Occurrence

/-- The bindings of the scope of a repeated item: a scalar is bound to `value`. -/
def itemBindings : Content → OrderedMap Content
  | .string s => [("value", .string s)]
  | .number n => [("value", .number n)]
  | .bool b => [("value", .bool b)]
  | _ => []

/-- The content that a function among the items of an array stands for: it is called once. -/
def Occurrence.itemContent (o : Occurrence) (render : Renderer) (item : HostValue) :
    Action Content := do
  match ← Content.ofHost item with
  | .callable f => o.call render f
  | c => return c

def Occurrence.item (o : Occurrence) (render : Renderer) (iteration : Iteration)
    (item : HostValue) : Action String := do
  let value ← o.itemContent render item
  if o.tag.children.isEmpty then value.inline o.options
  else
    render o.tag.children
      (o.parent.push { value, bindings := itemBindings value, iteration := some iteration })

namespace Environment

def collection (env : Environment) (render : Renderer) (o : Occurrence)
    (items : List HostValue) : Action String := do
  let body ←
    if o.tag.children.isEmpty then (Content.array items).inline o.options
    else
      render o.tag.children (o.parent.push
        { value := .array items, bindings := [("values", .array items)], collection := true })
  env.finish body o.options

def repetition (env : Environment) (render : Renderer) (o : Occurrence)
    (items : List HostValue) : Action String := do
  let parts ← items.zipIdx.mapM fun p => o.item render ⟨p.2, items.length⟩ p.1
  env.finish (Html.join parts o.options) o.options

def showContent (env : Environment) (render : Renderer) (o : Occurrence) (c : Content) :
    Action String :=
  match c with
  | .missing | .null | .callable _ | .string "" | .array [] => return ""
  | .array items =>
    if o.options.lookup "repeat" = some "false" then env.collection render o items
    else env.repetition render o items
  | .bool b => do
    if o.tag.children.isEmpty then env.finish (if b then "true" else "false") o.options
    else if b then env.finish (← o.enclosed render) o.options
    else return ""
  | c => do
    if o.tag.children.isEmpty then env.finish (← c.inline o.options) o.options
    else env.finish (← render o.tag.children (o.parent.enter c)) o.options

/-- Shows what a function returned in the end. Around what a tag encloses, its text is taken for
markup. -/
def showReturned (env : Environment) (render : Renderer) (o : Occurrence) (c : Content) :
    Action String :=
  if o.tag.children.isEmpty then env.showContent render o c
  else
    match c with
    | .string s => env.finish s o.options
    | .number n => do env.finish (← n.written) o.options
    | c => env.showContent render o c

def showSubject (env : Environment) (render : Renderer) (budget : Nat) (o : Occurrence)
    (subject : Content) : Action String :=
  match subject with
  | .callable f => do env.showReturned render o (← o.settle render budget f)
  | c => env.showContent render o c

def isPresent (render : Renderer) (budget : Nat) (o : Occurrence) (subject : Content) :
    Action Bool :=
  match subject with
  | .callable f => do return (← o.settle render budget f).present
  | c => return c.present

/-- The tags that do not look their name up. -/
inductive Structural where
  | include
  | layout
  | block
  | region
  | first
  | last
  | value
  | values
  deriving DecidableEq, Repr

def Structural.ofName? : String → Option Structural
  | "include" => some .include
  | "layout" => some .layout
  | "block" => some .block
  | "region" => some .region
  | "first" => some .first
  | "last" => some .last
  | "value" => some .value
  | "values" => some .values
  | _ => none

def oneDeeper (env : Environment) (name : String) (body : Action String) : Action String :=
  Action.thenAlways
    (do
      Action.update fun s => { s with depth := s.depth + 1 }
      let depth ← Action.observe (·.depth)
      if env.maxDepth < depth then
        Action.fail (.nesting env.maxDepth ("include template=\"" ++ name ++ "\""))
      else body)
    fun s => { s with depth := s.depth - 1 }

def renderInclude (env : Environment) (render : Renderer) (o : Occurrence) : Action String :=
  match o.options.lookup "template" with
  | none | some "" => do
    Action.warn .unnamedInclude
    return ""
  | some name => do
    match ← env.template name with
    | none => return ""
    | some nodes => env.oneDeeper name do env.finish (← render nodes o.scope) o.options

def renderLayout (o : Occurrence) : Action String :=
  match o.options.lookup "name" with
  | none | some "" => return ""
  | some name => do
    Action.update fun s => { s with registry := s.registry.requestLayout name }
    return ""

def renderBlock (o : Occurrence) : Action String :=
  match o.options.lookup "region" with
  | none | some "" => return ""
  | some region => do
    Action.update fun s =>
      { s with registry := s.registry.addBlock region ⟨o.tag.children, o.scope⟩ }
    return ""

def findBlock (region : String) : Action (Option Block) := do
  let found ← Action.observe (·.registry.findBlock region)
  Action.update fun s => { s with registry := found.2 }
  return found.1

def renderRegion (env : Environment) (render : Renderer) (o : Occurrence) : Action String := do
  let name := (o.options.lookup "name").getD ""
  match ← findBlock name with
  | none => env.finish (← o.enclosed render) o.options
  | some block => env.finish (← render block.nodes block.scope) o.options

def renderMarker (env : Environment) (render : Renderer) (o : Occurrence)
    (atEnd : Iteration → Bool) : Action String :=
  match o.scope.nearestIteration with
  | none => return ""
  | some i => do
    if atEnd i then env.finish (← o.enclosed render) o.options
    else return ""

/-- Shows the item of a repetition. An array that is shown as a whole has none. -/
def renderItemValue (env : Environment) (render : Renderer) (budget : Nat) (o : Occurrence) :
    Action String :=
  if o.scope.frame.collection then return ""
  else do env.showSubject render budget o (← o.scope.lookup "value")

def numberOption (options : Options) (name : String) : Option Int :=
  (options.lookup name).bind Text.readInteger?

def renderItemValues (env : Environment) (render : Renderer) (budget : Nat) (o : Occurrence) :
    Action String := do
  match ← o.scope.lookup "values" with
  | .array items =>
    let skip := (numberOption o.options "skip").getD 0
    env.showSubject render budget o
      (.array (Content.window items skip (numberOption o.options "limit")))
  | c => env.showSubject render budget o c

def renderStructural (env : Environment) (render : Renderer) (budget : Nat) (o : Occurrence) :
    Structural → Action String
  | .include => env.renderInclude render o
  | .layout => renderLayout o
  | .block => renderBlock o
  | .region => env.renderRegion render o
  | .first => env.renderMarker render o Iteration.first
  | .last => env.renderMarker render o Iteration.last
  | .value => env.renderItemValue render budget o
  | .values => env.renderItemValues render budget o

def negationMark : List Char := ['n', 'o', '_']

/-- The name that a tag's name negates. A bare `no_` is a name like any other. -/
def negated? (name : String) : Option String :=
  let cs := name.toList
  if negationMark.isPrefixOf cs && negationMark.length < cs.length then
    some (String.ofList (cs.drop negationMark.length))
  else none

def renderSubject (env : Environment) (render : Renderer) (budget : Nat) (o : Occurrence)
    (isNegated : Bool) (subject : Content) : Action String := do
  if isNegated then
    if ← isPresent render budget o subject then return ""
    else o.enclosed render
  else env.showSubject render budget o subject

def renderExtensionTag (env : Environment) (render : Renderer) (budget : Nat) (tag : Tag)
    (options : Options) (scope : Scope) (extension : String) : Action String := do
  let name := (negated? tag.name).getD tag.name
  match ← env.extension extension scope with
  | none =>
    env.renderSubject render budget ⟨tag, options, scope, scope⟩ (negated? tag.name).isSome .missing
  | some home =>
    let subject ← home.own name
    env.renderSubject render budget ⟨tag, options, scope, home⟩ (negated? tag.name).isSome subject

def renderWith (env : Environment) (render : Renderer) (budget : Nat) (tag : Tag)
    (options : Options) (scope : Scope) : Action String :=
  let o : Occurrence := ⟨tag, options, scope, scope⟩
  match tag.extension with
  | some extension => env.renderExtensionTag render budget tag options scope extension
  | none =>
    match negated? tag.name with
    | some name => do env.renderSubject render budget o true (← scope.lookup name)
    | none =>
      match Structural.ofName? tag.name with
      | some structural => env.renderStructural render budget o structural
      | none => do env.renderSubject render budget o false (← scope.lookup tag.name)

def renderTag (env : Environment) (render : Renderer) (budget : Nat) (tag : Tag) (scope : Scope) :
    Action String := do
  let options ← optionsOf render scope tag
  return orDefault (← env.renderWith render budget tag options scope) options

def renderNode (env : Environment) (render : Renderer) (budget : Nat) (scope : Scope) :
    Node → Action String
  | .text value => return value
  | .tag tag => env.renderTag render budget tag scope

def renderNodes (env : Environment) (render : Renderer) (budget : Nat) (nodes : List Node)
    (scope : Scope) : Action String := do
  return String.join (← nodes.mapM (env.renderNode render budget scope))

end Environment

end TagTemplate
