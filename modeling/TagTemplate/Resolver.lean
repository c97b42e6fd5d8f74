import TagTemplate.Filter
import TagTemplate.Markup.Parser
import TagTemplate.Scope.Lookup

/-!
# Fetching templates and extensions

Templates and extensions are fetched through the host and kept for the rest of a rendering, also
when there is none of that name. A template with a fault is not kept.
-/

namespace TagTemplate

open Markup (Node)

/-- What a rendering is given: how to read a template and to load an extension, if there is a way,
the filters, how deep includes and layouts may nest, and what layout names begin with. -/
structure Environment where
  read : Option (String → Except Fault (Option String)) := none
  require : Option (String → Except Fault (Option HostValue)) := none
  filters : Filters := []
  maxDepth : Nat := 100
  layoutPrefix : String := "layouts/"

namespace Environment

def readSource (env : Environment) (name : String) : Action (Option String) :=
  match env.read with
  | none => return none
  | some read => do
    Action.trace (.read name)
    Action.ofExcept (read name)

def loadExport (env : Environment) (name : String) : Action (Option HostValue) :=
  match env.require with
  | none => return none
  | some require => do
    Action.trace (.require name)
    match ← Action.ofExcept (require name) with
    | none => return none
    | some v =>
      match ← v.refresh with
      | .null => return none
      | v => return some v

def compileSource (name : String) (source : String) : Action (List Node) :=
  Action.ofExcept ((Markup.compile source (some name)).mapError Fault.compile)

/-- Reads and compiles a template. One that cannot be read is logged. -/
def fetchTemplate (env : Environment) (name : String) : Action (Option (List Node)) := do
  match ← env.readSource name with
  | none =>
    Action.warn (.template name)
    return none
  | some source => return some (← compileSource name source)

def template (env : Environment) (name : String) : Action (Option (List Node)) := do
  match ← Action.observe (·.templates.lookup name) with
  | some nodes => return nodes
  | none =>
    let nodes ← env.fetchTemplate name
    Action.update fun s => { s with templates := OrderedMap.insert s.templates name nodes }
    return nodes

def layout (env : Environment) (name : String) : Action (Option (List Node)) :=
  env.template (env.layoutPrefix ++ name)

/-- Loads an extension. One that cannot be loaded is logged. -/
def fetchExtension (env : Environment) (name : String) : Action (Option Content) := do
  match ← env.loadExport name with
  | none =>
    Action.warn (.extension name)
    return none
  | some v => return some (← Content.ofHost v)

def exported (env : Environment) (name : String) : Action (Option Content) := do
  match ← Action.observe (·.extensions.lookup name) with
  | some c => return c
  | none =>
    let c ← env.fetchExtension name
    Action.update fun s => { s with extensions := OrderedMap.insert s.extensions name c }
    return c

def extension (env : Environment) (name : String) (scope : Scope) : Action (Option Scope) := do
  return (← env.exported name).map scope.enter

end Environment

end TagTemplate
