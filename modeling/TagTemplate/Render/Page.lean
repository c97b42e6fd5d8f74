import TagTemplate.Render.Tag

/-!
# Rendering a page

Nodes are rendered with a budget for nesting: every list of nodes inside another one takes one from
it, and so does every function that another one returns. With a layout asked for, the output so far
is dropped and the layout is rendered in its place, from the same scope and with the blocks
collected so far; this goes on until no layout is asked for.
-/

namespace TagTemplate

open Markup (Node)

def nestingBudget : Nat := 200000

namespace Environment

def render (env : Environment) : Nat → Renderer
  | 0 => fun _ _ => Action.fail .exhausted
  | budget + 1 => fun nodes scope => env.renderNodes (env.render budget) budget nodes scope

def takeLayout : Action (Option String) := do
  let taken ← Action.observe (·.registry.takeLayout)
  Action.update fun s => { s with registry := taken.2 }
  return taken.1

/-- Applies the layouts that are asked for, at most `remaining` of them. A layout that cannot be
read leaves the output as it is. -/
def applyLayouts (env : Environment) (budget : Nat) (root : Scope) :
    Nat → String → Action String
  | remaining, output => do
    match ← takeLayout with
    | none => return output
    | some name =>
      match remaining with
      | 0 => Action.fail (.nesting env.maxDepth "layout")
      | remaining + 1 =>
        match ← env.layout name with
        | none =>
          Action.warn (.layout name)
          return output
        | some nodes =>
          env.applyLayouts budget root remaining (← env.render budget nodes root)

def compose (env : Environment) (budget : Nat) (nodes : List Node) (root : Scope) :
    Action String := do
  env.applyLayouts budget root env.maxDepth (← env.render budget nodes root)

def guardRecursion (env : Environment) (a : Action String) : Action String := do
  match ← Action.attempt a with
  | .ok output => return output
  | .error .exhausted | .error (.raised .recursion _) =>
    Action.fail (.nesting env.maxDepth "include")
  | .error fault => Action.fail fault

/-- The content of a page: an empty mapping if there is none. -/
def pageContent : HostValue → HostValue
  | .null => .object (.mapping [])
  | v => v

def renderPage (env : Environment) (budget : Nat) (nodes : List Node) (content : HostValue) :
    Action String := do
  let root ← Scope.ofHost (← (pageContent content).refresh)
  env.guardRecursion (env.compose budget nodes root)

end Environment

end TagTemplate
