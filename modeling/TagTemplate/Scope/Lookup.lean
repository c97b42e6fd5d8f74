import TagTemplate.Content

/-!
# Looking names up

A name means what the innermost frame says that knows it.
-/

namespace TagTemplate

def Frame.own (f : Frame) (name : String) : Action Content :=
  match f.bindings.lookup name with
  | some c => return c
  | none => f.value.get name

namespace Scope

def lookupIn (name : String) : List Frame → Action Content
  | [] => return .missing
  | f :: fs => do
    match ← f.own name with
    | .missing => lookupIn name fs
    | c => return c

def own (s : Scope) (name : String) : Action Content := s.frame.own name

def lookup (s : Scope) (name : String) : Action Content := lookupIn name s.frames

def lookupOrSelf (s : Scope) : Option String → Action Content
  | none => return s.frame.value
  | some name => s.lookup name

def get (s : Scope) (name : String) (fallback : HostValue) : Action HostValue := do
  match ← s.lookup name with
  | .missing => return fallback
  | c => return c.raw

def access (s : Scope) : ScopeAccess := ⟨s.lookupOrSelf, s.own⟩

def ofHost (v : HostValue) : Action Scope := do
  return { frame := { value := ← Content.ofHost v } }

end Scope

def bindingsOfHost : List (String × HostValue) → Action (OrderedMap Content)
  | [] => return []
  | (name, v) :: entries => do
    let c ← Content.ofHost v
    return (name, c) :: (← bindingsOfHost entries)

def Scope.enterHost (s : Scope) (v : HostValue) (bindings : List (String × HostValue))
    (iteration : Option Iteration) (collection : Bool) : Action Scope := do
  let value ← Content.ofHost v
  let bindings ← bindingsOfHost bindings
  return s.push { value, bindings, iteration, collection }

end TagTemplate
