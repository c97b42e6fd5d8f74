import TagTemplate.Host.Value

/-!
# Scopes

Names are looked up in a chain of frames, the innermost first. A frame is entered with the content
of a tag. It may bind names of its own, which come before the properties of its content, and it may
stand for one item of a repetition or for an array that is shown as a whole.
-/

namespace TagTemplate

structure Iteration where
  index : Nat
  length : Nat
  deriving DecidableEq, Repr

def Iteration.first (i : Iteration) : Bool := i.index == 0

def Iteration.last (i : Iteration) : Bool := (i.index : Int) == (i.length : Int) - 1

structure Frame where
  value : Content
  bindings : OrderedMap Content := []
  iteration : Option Iteration := none
  collection : Bool := false

/-- A frame and the frames around it, from the inside out. -/
structure Scope where
  frame : Frame
  outer : List Frame := []

namespace Scope

def frames (s : Scope) : List Frame := s.frame :: s.outer

def push (s : Scope) (frame : Frame) : Scope := ⟨frame, s.frames⟩

def enter (s : Scope) (value : Content) : Scope := s.push { value }

def nearestIteration (s : Scope) : Option Iteration := s.frames.findSome? (·.iteration)

/-- How a scope is shown, up to the identity of the scope around it: by the kind of its content. -/
def description (s : Scope) : String :=
  "<Scope " ++ s.frame.value.kind ++ (if s.outer.isEmpty then ">" else "")

end Scope

end TagTemplate
