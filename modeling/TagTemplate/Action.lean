import TagTemplate.Fault
import TagTemplate.Layout

/-!
# Actions

What happens while a page is rendered: host code is called, warnings are logged, counters count,
streams are read, templates and extensions are kept for the rest of the rendering, blocks are
collected. An action that fails keeps what has happened so far.
-/

namespace TagTemplate

inductive Call where
  | function (label : String)
  | read (name : String)
  | require (name : String)
  deriving DecidableEq, Repr

def Call.text : Call → String
  | .function label => "fn:" ++ label
  | .read name => "read:" ++ name
  | .require name => "require:" ++ name

inductive Warning where
  | template (name : String)
  | layout (name : String)
  | extension (name : String)
  | unnamedInclude
  deriving DecidableEq, Repr

def Warning.text : Warning → String
  | .template name => "Template not found: " ++ name
  | .layout name => "Layout not found: " ++ name
  | .extension name => "Extension not found: " ++ name
  | .unnamedInclude => "<pop:include> without a template name"

inductive HostReference where
  | function
  | stream
  | record
  deriving DecidableEq, Repr

/-- What the host program means by the names that its functions have for errors and for handlers:
the error that is raised, and the errors that a handler catches. It also has a text to stand for what
has none. -/
structure HostProgram where
  raises : String → Option Fault := fun _ => none
  catches : String → Fault → Bool := fun _ _ => true
  reference : HostReference → String := fun
    | .function => "<function>"
    | .stream => "<iterator>"
    | .record => "<object>"

namespace HostProgram

def raised? (p : HostProgram) (error : String) : Option Fault :=
  (p.raises error).filter Fault.isCatchable

def isCaught (p : HostProgram) (handler : String) (fault : Fault) : Bool :=
  fault.isCatchable && p.catches handler fault

end HostProgram

/-- The host program, and what its code has done and left behind: the trace of its calls, the
warnings, the counters, the streams that have been read and the next identity of a stream. -/
structure HostState where
  program : HostProgram := {}
  calls : List Call := []
  warnings : List Warning := []
  counters : OrderedMap Nat := []
  consumed : List Nat := []
  nextStream : Nat := 0

/-- The state of a rendering: beside the host's, the templates and extensions fetched so far (also
those not found), the blocks, and how many includes are being expanded. -/
structure State where
  host : HostState := {}
  templates : OrderedMap (Option (List Markup.Node)) := []
  extensions : OrderedMap (Option Content) := []
  registry : Registry := {}
  depth : Nat := 0

def State.start (host : HostState) : State := { host }

abbrev Action := ExceptT Fault (StateM State)

namespace Action

def perform {α : Type} (a : Action α) (s : State) : Except Fault α × State := a s

def of {α : Type} (f : State → Except Fault α × State) : Action α := f

def fail {α : Type} (fault : Fault) : Action α := of fun s => (.error fault, s)

def observe {α : Type} (f : State → α) : Action α := of fun s => (.ok (f s), s)

def update (f : State → State) : Action Unit := of fun s => (.ok (), f s)

def updateHost (f : HostState → HostState) : Action Unit :=
  update fun s => { s with host := f s.host }

def attempt {α : Type} (a : Action α) : Action (Except Fault α) :=
  of fun s => (.ok (perform a s).1, (perform a s).2)

def recover {α : Type} (caught : Fault → Bool) (a handler : Action α) : Action α :=
  of fun s =>
    match perform a s with
    | (.ok x, t) => (.ok x, t)
    | (.error fault, t) => if caught fault then perform handler t else (.error fault, t)

def thenAlways {α : Type} (a : Action α) (f : State → State) : Action α :=
  of fun s => ((perform a s).1, f (perform a s).2)

def ofExcept {α : Type} : Except Fault α → Action α
  | .ok a => pure a
  | .error fault => fail fault

def trace (call : Call) : Action Unit := updateHost fun h => { h with calls := h.calls ++ [call] }

def warn (warning : Warning) : Action Unit :=
  updateHost fun h => { h with warnings := h.warnings ++ [warning] }

/-- Counts: the first result is one. -/
def count (name : String) : Action Nat := do
  let n ← observe fun s => (s.host.counters.lookup name).getD 0 + 1
  updateHost fun h => { h with counters := OrderedMap.insert h.counters name n }
  return n

def freshStream : Action Nat := do
  let id ← observe (·.host.nextStream)
  updateHost fun h => { h with nextStream := id + 1 }
  return id

/-- Marks a stream as read. The result says whether it was unread. -/
def openStream (id : Nat) : Action Bool := do
  let unread ← observe fun s => !s.host.consumed.contains id
  updateHost fun h => { h with consumed := id :: h.consumed }
  return unread

end Action

end TagTemplate
