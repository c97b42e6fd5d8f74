import TagTemplate.CommandLine.Arguments
import TagTemplate.Configuration
import TagTemplate.Console.Stream
import TagTemplate.Files.Provider
import TagTemplate.Markup.Stored
import TagTemplate.Text.HalfPair

/-!
# Commands

`render` renders a template of a directory to standard output or to a file, `check` compiles
templates and reports on each, `inspect` prints a compiled template. Template errors are reported
and end the command; so do, for `render`, files that cannot be read and documents that cannot be
understood. Other errors escape.
-/

namespace TagTemplate.CommandLine

def versionLine : String := "poptags 0.1.0\n"

structure RenderRequest where
  name : String
  templates : String
  content : Option String
  extensions : Option String
  output : Option String
  verbose : Bool
  deriving DecidableEq, Repr

inductive Command where
  | version
  | help
  | misuse
  | render (request : RenderRequest)
  | check (names : List String) (templates : String)
  | inspect (name templates : String)
  deriving DecidableEq, Repr

def helpSpec : OptionSpec := ⟨"help", none, false⟩

def templatesSpec : OptionSpec := ⟨"templates", some 't', true⟩

def renderSpecs : List OptionSpec :=
  [templatesSpec, ⟨"content", some 'c', true⟩, ⟨"extensions", some 'e', true⟩,
    ⟨"output", some 'o', true⟩, ⟨"verbose", some 'v', false⟩, helpSpec]

def directorySpecs : List OptionSpec := [templatesSpec, helpSpec]

/-- The directory of templates: by default the working directory. -/
def templatesOf (a : Arguments) : String := (a.value? "templates").getD "."

/-- The names of files and directories that are given can be names. A zero character cannot be part
of one. -/
def namesPossible (specs : List OptionSpec) (a : Arguments) : Bool :=
  specs.all fun spec => !((a.value? spec.key).any (·.contains '\x00'))

def Command.ofArguments (command : String) (arguments : List String) : Command :=
  let read (specs : List OptionSpec) (make : Arguments → Command) : Command :=
    match Arguments.read? specs arguments with
    | none => .misuse
    | some a =>
      if a.has "help" then .help else if namesPossible specs a then make a else .misuse
  match command with
  | "render" => read renderSpecs fun a =>
    match a.positional with
    | [name] =>
      .render
        { name, templates := templatesOf a, content := a.value? "content"
          extensions := a.value? "extensions", output := a.value? "output"
          verbose := a.has "verbose" }
    | _ => .misuse
  | "check" => read directorySpecs fun a =>
    if a.positional.isEmpty then .misuse else .check a.positional (templatesOf a)
  | "inspect" => read directorySpecs fun a =>
    match a.positional with
    | [name] => .inspect name (templatesOf a)
    | _ => .misuse
  | _ => .misuse

/-- What all arguments together ask for. Options before the command are for the program itself, also
those that stand in the place of the command. -/
def Command.parse : List String → Command
  | "--version" :: rest | "--" :: "--version" :: rest => if leads rest then .version else .misuse
  | "--help" :: rest | "--" :: "--help" :: rest => if leads rest then .help else .misuse
  | "--" :: command :: rest => .ofArguments command rest
  | command :: rest => if isOption command then .misuse else .ofArguments command rest
  | [] => .misuse
where
  /-- Whatever options follow for the program itself are known ones. -/
  leads : List String → Bool
    | "--version" :: rest => leads rest
    | "--help" :: rest => leads rest
    | "--" :: _ => true
    | argument :: _ => !isOption argument
    | [] => true

/-- What a command has done: its exit code, what it has written to the standard streams and to a
file, and the error that it ended with. -/
structure Outcome where
  exitCode : Nat := 0
  output : String := ""
  errors : String := ""
  escaped : Option Fault := none
  written : Option (Path × String) := none

namespace Outcome

def message (text : String) : Outcome :=
  { exitCode := 1, errors := Console.plainText text ++ "\n" }

def templateError (fault : Fault) : Outcome := message ("Error: " ++ fault.message?.getD "")

def unexpectedError (description : String) : Outcome :=
  message ("Unexpected error: " ++ description)

def escape (fault : Fault) (output : String) : Outcome :=
  { exitCode := 1, output, escaped := some fault }

/-- Text for standard output. Halves of surrogate pairs cannot be written. -/
def print (text : String) : Outcome :=
  if Text.isWritable text then { output := Console.plainText text } else escape .unwritable ""

def after (errors : String) (o : Outcome) : Outcome := { o with errors := errors ++ o.errors }

end Outcome

def warningText (console : Console) (host : HostState) : String :=
  String.join (host.warnings.map fun w => console.log .warning w.text)

def settingsFor (fs : FileSystem) (name templates : String) (extensions : Option String) :
    Settings :=
  let directory : TemplateDirectory := { root := Path.resolve fs.directory templates }
  let load (root : Path) (name : String) : Except Fault (Option HostValue) := do
    return (← DataDirectory.load ⟨root⟩ fs name).map (·.toHost)
  { name := some name
    environment :=
      { read := some fun name => (directory.read fs name).mapError Fault.file
        require := extensions.map fun e => load (Path.resolve fs.directory e) } }

/-- The content of a page: from a file, or none. -/
def contentFor (fs : FileSystem) : Option String → Except Fault HostValue
  | none => .ok (.object (.mapping []))
  | some file => do return (← fs.loadContent (.plain file)).toHost

/-- The description of an error that `render` reports without being a template error: of the file
system, or of a document without meaning. -/
def description? : Fault → Option String
  | .file .badName | .file .unwritableName | .file .undecodable | .file .unmarked
  | .file .unknownEncoding => none
  | .file _ => some "a file cannot be read"
  | .document .malformed => some "a document cannot be understood"
  | _ => none

def renderFailure (fault : Fault) : Outcome :=
  if fault.isTemplateError then .templateError fault
  else
    match description? fault with
    | some description => .unexpectedError description
    | none => .escape fault ""

/-- Writes a page to a file. A page that cannot be written leaves an empty file. -/
def deliver (console : Console) (fs : FileSystem) (request : RenderRequest) (page file : String) :
    Outcome :=
  let name := Pathname.plain file
  match fs.placeFile name with
  | .error fault => .escape (.file fault) ""
  | .ok path =>
    if !Text.isWritable page then { Outcome.escape .unwritable "" with written := some (path, "") }
    else
      { written := some (path, page)
        errors :=
          if request.verbose then
            console.log .info ("Wrote " ++ request.name ++ " to " ++ name.text)
          else "" }

def runRender (console : Console) (fs : FileSystem) (request : RenderRequest) : Outcome :=
  match contentFor fs request.content with
  | .error fault => renderFailure fault
  | .ok data =>
    let t : Template :=
      { settings := settingsFor fs request.name request.templates request.extensions }
    let (result, _, host) := t.render nestingBudget data {}
    Outcome.after (warningText console host) <|
      match result, request.output with
      | .error fault, _ => renderFailure fault
      | .ok page, none => .print page
      | .ok page, some file => deliver console fs request page file

def report (name : String) : Option String → String
  | none => "[green]✓[/green] " ++ name
  | some message => "[red]✗[/red] " ++ name ++ ": " ++ message

/-- Compiles templates one after the other. The outcome so far says in its exit code whether one of
them failed before. -/
def checkAll (console : Console) (fs : FileSystem) (templates : String) (o : Outcome) :
    List String → Outcome
  | [] => o
  | name :: names =>
    let t : Template := { settings := settingsFor fs name templates none }
    let (result, _, host) := t.compiled nestingBudget {}
    let o := { o with errors := o.errors ++ warningText console host }
    let next (exitCode : Nat) (message : Option String) : Outcome :=
      match console.print (report name message) with
      | .ok text =>
        checkAll console fs templates { o with exitCode, output := o.output ++ text } names
      | .error fault => { o with exitCode := 1, escaped := some (.report fault) }
    match result with
    | .ok _ => next o.exitCode none
    | .error fault =>
      if fault.isTemplateError then next 1 fault.message?
      else { o with exitCode := 1, escaped := some fault }

def runInspect (console : Console) (fs : FileSystem) (name templates : String) : Outcome :=
  let t : Template := { settings := settingsFor fs name templates none }
  let (result, _, host) := t.compiled nestingBudget {}
  Outcome.after (warningText console host) <|
    match result with
    | .ok nodes => .print (Markup.dump nodes ++ "\n")
    | .error fault =>
      if fault.isTemplateError then .templateError fault else .escape fault ""

def Command.run (fs : FileSystem) (command : Command) (console : Console := .unwrapped) : Outcome :=
  match command with
  | .version => { output := versionLine }
  | .help => {}
  | .misuse => { exitCode := 2 }
  | .render request => runRender console fs request
  | .check names templates => checkAll console fs templates {} names
  | .inspect name templates => runInspect console fs name templates

end TagTemplate.CommandLine
