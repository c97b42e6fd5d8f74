/-!
# Command line arguments

A command takes positional arguments and options in any order. An option has a long and possibly a
short form; one that takes a value is followed by it, in the same argument or in the next. Short
forms may share an argument. After `--` everything is positional.
-/

namespace TagTemplate.CommandLine

structure OptionSpec where
  key : String
  short : Option Char
  takesValue : Bool
  deriving DecidableEq, Repr

/-- The options and the positional arguments of a command. Options without a value have an empty
one. -/
structure Arguments where
  options : List (String × String) := []
  positional : List String := []
  deriving DecidableEq, Repr

namespace Arguments

def value? (a : Arguments) (key : String) : Option String :=
  (a.options.reverse.find? (·.1 == key)).map (·.2)

def has (a : Arguments) (key : String) : Bool := (a.value? key).isSome

def addPositional (argument : String) (a : Arguments) : Arguments :=
  { a with positional := argument :: a.positional }

end Arguments

/-- What an argument that begins with a hyphen means: options with their values, and an option that
still needs one. -/
structure Reading where
  options : List (String × String) := []
  open? : Option String := none
  deriving DecidableEq, Repr

def readShort (specs : List OptionSpec) : List Char → Option Reading
  | [] => some {}
  | c :: cs =>
    match specs.find? (·.short == some c) with
    | none => none
    | some spec =>
      if spec.takesValue then
        if cs.isEmpty then some { open? := some spec.key }
        else some { options := [(spec.key, String.ofList cs)] }
      else do
        let r ← readShort specs cs
        return { r with options := (spec.key, "") :: r.options }

def readLong (specs : List OptionSpec) (cs : List Char) : Option Reading :=
  let key := String.ofList (cs.takeWhile (· != '='))
  match specs.find? (·.key == key), cs.dropWhile (· != '=') with
  | none, _ => none
  | some spec, [] =>
    if spec.takesValue then some { open? := some key } else some { options := [(key, "")] }
  | some spec, _ :: value =>
    if spec.takesValue then some { options := [(key, String.ofList value)] } else none

def readOption (specs : List OptionSpec) : List Char → Option Reading
  | '-' :: '-' :: cs => readLong specs cs
  | '-' :: cs => readShort specs cs
  | _ => none

/-- An argument that names options. A lone hyphen is positional. -/
def isOption (argument : String) : Bool :=
  match argument.toList with
  | '-' :: _ :: _ => true
  | _ => false

def Arguments.read? (specs : List OptionSpec) : List String → Option Arguments
  | [] => some {}
  | "--" :: rest => some { positional := rest }
  | argument :: rest =>
    if isOption argument then
      match readOption specs argument.toList with
      | none => none
      | some ⟨options, none⟩ => do
        let a ← Arguments.read? specs rest
        return { a with options := options ++ a.options }
      | some ⟨options, some key⟩ =>
        match rest with
        | [] => none
        | value :: rest => do
          let a ← Arguments.read? specs rest
          return { a with options := options ++ (key, value) :: a.options }
    else do
      let a ← Arguments.read? specs rest
      return a.addPositional argument

end TagTemplate.CommandLine
