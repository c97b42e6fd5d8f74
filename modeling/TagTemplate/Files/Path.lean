import TagTemplate.Text.Split

/-!
# Paths

An absolute path is the list of its components. A name leads to a path from a directory: it may be
absolute, empty components mean nothing, `.` stays where it is, and `..` goes one directory up, at
the top nowhere. A name is either resolved as it is written, or walked through the file system.
-/

namespace TagTemplate

abbrev Path := List String

namespace Path

def components (name : String) : List String :=
  ((Text.pieces '/' name.toList).map String.ofList).filter (· ≠ "")

def isAbsolute (name : String) : Bool := name.toList.head? == some '/'

def step (path : Path) (component : String) : Path :=
  if component = ".." then path.dropLast
  else if component = "." then path
  else path ++ [component]

def resolve (directory : Path) (name : String) : Path :=
  (components name).foldl step (if isAbsolute name then [] else directory)

def isUnder (path root : Path) : Bool := root.isPrefixOf path

def maxComponentBytes : Nat := 255

def maxNameBytes : Nat := 4095

def text (path : Path) : String := "/" ++ String.intercalate "/" path

end Path

/-- A name of a file: as it is written, and the components that are walked through. -/
structure Pathname where
  text : String
  absolute : Bool
  components : List String
  deriving DecidableEq, Repr

namespace Pathname

/-- A name as it is given. What ends in a slash has to be a directory. -/
def given (name : String) : Pathname :=
  { text := name
    absolute := Path.isAbsolute name
    components :=
      Path.components name ++ (if name.toList.getLast? = some '/' then ["."] else []) }

/-- The name with these components. Without any it is the working directory. -/
def ofComponents (absolute : Bool) (components : List String) : Pathname :=
  let joined := String.intercalate "/" components
  { text := if absolute then "/" ++ joined else if components.isEmpty then "." else joined
    absolute, components }

/-- A name in its plain form: components that mean nothing are left out. -/
def plain (name : String) : Pathname :=
  ofComponents (Path.isAbsolute name) ((Path.components name).filter (· ≠ "."))

def ofPath (path : Path) : Pathname := ofComponents true path

def tooLong (name : Pathname) : Bool := Path.maxNameBytes < name.text.utf8ByteSize

end Pathname

end TagTemplate
