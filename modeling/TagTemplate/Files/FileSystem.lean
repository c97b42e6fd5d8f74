import TagTemplate.Fault
import TagTemplate.Files.Path
import TagTemplate.Text.HalfPair

/-!
# Files

A file system without links: regular files with their bytes, directories, and the directory in which
names begin. A name is walked through component by component, and the first component that leads
nowhere decides how the walk fails.
-/

namespace TagTemplate

/-- The regular files, the directories that were made, and the working directory. -/
structure FileSystem where
  directory : Path
  files : List (Path × ByteArray)
  made : List Path := []

namespace FileSystem

def bytes? (fs : FileSystem) (path : Path) : Option ByteArray := fs.files.lookup path

/-- There is a directory: it was made, or it holds something, or the working directory is in it. -/
def isDirectory (fs : FileSystem) (path : Path) : Bool :=
  path.isPrefixOf fs.directory || fs.made.contains path ||
    fs.files.any fun f => path.length < f.1.length && path.isPrefixOf f.1

/-- A text that can be a name: it can be written and holds no zero character. -/
def checkName (name : String) : Except FileFault Unit :=
  if !Text.canNameFile name then .error .unwritableName
  else if name.contains '\x00' then .error .badName
  else .ok ()

def has (fs : FileSystem) (path : Path) : Bool := fs.isDirectory path || (fs.bytes? path).isSome

/-- Where a component leads from a path, be there anything or not. Only directories can be gone
into. -/
def enter (fs : FileSystem) (path : Path) (component : String) : Except FileFault Path :=
  if !fs.isDirectory path then .error .notDirectory
  else if Path.maxComponentBytes < component.utf8ByteSize then .error .nameTooLong
  else .ok (Path.step path component)

def follow (fs : FileSystem) (path : Path) (component : String) : Except FileFault Path := do
  let next ← fs.enter path component
  if fs.has next then return next else .error .notFound

def start (fs : FileSystem) (name : Pathname) : Except FileFault Path :=
  if name.tooLong then .error .nameTooLong
  else if name.text = "" then .error .notFound
  else .ok (if name.absolute then [] else fs.directory)

def locate (fs : FileSystem) (name : Pathname) : Except FileFault Path := do
  name.components.foldlM fs.follow (← fs.start name)

/-- The place that a name gives to something new: everything but its last component has to be
there. -/
def place (fs : FileSystem) (name : Pathname) : Except FileFault Path := do
  let parent ← name.components.dropLast.foldlM fs.follow (← fs.start name)
  match name.components.getLast? with
  | some component => fs.enter parent component
  | none => return parent

def openFile (fs : FileSystem) (name : Pathname) : Except FileFault ByteArray := do
  checkName name.text
  match fs.bytes? (← fs.locate name) with
  | some bytes => return bytes
  | none => .error .isDirectory

def regular? (fs : FileSystem) (path : Path) : Except FileFault (Option ByteArray) :=
  match fs.locate (.ofPath path) with
  | .ok path => .ok (fs.bytes? path)
  | .error .nameTooLong => .error .nameTooLong
  | .error _ => .ok none

def makeDirectory (fs : FileSystem) (name : Pathname) : Except FileFault FileSystem := do
  let path ← fs.place name
  if fs.has path then .error .alreadyExists else return { fs with made := path :: fs.made }

def leadsToDirectory (fs : FileSystem) (name : Pathname) : Bool :=
  match fs.locate name with
  | .ok path => fs.isDirectory path
  | .error _ => false

/-- Makes the directory that the first `count` components name, unless it is there, and before it
those that lead to it. -/
def makeDirectories (fs : FileSystem) (absolute : Bool) (components : List String) :
    Nat → Except FileFault FileSystem
  | 0 => .ok fs
  | count + 1 =>
    let name := Pathname.ofComponents absolute (components.take (count + 1))
    match fs.makeDirectory name with
    | .ok fs => .ok fs
    | .error .notFound => do
      let fs ← fs.makeDirectories absolute components count
      match fs.makeDirectory name with
      | .ok fs => return fs
      | .error fault => if fs.leadsToDirectory name then return fs else .error fault
    | .error fault => if fs.leadsToDirectory name then .ok fs else .error fault

/-- Where a file is written to. Missing directories are made. -/
def placeFile (fs : FileSystem) (name : Pathname) : Except FileFault Path := do
  let fs ← fs.makeDirectories name.absolute name.components (name.components.length - 1)
  let path ← fs.place name
  if fs.isDirectory path then .error .isDirectory else return path

def resolve (directory : Path) (name : String) : Except FileFault Path := do
  checkName name
  return Path.resolve directory name

end FileSystem

end TagTemplate
