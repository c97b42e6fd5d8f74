import TagTemplate.Files.Encoding
import TagTemplate.Files.FileSystem
import TagTemplate.Yaml.Document

/-!
# Templates and data from directories

A provider looks for files under a root directory. Names that lead outside are not found, whatever
they are made of. A template may be named with or without its suffix; data files are tried with one
suffix after the other.
-/

namespace TagTemplate

def FileSystem.firstUnder (fs : FileSystem) (root : Path) :
    List String → Except FileFault (Option ByteArray)
  | [] => .ok none
  | name :: names =>
    match FileSystem.resolve root name with
    | .error fault => .error fault
    | .ok path =>
      if !Path.isUnder path root then fs.firstUnder root names
      else do
        match ← fs.regular? path with
        | some bytes => return some bytes
        | none => fs.firstUnder root names

/-- Reads templates under a root. -/
structure TemplateDirectory where
  root : Path
  suffix : String := ".html"
  encoding : Encoding := .utf8 false

def TemplateDirectory.read (d : TemplateDirectory) (fs : FileSystem) (name : String) :
    Except FileFault (Option String) := do
  match ← fs.firstUnder d.root [name, name ++ d.suffix] with
  | some bytes => return some (← d.encoding.text bytes)
  | none => return none

abbrev DocumentReader := String → Except DocumentFault Yaml.Data

/-- The content of a document; an empty one is an empty mapping. -/
def loadDocument (parse : DocumentReader) (bytes : ByteArray) : Except Fault Yaml.Data := do
  let text ← ((Encoding.utf8 false).text bytes).mapError Fault.file
  match ← (parse text).mapError Fault.document with
  | .scalar .null => return .mapping []
  | data => return data

def FileSystem.loadContent (fs : FileSystem) (name : Pathname)
    (parse : DocumentReader := Yaml.read) : Except Fault Yaml.Data := do
  loadDocument parse (← (fs.openFile name).mapError Fault.file)

/-- Loads data under a root. -/
structure DataDirectory where
  root : Path

def DataDirectory.suffixes : List String := [".yaml", ".yml", ".json"]

def DataDirectory.load (d : DataDirectory) (fs : FileSystem) (name : String)
    (parse : DocumentReader := Yaml.read) : Except Fault (Option Yaml.Data) := do
  match ← (fs.firstUnder d.root (suffixes.map (name ++ ·))).mapError Fault.file with
  | some bytes => return some (← loadDocument parse bytes)
  | none => return none

end TagTemplate
