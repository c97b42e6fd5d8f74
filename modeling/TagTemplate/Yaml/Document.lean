import TagTemplate.Yaml.Data
import TagTemplate.Yaml.Parser

/-!
# Documents

A text is read into nodes first, and then every node gets its value. Values are given level by
level, so that of several faults the one nearest to the root counts, and of those on one level the
first. A text may only hold characters that can be printed, line breaks and tabs.
-/

namespace TagTemplate.Yaml

def isDocumentChar (c : Char) : Bool :=
  c == '\t' || c == '\n' || c == '\r' || c == '\x85' || (' ' ≤ c && c ≤ '~') ||
    ('\xa0' ≤ c && c != '\ufffe' && c != '\uffff')

abbrev LevelFaults := List (Option DocumentFault)

def LevelFaults.beside : LevelFaults → LevelFaults → LevelFaults
  | [], bs => bs
  | as, [] => as
  | a :: as, b :: bs => a.or b :: LevelFaults.beside as bs

def LevelFaults.first (fs : LevelFaults) : Option DocumentFault := fs.findSome? id

def scalarFault (tag : Tag) (text : List Char) : Option DocumentFault :=
  match Scalar.read tag text with
  | .ok _ => none
  | .error fault => some fault

def collectionFault (tag : Tag) (expected : Tag) : Option DocumentFault :=
  if tag = expected then none else some .malformed

def keyFault : Node → Option DocumentFault
  | .scalar .. => none
  | _ => some .malformed

mutual

def nodeFaults : Node → LevelFaults
  | .scalar tag text => [scalarFault tag text]
  | .sequence tag items => collectionFault tag .seq :: itemFaults items
  | .mapping tag entries => collectionFault tag .map :: entryFaults entries

def itemFaults : List Node → LevelFaults
  | [] => []
  | n :: ns => LevelFaults.beside (nodeFaults n) (itemFaults ns)

def entryFaults : List (Node × Node) → LevelFaults
  | [] => []
  | (key, value) :: entries =>
    LevelFaults.beside (nodeFaults key) (LevelFaults.beside [keyFault key]
      (LevelFaults.beside (nodeFaults value) (entryFaults entries)))

end

def scalarValue (tag : Tag) (text : List Char) : Scalar :=
  (Scalar.read tag text).toOption.getD .null

def keyOf : Node → Scalar
  | .scalar tag text => scalarValue tag text
  | _ => .null

mutual

def dataOf : Node → Data
  | .scalar tag text => .scalar (scalarValue tag text)
  | .sequence _ items => .list (dataOfItems items)
  | .mapping _ entries => .ofEntries (dataOfEntries entries)

def dataOfItems : List Node → List Data
  | [] => []
  | n :: ns => dataOf n :: dataOfItems ns

def dataOfEntries : List (Node × Node) → List (Scalar × Data)
  | [] => []
  | (key, value) :: entries => (keyOf key, dataOf value) :: dataOfEntries entries

end

/-- What a document says; an empty one says nothing. -/
def read (text : String) : Except DocumentFault Data := do
  if !text.toList.all isDocumentChar then .error .malformed
  match ← Node.read text.toList with
  | none => return .scalar .null
  | some node =>
    match (nodeFaults node).first with
    | some fault => .error fault
    | none => return dataOf node

end TagTemplate.Yaml
