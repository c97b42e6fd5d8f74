/-!
# JSON values

Values with ordered members. A value whose text breaks off is kept as far as it was read:
`malformed` stands where reading stopped, as the last item of an array, under an empty name as the
last member of an object, or alone. It keeps the character with which the value that cannot be read
begins, or none where no value begins.
-/

namespace TagTemplate

inductive Json where
  | null
  | bool (b : Bool)
  | integer (n : Int)
  | fraction (text : String)
  | string (s : String)
  | array (items : List Json)
  | object (members : List (String × Json))
  | malformed (start : Option Char)
  deriving Inhabited

namespace Json

mutual

def complete : Json → Bool
  | .malformed _ => false
  | .array items => completeItems items
  | .object members => completeMembers members
  | _ => true

def completeItems : List Json → Bool
  | [] => true
  | v :: vs => v.complete && completeItems vs

def completeMembers : List (String × Json) → Bool
  | [] => true
  | (_, v) :: ms => v.complete && completeMembers ms

end

end Json

end TagTemplate
