/-!
# Escaping

Text becomes markup by replacing the four characters that have a meaning there with entities: first
every ampersand, then both brackets and the double quotation mark.
-/

namespace TagTemplate.Html

def entities : List (Char × List Char) :=
  [('&', "&amp;".toList), ('<', "&lt;".toList), ('>', "&gt;".toList), ('"', "&quot;".toList)]

def replaceChar (c : Char) (entity : List Char) (cs : List Char) : List Char :=
  cs.flatMap fun x => if x = c then entity else [x]

def escapeChars (cs : List Char) : List Char :=
  entities.foldl (fun cs e => replaceChar e.1 e.2 cs) cs

def escape (s : String) : String := String.ofList (escapeChars s.toList)

end TagTemplate.Html
