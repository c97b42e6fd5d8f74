import TagTemplate.Console.Markup

/-!
# Streams

What is written to the standard streams when they are no terminals: sequences that set colours are
left out of plain text, and every log record takes a line with its level in front.
-/

namespace TagTemplate.Console

def afterSequence? (cs : List Char) : Option (List Char) :=
  match cs.dropWhile fun c => c.isDigit || c == ';' || c == '?' with
  | c :: rest => if c.isAlpha then some rest else none
  | [] => none

def dropSequences : Nat → List Char → List Char
  | 0, cs => cs
  | fuel + 1, cs =>
    match cs with
    | [] => []
    | '\x1b' :: '[' :: rest =>
      match afterSequence? rest with
      | some rest => dropSequences fuel rest
      | none => '\x1b' :: dropSequences fuel ('[' :: rest)
    | c :: rest => c :: dropSequences fuel rest

def plainText (s : String) : String := String.ofList (dropSequences s.length s.toList)

/-- How a level is shown. All levels take the same width. -/
def Level.text : Level → String
  | .info => "INFO     "
  | .warning => "WARNING  "

/-- How a log record is shown. Further lines of it are indented, and every line is filled up with
blanks at its end. -/
def logText (level : Level) (message : String) : String :=
  let shown := expandTabs 0 (message.toList.filter fun c => !isCursorControl c)
  let lines := (Text.pieces '\n' shown).map String.ofList
  let indented := (lines.drop 1).map ("         " ++ ·)
  String.join (((level.text ++ lines.headD "") :: indented).map (· ++ " \n"))

def unwrapped : Console := { print := fun report => (· ++ "\n") <$> render report, log := logText }

end TagTemplate.Console
