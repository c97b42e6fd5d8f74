import TagTemplate.Console
import TagTemplate.Host.Value
import TagTemplate.Markup.Diagnostic
import TagTemplate.Text.Case

/-!
# How a rendering ends without output

Template errors have a wording of their own. Errors of host code and of the file system pass
through. A rendering that nests without end uses up its budget.
-/

namespace TagTemplate

inductive FileFault where
  | notFound
  | isDirectory
  | notDirectory
  | alreadyExists
  | badName
  | unwritableName
  | nameTooLong
  | undecodable
  | unmarked
  | unknownEncoding
  deriving DecidableEq, Repr

/-- Why a document cannot be read: it has no meaning at all, or a value that it writes is none. -/
inductive DocumentFault where
  | malformed
  | notValue
  | tooLarge
  | unknownWord
  | missingDigits
  | notDate
  deriving DecidableEq, Repr

/-- An error that ends a rendering. -/
inductive Fault where
  | compile (error : Markup.CompileError)
  | resolution (kind : String) (name : String)
  | nesting (depth : Int) (tag : String)
  | raised (kind : HostErrorKind) (message : String)
  | badCall
  | badNumber
  | file (fault : FileFault)
  | document (fault : DocumentFault)
  | report (fault : Console.MarkupFault)
  | unwritable
  | exhausted
  deriving DecidableEq, Repr

/-- An error of the program, which host code can raise and catch. The end of a budget is none, and
what is written to the console or to a file is not written by a page. -/
def Fault.isCatchable : Fault → Bool
  | .report _ | .unwritable | .exhausted => false
  | _ => true

def resolutionMessage (kind name : String) : String :=
  String.ofList (Text.capitalize kind.toList) ++ " not found: " ++ name

def nestingMessage (depth : Int) (tag : String) : String :=
  "Maximum template nesting depth (" ++ toString depth ++ ") exceeded at <pop:" ++ tag ++ ">"

/-- The wording of an error. Those of the host program's own have none. -/
def Fault.message? : Fault → Option String
  | .compile error => some error.message
  | .resolution kind name => some (resolutionMessage kind name)
  | .nesting depth tag => some (nestingMessage depth tag)
  | .raised _ message => some message
  | _ => none

def Fault.isTemplateError : Fault → Bool
  | .compile _ | .resolution .. | .nesting .. => true
  | _ => false

end TagTemplate
