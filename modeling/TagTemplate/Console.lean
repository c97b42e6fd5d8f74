/-!
# Consoles

Reports and log records go to a console. A report is written in a markup language: what stands in
brackets switches a style on or off, and a backslash in front of the bracket keeps it as text. How
the report appears, in how many lines and with which characters for the names of emoji, is up to the
console. It may also refuse a report whose markup it does not understand.
-/

namespace TagTemplate

/-- Why a console refuses a report: a tag closes nothing, or a number in a tag is none. -/
inductive Console.MarkupFault where
  | unbalanced
  | notNumber
  deriving DecidableEq, Repr

inductive Console.Level where
  | info
  | warning
  deriving DecidableEq, Repr

/-- What is written to the standard streams for a report and for a log record. -/
structure Console where
  print (report : String) : Except Console.MarkupFault String
  log (level : Console.Level) (message : String) : String

end TagTemplate
