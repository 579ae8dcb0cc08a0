import TextAdventure.Script.Span

/-!
# Diagnostics

What is worth telling the author of a script: an error or a warning about a span, with an optional
label for the spot itself.
-/

namespace TextAdventure.Script

/-- How serious a problem is. -/
inductive Severity where
  /-- The script cannot be used as written. -/
  | error
  /-- The script is accepted and probably does not mean what it says. -/
  | warning
deriving DecidableEq

/-- A problem of a script. -/
structure Diagnostic where
  severity : Severity
  span : Span
  message : String
  /-- The text for the spot, if it differs from the message. -/
  label : Option String
deriving DecidableEq

namespace Diagnostic

/-- Whether the problem is an error. -/
def isError (d : Diagnostic) : Bool := d.severity = .error

/-- The problem in one line. -/
def describe (d : Diagnostic) : String :=
  match d.severity with
  | .error => "error: " ++ d.message
  | .warning => "warning: " ++ d.message

/-- A warning with a label for its spot. -/
def warning (span : Span) (message label : String) : Diagnostic :=
  ⟨.warning, span, message, some label⟩

end Diagnostic

/-- The number of errors among problems. -/
def errorCount (problems : List Diagnostic) : Nat := problems.countP Diagnostic.isError

/-- The number of warnings among problems. -/
def warningCount (problems : List Diagnostic) : Nat := problems.countP (!·.isError)

end TextAdventure.Script
