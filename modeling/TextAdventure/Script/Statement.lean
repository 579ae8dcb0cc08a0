import TextAdventure.Script.Token

/-!
# Statements of a script

A semicolon ends a statement. Comments and directives count as blanks, and the texts of a statement
are joined by one space where a blank stands between them and by nothing elsewhere. A statement
without text is dropped; blanks inside a literal stay.
-/

namespace TextAdventure.Script

/-- A statement, without the semicolon that ends it. -/
structure Statement where
  text : List Char
  /-- The place from the first to the last text of the statement. -/
  span : Span
deriving DecidableEq

/-- A statement that is being put together. -/
structure Draft where
  /-- The text so far. -/
  text : List Char
  /-- The place of the text so far, once there is one. -/
  span : Option Span
  /-- Whether a blank stands after the text so far. -/
  gap : Bool

namespace Draft

/-- The draft before the first token of a statement. -/
def empty : Draft := ⟨[], none, false⟩

/-- The draft after a blank. -/
def pause (d : Draft) : Draft := { d with gap := true }

/-- The draft after one more text. -/
def add (d : Draft) (text : List Char) (span : Span) : Draft where
  text := (if d.gap && !d.text.isEmpty then d.text ++ [' '] else d.text) ++ text
  span := match d.span with
    | some first => some (first.through span)
    | none => some span
  gap := false

/-- The statement that a draft has become, if it has text. -/
def finish (d : Draft) : List Statement :=
  match d.span with
  | some span => [⟨d.text, span⟩]
  | none => []

end Draft

/-- The statements of tokens that follow a draft. -/
def assemble (d : Draft) : List Token → List Statement
  | [] => d.finish
  | t :: rest =>
    match t.lexeme with
    | .semicolon => d.finish ++ assemble .empty rest
    | .literal text => assemble (d.add text t.span) rest
    | .plain text => assemble (d.add text t.span) rest
    | .blank | .lineComment | .blockComment | .directive .. => assemble d.pause rest

/-- The statements of a script. -/
def statements (source : List Char) : List Statement := assemble .empty (tokens source)

/-- The warning about a directive that stands among the tokens of a script. -/
def Token.leftover? (t : Token) : Option Diagnostic :=
  match t.lexeme with
  | .directive name _ =>
    some (.warning t.span ("directive `&" ++ String.ofList name ++ "` was not expanded")
      "removed before parsing")
  | _ => none

/-- The problems met on the way to the statements: the errors of the scan, then a warning for each
directive. -/
def scanProblems (source : List Char) : List Diagnostic :=
  (lexicalErrors source).map LexicalError.diagnostic ++ (tokens source).filterMap Token.leftover?

end TextAdventure.Script
