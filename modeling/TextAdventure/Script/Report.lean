import TextAdventure.Script.Diagnostic
import TextAdventure.Text.Numeral

/-!
# Reports of problems

A report names each problem and says where it is, by line and column. The offsets of a span are taken
as character offsets here, and a place is named only if it lies inside the script.
-/

namespace TextAdventure.Script

/-- Whether a line ends after a character, given the text that follows. A carriage return before a
line feed does not end the line by itself. -/
def endsLine (c : Char) (rest : List Char) : Bool :=
  c ∈ ['\n', '\x0b', '\x0c', '\u0085', '\u2028', '\u2029'] || c = '\r' && rest.head? ≠ some '\n'

/-- A line and a column of a script, both counted from 1. -/
structure Position where
  line : Nat
  column : Nat
deriving DecidableEq

namespace Position

/-- The position after a character. The end of the last line opens no new one. -/
def after (p : Position) (c : Char) (rest : List Char) : Position :=
  if endsLine c rest && !rest.isEmpty then ⟨p.line + 1, 1⟩ else ⟨p.line, p.column + 1⟩

/-- The position that stands a number of characters after another. -/
def advance (p : Position) : List Char → Nat → Position
  | _, 0 => p
  | [], _ + 1 => p
  | c :: rest, n + 1 => advance (p.after c rest) rest n

/-- The position of a character offset in a script. -/
def ofOffset (source : List Char) (offset : Nat) : Position := advance ⟨1, 1⟩ source offset

/-- A position in a named file. -/
def print (p : Position) (filename : String) : String :=
  filename ++ ":" ++ Numeral.print p.line ++ ":" ++ Numeral.print p.column

end Position

/-- Whether a span, taken in characters, starts and ends inside a text of `size` characters. -/
def Span.inside (s : Span) (size : Nat) : Bool :=
  s.start ≤ size && (s.start ≥ s.stop || s.stop - 1 ≤ size)

namespace Diagnostic

/-- The first line of a problem's report. -/
def headline (d : Diagnostic) : String :=
  match d.severity with
  | .error => "Error: " ++ d.message
  | .warning => "Warning: " ++ d.message

/-- The lines of a problem's report: its headline and, if it is inside the script, its place. -/
def report (source : List Char) (filename : String) (d : Diagnostic) : List String :=
  if d.span.inside source.length then
    [d.headline, (Position.ofOffset source d.span.start).print filename]
  else
    [d.headline]

end Diagnostic

/-- The report of problems. -/
def report (source : List Char) (filename : String) (problems : List Diagnostic) : List String :=
  problems.flatMap (·.report source filename)

end TextAdventure.Script
