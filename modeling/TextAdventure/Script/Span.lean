/-!
# Spans of a script

A span is a range of byte offsets into the UTF-8 form of a script, its end excluded.
-/

namespace TextAdventure.Script

/-- A range of byte offsets. -/
structure Span where
  /-- The offset of the first byte. -/
  start : Nat
  /-- The offset after the last byte. -/
  stop : Nat
deriving DecidableEq

/-- The span from the start of one span to the end of another. -/
def Span.through (first last : Span) : Span := ⟨first.start, last.stop⟩

end TextAdventure.Script
