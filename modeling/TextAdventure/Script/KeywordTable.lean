/-!
# Reserved words of a script

A statement is a command if its word is reserved. The table keeps its order for listings.
-/

namespace TextAdventure.Script

/-- The reserved words of a script, in order. -/
structure KeywordTable where
  words : List String

namespace KeywordTable

/-- Whether a word is reserved. -/
def contains (table : KeywordTable) (word : String) : Bool := table.words.contains word

/-- The reserved words that every adventure script has. -/
def standard : KeywordTable where
  words :=
    ["adventure", "room", "item", "verb", "argument", "descriptions", "exit", "look", "if", "say",
      "endfail", "endsuccess", "deleteitem", "createitem", "teleport"]

end KeywordTable

end TextAdventure.Script
