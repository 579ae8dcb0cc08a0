import TextAdventure.Compiler

/-!
# The sample adventure

An adventure of one room, which shows that compiling works.
-/

namespace TextAdventure.CommandLine

/-- The room of the sample adventure. -/
def sampleRoom : GameObject where
  kind := .room { title := "Test Room", descriptions := { usual := "Test" } }

/-- The sample adventure. -/
def sampleAdventure : Adventure :=
  let empty : Adventure :=
    { name := "test"
      startingText := "This is just a test game lol"
      supported := .atLeast ⟨0, 1, 0⟩ }
  let (room, adventure) := empty.register sampleRoom
  { adventure with start := some room }

end TextAdventure.CommandLine
