import TextAdventure.FormatError

/-!
# The closed vocabularies

Directions of exits, keywords of statements and types of verb arguments. Each has a code of one byte
in artifacts, its position in the list of all, and a name.
-/

namespace TextAdventure

/-! ## Directions -/

/-- The direction of an exit. -/
inductive Direction where
  | north
  | south
  | east
  | west
  | up
  | down
deriving DecidableEq

namespace Direction

/-- All directions, in the order of their codes. -/
def all : List Direction := [.north, .south, .east, .west, .up, .down]

/-- The code of a direction in artifacts. -/
def code : Direction → UInt8
  | .north => 0
  | .south => 1
  | .east => 2
  | .west => 3
  | .up => 4
  | .down => 5

/-- The direction that has a code. -/
def ofCode? (code : UInt8) : Option Direction := all.find? fun d => d.code == code

/-- The name of a direction. -/
def name : Direction → String
  | .north => "north"
  | .south => "south"
  | .east => "east"
  | .west => "west"
  | .up => "up"
  | .down => "down"

/-- The direction of exactly this name. -/
def ofName? (name : String) : Option Direction := all.find? fun d => d.name == name

/-- Reads the name of a direction in either case. Only ASCII letters need to be lowered: no other
character has a letter of these names as its lower case. -/
def parse (text : String) : Except FormatError Direction :=
  match ofName? (String.ofList (text.toList.map Char.toLower)) with
  | some d => .ok d
  | none => .error (.unknownDirection text)

instance : Ord Direction := ⟨fun a b => compare a.code b.code⟩

instance : Std.TransOrd Direction where
  eq_swap {a b} := by
    change compare a.code b.code = (compare b.code a.code).swap
    exact Std.OrientedCmp.eq_swap
  isLE_trans {a b c} h₁ h₂ := by
    change (compare a.code b.code).isLE at h₁
    change (compare b.code c.code).isLE at h₂
    change (compare a.code c.code).isLE
    exact Std.TransCmp.isLE_trans h₁ h₂

end Direction

/-! ## Keywords -/

/-- What a statement of a verb does. -/
inductive Keyword where
  /-- Runs its children on a condition. -/
  | cond
  /-- Shows a text to the player. -/
  | say
  /-- Ends the game in failure. -/
  | endFail
  /-- Ends the game in success. -/
  | endSuccess
  /-- Takes an item out of the world. -/
  | deleteItem
  /-- Puts an item into the world. -/
  | createItem
  /-- Moves the player to another room. -/
  | teleport
deriving DecidableEq

namespace Keyword

/-- All keywords, in the order of their codes. -/
def all : List Keyword :=
  [.cond, .say, .endFail, .endSuccess, .deleteItem, .createItem, .teleport]

/-- The code of a keyword in artifacts. -/
def code : Keyword → UInt8
  | .cond => 0
  | .say => 1
  | .endFail => 2
  | .endSuccess => 3
  | .deleteItem => 4
  | .createItem => 5
  | .teleport => 6

/-- The keyword that has a code. -/
def ofCode? (code : UInt8) : Option Keyword := all.find? fun k => k.code == code

/-- How a keyword is spelled in scripts. -/
def spelling : Keyword → String
  | .cond => "if"
  | .say => "say"
  | .endFail => "endfail"
  | .endSuccess => "endsuccess"
  | .deleteItem => "deleteitem"
  | .createItem => "createitem"
  | .teleport => "teleport"

/-- How a keyword is named in documents. -/
def name : Keyword → String
  | .cond => "if"
  | .say => "say"
  | .endFail => "end_fail"
  | .endSuccess => "end_success"
  | .deleteItem => "delete_item"
  | .createItem => "create_item"
  | .teleport => "teleport"

/-- The keyword that documents call by this name. -/
def ofName? (name : String) : Option Keyword := all.find? fun k => k.name == name

/-- Reads the spelling of a keyword. -/
def parse (text : String) : Except FormatError Keyword :=
  match all.find? fun k => k.spelling == text with
  | some k => .ok k
  | none => .error (.unknownKeyword text)

end Keyword

/-! ## Argument types -/

/-- What an argument of a verb accepts. -/
inductive ArgumentType where
  /-- An item in reach. -/
  | item
  /-- Any text. -/
  | string
  /-- A word without meaning of its own. -/
  | placeholder
  /-- A room. -/
  | room
  /-- A direction. -/
  | direction
deriving DecidableEq

namespace ArgumentType

/-- All argument types, in the order of their codes. -/
def all : List ArgumentType := [.item, .string, .placeholder, .room, .direction]

/-- The code of an argument type in artifacts. -/
def code : ArgumentType → UInt8
  | .item => 0
  | .string => 1
  | .placeholder => 2
  | .room => 3
  | .direction => 4

/-- The argument type that has a code. -/
def ofCode? (code : UInt8) : Option ArgumentType := all.find? fun t => t.code == code

/-- How an argument type is named in documents. -/
def name : ArgumentType → String
  | .item => "item"
  | .string => "string"
  | .placeholder => "placeholder"
  | .room => "room"
  | .direction => "direction"

/-- The argument type that documents call by this name. -/
def ofName? (name : String) : Option ArgumentType := all.find? fun t => t.name == name

/-- How an argument type is shown to a reader. -/
def label : ArgumentType → String
  | .item => "Item"
  | .string => "String"
  | .placeholder => "Placeholder"
  | .room => "Room"
  | .direction => "Direction"

end ArgumentType

end TextAdventure
