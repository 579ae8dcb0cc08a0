import TextAdventure.Object.Property
import TextAdventure.Object.Vocabulary
import TextAdventure.ObjectId

/-!
# Game objects

An object of an adventure has a kind with the fields that belong to it, properties, and perhaps a
rendering, a ready-made text that takes the place of the fields in an artifact. Objects refer to each
other by handles. An identifier is given to an object only when its adventure is compiled, or comes
with it from a document.
-/

namespace TextAdventure

/-- The texts that are shown for a room or an exit. -/
structure Descriptions where
  /-- Shown when the player comes for the first time. -/
  firstEntry : String := ""
  /-- Shown on later visits. -/
  usual : String := ""
  /-- Shown once an item has been picked up. -/
  whenPickedUp : SortedMap Handle String := {}
  /-- Further texts, by a key of the author's choice. -/
  custom : SortedMap String String := {}

/-- A place where the player can be. -/
structure Room where
  title : String
  descriptions : Descriptions := {}
  /-- The rooms next to this one. -/
  exits : SortedMap Direction Handle := {}
  /-- The description blocks of single exits. -/
  exitDescriptions : SortedMap Direction Handle := {}
  /-- The items that lie in the room, in order. -/
  items : List Handle := []

/-- A parameter of a verb. -/
structure Argument where
  type : ArgumentType
  name : String

/-- A statement of a verb. -/
structure Code where
  keyword : Keyword
  /-- The words that follow the keyword. -/
  arguments : List String := []
  /-- The statements inside this one. -/
  children : List Handle := []

/-- A command that the player can give. -/
structure Verb where
  name : String
  arguments : List Handle := []
  body : List Handle := []

/-- What an object is. -/
inductive Kind where
  | room (room : Room)
  | item (name : String)
  | descriptions (descriptions : Descriptions)
  | argument (argument : Argument)
  | code (code : Code)
  | verb (verb : Verb)
  /-- A kind of the author's own, which only a rendering can put into an artifact. -/
  | custom (name : String)

/-- An object of an adventure. -/
structure GameObject where
  id : Option ObjectId := none
  properties : Properties := {}
  rendering : Option String := none
  kind : Kind

namespace Descriptions

/-- The objects that a description block names. -/
def references (d : Descriptions) : List Handle := d.whenPickedUp.keys

end Descriptions

namespace Room

/-- The objects that a room names: items of its texts, neighbours, exit descriptions, items. -/
def references (r : Room) : List Handle :=
  r.descriptions.references ++ r.exits.values ++ r.exitDescriptions.values ++ r.items

end Room

namespace Kind

/-- The name of a kind. -/
def name : Kind → String
  | .room _ => "room"
  | .item _ => "item"
  | .descriptions _ => "descriptions"
  | .argument _ => "argument"
  | .code _ => "code"
  | .verb _ => "verb"
  | .custom name => name

/-- The objects that the fields of a kind name, in the order of the fields. -/
def references : Kind → List Handle
  | .room r => r.references
  | .descriptions d => d.references
  | .code c => c.children
  | .verb v => v.arguments ++ v.body
  | .item _ => []
  | .argument _ => []
  | .custom _ => []

/-- Whether the kind is a room. -/
def isRoom : Kind → Bool
  | .room _ => true
  | _ => false

/-- Whether the kind is an item. -/
def isItem : Kind → Bool
  | .item _ => true
  | _ => false

/-- Whether the kind is a verb. -/
def isVerb : Kind → Bool
  | .verb _ => true
  | _ => false

end Kind

namespace GameObject

/-- All objects that an object names, those of its properties last. -/
def references (o : GameObject) : List Handle :=
  o.kind.references ++ o.properties.references

end GameObject

end TextAdventure
