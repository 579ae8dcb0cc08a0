import TextAdventure.Object.Basic

/-!
# What a reference must point at

Every field of an object that names another object gives it a role, and the role says of which kind
the other object must be. Objects of the author's own kinds fill no role, whatever their kind is
called. Properties give no role: they may name any object.
-/

namespace TextAdventure

/-- The part that an object plays for the one that names it. -/
inductive Role where
  | startingRoom
  | pickedUpText
  | exit
  | exitDescription
  | roomItem
  | codeChild
  | verbArgument
  | verbBody
deriving DecidableEq

/-- The kinds that a role can call for. -/
inductive Expected where
  | room
  | item
  | descriptions
  | argument
  | code
deriving DecidableEq

namespace Expected

/-- The name of the kind. -/
def name : Expected → String
  | .room => "room"
  | .item => "item"
  | .descriptions => "descriptions"
  | .argument => "argument"
  | .code => "code"

/-- Whether an object is of that kind. -/
def accepts : Expected → Kind → Bool
  | .room, .room _ => true
  | .item, .item _ => true
  | .descriptions, .descriptions _ => true
  | .argument, .argument _ => true
  | .code, .code _ => true
  | _, _ => false

end Expected

namespace Role

/-- The role in words. -/
def name : Role → String
  | .startingRoom => "starting room"
  | .pickedUpText => "picked-up text"
  | .exit => "exit"
  | .exitDescription => "exit description"
  | .roomItem => "room item"
  | .codeChild => "code child"
  | .verbArgument => "verb argument"
  | .verbBody => "verb body"

/-- The kind that the role calls for. -/
def expected : Role → Expected
  | .startingRoom => .room
  | .pickedUpText => .item
  | .exit => .room
  | .exitDescription => .descriptions
  | .roomItem => .item
  | .codeChild => .code
  | .verbArgument => .argument
  | .verbBody => .code

end Role

/-- A reference with its role. -/
structure Link where
  role : Role
  target : Handle

/-- Gives the same role to several objects. -/
def Role.links (role : Role) (targets : List Handle) : List Link := targets.map (Link.mk role)

/-- The references of a description block. -/
def Descriptions.links (d : Descriptions) : List Link := Role.pickedUpText.links d.whenPickedUp.keys

/-- The references of a kind, in the order of its fields. -/
def Kind.links : Kind → List Link
  | .room r =>
    r.descriptions.links ++ Role.exit.links r.exits.values
      ++ Role.exitDescription.links r.exitDescriptions.values ++ Role.roomItem.links r.items
  | .descriptions d => d.links
  | .code c => Role.codeChild.links c.children
  | .verb v => Role.verbArgument.links v.arguments ++ Role.verbBody.links v.body
  | .item _ => []
  | .argument _ => []
  | .custom _ => []

end TextAdventure
