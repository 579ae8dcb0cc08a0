import TextAdventure.Object.Basic

/-!
# Editing objects

An edit sets texts, puts entries into maps and appends to lists. It names the fields of all kinds of
objects; those that an object does not have are ignored. An edit keeps the kind of an object and its
identifier.
-/

namespace TextAdventure

/-- Changes to an object. What is not given stays as it is. -/
structure ObjectEdit where
  properties : List (String × PropertyValue) := []
  /-- The new rendering; `some none` takes the rendering away. -/
  rendering : Option (Option String) := none
  title : Option String := none
  name : Option String := none
  firstEntry : Option String := none
  usual : Option String := none
  pickedUp : List (Handle × String) := []
  custom : List (String × String) := []
  exits : List (Direction × Handle) := []
  exitDescriptions : List (Direction × Handle) := []
  /-- Items to append to those of a room. -/
  items : List Handle := []
  /-- Statements to append to those inside a statement. -/
  children : List Handle := []
  /-- Arguments to append to those of a verb. -/
  arguments : List Handle := []
  /-- Statements to append to those of a verb. -/
  body : List Handle := []

namespace ObjectEdit

/-- The edit of a description block. -/
def onDescriptions (e : ObjectEdit) (d : Descriptions) : Descriptions :=
  { firstEntry := e.firstEntry.getD d.firstEntry
    usual := e.usual.getD d.usual
    whenPickedUp := d.whenPickedUp.insertMany e.pickedUp
    custom := d.custom.insertMany e.custom }

/-- The edit of a kind. -/
def onKind (e : ObjectEdit) : Kind → Kind
  | .room r => .room
    { title := e.title.getD r.title
      descriptions := e.onDescriptions r.descriptions
      exits := r.exits.insertMany e.exits
      exitDescriptions := r.exitDescriptions.insertMany e.exitDescriptions
      items := r.items ++ e.items }
  | .descriptions d => .descriptions (e.onDescriptions d)
  | .code c => .code { c with children := c.children ++ e.children }
  | .verb v => .verb
    { name := e.name.getD v.name
      arguments := v.arguments ++ e.arguments
      body := v.body ++ e.body }
  | kind => kind

/-- The edit of an object. -/
def apply (e : ObjectEdit) (o : GameObject) : GameObject :=
  { o with
    properties := o.properties.insertMany e.properties
    rendering := e.rendering.getD o.rendering
    kind := e.onKind o.kind }

end ObjectEdit

end TextAdventure
