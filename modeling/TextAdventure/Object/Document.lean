import TextAdventure.Json.Basic
import TextAdventure.Object.Basic
import TextAdventure.Sha512
import TextAdventure.Text.Utf8
import TextAdventure.VersionRange

/-!
# Objects as documents

The document of an object has its fields in a fixed order and its maps in key order, so equal objects
have equal documents. The fingerprint of an object is the hash of its document without the
identifier.
-/

namespace TextAdventure

namespace PropertyValue

mutual

/-- The document of a value. A number that has no literal is null; an object is its bare handle. -/
def document : PropertyValue → Json
  | .text value => Json.ofString value
  | .integer value => Json.ofInt value.toInt
  | .float value =>
    match value.literal? with
    | some literal => .number literal
    | none => .null
  | .boolean value => .bool value
  | .list items => .array (documents items)
  | .object handle => Json.ofInt handle.index

/-- The documents of the values of a list. -/
def documents : List PropertyValue → List Json
  | [] => []
  | item :: items => item.document :: documents items

end

end PropertyValue

/-- The document of a handle. -/
def Handle.document (h : Handle) : Json := Json.ofInt h.index

/-- The document of a list of handles. -/
def Handle.documents (hs : List Handle) : Json := .array (hs.map Handle.document)

/-- The document of properties. -/
def Properties.document (properties : Properties) : Json :=
  Json.ofMembers (properties.entries.map fun (name, value) => (name, value.document))

/-- The document of exits. -/
def exitsDocument (exits : SortedMap Direction Handle) : Json :=
  Json.ofMembers (exits.entries.map fun (direction, handle) => (direction.name, handle.document))

/-- The document of a text that may be missing. -/
def optionalText : Option String → Json
  | none => .null
  | some text => Json.ofString text

/-- The document of a description block. -/
def Descriptions.document (d : Descriptions) : Json :=
  Json.ofMembers
    [("first_entry", Json.ofString d.firstEntry),
      ("default", Json.ofString d.usual),
      ("when_picked_up", Json.ofMembers (d.whenPickedUp.entries.map fun (handle, text) =>
        (Numeral.print handle.index, Json.ofString text))),
      ("custom", Json.ofMembers (d.custom.entries.map fun (key, text) => (key, Json.ofString text)))]

/-- The document of a room. -/
def Room.document (r : Room) : Json :=
  Json.ofMembers
    [("title", Json.ofString r.title),
      ("descriptions", r.descriptions.document),
      ("exits", exitsDocument r.exits),
      ("exit_descriptions", exitsDocument r.exitDescriptions),
      ("items", Handle.documents r.items)]

/-- The document of an argument. -/
def Argument.document (a : Argument) : Json :=
  Json.ofMembers [("kind", Json.ofString a.type.name), ("name", Json.ofString a.name)]

/-- The document of a statement. -/
def Code.document (c : Code) : Json :=
  Json.ofMembers
    [("keyword", Json.ofString c.keyword.name),
      ("arguments", .array (c.arguments.map Json.ofString)),
      ("children", Handle.documents c.children)]

/-- The document of a verb. -/
def Verb.document (v : Verb) : Json :=
  Json.ofMembers
    [("name", Json.ofString v.name),
      ("arguments", Handle.documents v.arguments),
      ("body", Handle.documents v.body)]

/-- The document of a kind: an object whose only member is named for the kind. -/
def Kind.document : Kind → Json
  | .room r => Json.ofMembers [("room", r.document)]
  | .item name => Json.ofMembers [("item", Json.ofMembers [("name", Json.ofString name)])]
  | .descriptions d => Json.ofMembers [("descriptions", d.document)]
  | .argument a => Json.ofMembers [("argument", a.document)]
  | .code c => Json.ofMembers [("code", c.document)]
  | .verb v => Json.ofMembers [("verb", v.document)]
  | .custom name => Json.ofMembers [("custom", Json.ofMembers [("kind", Json.ofString name)])]

namespace GameObject

/-- The document of an object. -/
def document (o : GameObject) : Json :=
  Json.ofMembers
    [("id", match o.id with
        | none => .null
        | some id => Json.ofInt id.val.toNat),
      ("properties", o.properties.document),
      ("rendering", optionalText o.rendering),
      ("kind", o.kind.document)]

/-- The content of an object: its document without the identifier. -/
def content (o : GameObject) : Json :=
  Json.ofMembers
    [("kind", o.kind.document),
      ("properties", o.properties.document),
      ("rendering", optionalText o.rendering)]

/-- The hash of an object's content, in hexadecimal. -/
def fingerprint (o : GameObject) : String :=
  Hex.ofBytes (Sha512.digest (Utf8.encode o.content.chars))

end GameObject

/-- The document of a version. -/
def Version.document (v : Version) : Json :=
  Json.ofMembers
    [("major", Json.ofInt v.major.toNat),
      ("minor", Json.ofInt v.minor.toNat),
      ("patch", Json.ofInt v.patch.toNat)]

/-- The document of a range of versions. -/
def VersionRange.document (r : VersionRange) : Json :=
  Json.ofMembers
    [("base", r.base.document),
      ("to", r.top.document),
      ("or_higher", .bool r.orHigher),
      ("or_lower", .bool r.orLower)]

end TextAdventure
