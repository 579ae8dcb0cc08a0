import TextAdventure.Adventure.Basic
import TextAdventure.Artifact.Tag

/-!
# Artifacts

A compiled adventure: a header and one record per object. Here are the parts of an artifact and the
bytes they are written as,

* the header: magic word, compiler version, range of runtimes, starting room, name, starting text;
* a record: identifier, then a marker of its kind with its fields or a ready-made text, then its
  properties;
* the whole: header, records between two tags, and nothing more.
-/

namespace TextAdventure

/-- What a record with fields describes. -/
inductive RecordKind where
  | room
  | descriptions
  | item
  | verb
  | argument
  | code
deriving DecidableEq

namespace RecordKind

/-- All kinds of records with fields. -/
def all : List RecordKind := [.room, .descriptions, .item, .verb, .argument, .code]

/-- The tag that marks the kind. -/
def marker : RecordKind → Tag
  | .room => .roomKind
  | .descriptions => .descriptionsKind
  | .item => .itemKind
  | .verb => .verbKind
  | .argument => .argumentKind
  | .code => .codeKind

/-- The kind that a tag marks. -/
def ofMarker? (t : Tag) : Option RecordKind := all.find? fun k => k.marker == t

/-- The name of the kind. -/
def name : RecordKind → String
  | .room => "room"
  | .descriptions => "descriptions"
  | .item => "item"
  | .verb => "verb"
  | .argument => "argument"
  | .code => "code"

end RecordKind

/-- A field of a record, with its payload as bytes. -/
structure Field where
  tag : Tag
  payload : List UInt8
deriving DecidableEq

/-- What a record says of its object beside the properties. -/
inductive Body where
  /-- A ready-made text. -/
  | rendered (text : String)
  /-- A kind and its fields, in file order. -/
  | typed (kind : RecordKind) (fields : List Field)
deriving DecidableEq

/-- The record of an object. -/
structure Record where
  id : ObjectId
  body : Body
  /-- The properties with their values as texts, in file order. -/
  properties : List (String × String)
deriving DecidableEq

/-- A compiled adventure. -/
structure Artifact where
  /-- The version of the compiler that made it. -/
  compilerVersion : Version
  /-- The runtimes that can load it. -/
  runtimes : VersionRange
  /-- The identifier of the room in which the player starts. -/
  startingRoom : ObjectId
  name : String
  startingText : String
  /-- The records, in file order. -/
  records : List Record
deriving DecidableEq

/-! ## Bytes -/

/-- The word at the start of every artifact, `ACLANG`. -/
def magic : List UInt8 := [0x41, 0x43, 0x4C, 0x41, 0x4E, 0x47]

/-- A list of texts as a payload. -/
def listPayload (texts : List String) : List UInt8 :=
  Tag.separator.join (texts.map Utf8.ofString)

/-- An entry of a mapping. -/
def entryBytes (entry : String × String) : List UInt8 :=
  Utf8.ofString entry.1 ++ Tag.set.bytes ++ Utf8.ofString entry.2

/-- A mapping as a payload. -/
def pairsPayload (entries : List (String × String)) : List UInt8 :=
  Tag.separator.join (entries.map entryBytes)

/-- The bytes of a field: tag, payload, end. -/
def Field.bytes (f : Field) : List UInt8 := f.tag.bytes ++ f.payload ++ Tag.fieldEnd.bytes

/-- The bytes of a body. -/
def Body.bytes : Body → List UInt8
  | .rendered text => Utf8.ofString text
  | .typed kind fields => kind.marker.bytes ++ fields.flatMap Field.bytes

/-- The bytes of a record. -/
def Record.bytes (r : Record) : List UInt8 :=
  Field.bytes ⟨.id, Utf8.ofString r.id.print⟩ ++ Tag.kind.bytes ++ r.body.bytes
    ++ Field.bytes ⟨.properties, pairsPayload r.properties⟩ ++ Tag.recordEnd.bytes

/-- A part of the header: tag, text, end. -/
def headerPart (tag : Tag) (text : String) : List UInt8 :=
  tag.bytes ++ Utf8.ofString text ++ Tag.recordEnd.bytes

/-- The bytes of the header. -/
def Artifact.headerBytes (a : Artifact) : List UInt8 :=
  magic ++ Utf8.ofString a.compilerVersion.print ++ Tag.versionEnd.bytes
    ++ Utf8.ofString a.runtimes.print ++ Tag.runtimesEnd.bytes
    ++ headerPart .startingRoom a.startingRoom.print ++ headerPart .adventureName a.name
    ++ headerPart .startingText a.startingText

/-- The bytes of an artifact. -/
def Artifact.bytes (a : Artifact) : List UInt8 :=
  a.headerBytes ++ Tag.lookupBegin.bytes ++ a.records.flatMap Record.bytes ++ Tag.lookupEnd.bytes

end TextAdventure
