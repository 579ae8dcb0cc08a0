import TextAdventure.Artifact.Decode

/-!
# Access to the fields of a record

The payload of a field is read as what the field holds: a text, a list of texts or identifiers, a
mapping. A field that is missing counts as an empty list or mapping.
-/

namespace TextAdventure

namespace Record

/-- The fields of a record; a ready-made text has none. -/
def fields (r : Record) : List Field :=
  match r.body with
  | .rendered _ => []
  | .typed _ fields => fields

/-- The name of a record's kind; a ready-made text counts as a kind of its own. -/
def kindName (r : Record) : String :=
  match r.body with
  | .rendered _ => "rendered"
  | .typed kind _ => kind.name

/-- The ready-made text of a record. -/
def rendering? (r : Record) : Option String :=
  match r.body with
  | .rendered text => some text
  | .typed .. => none

/-- The payload of the first field with a tag. -/
def field? (r : Record) (tag : Tag) : Option (List UInt8) :=
  (r.fields.find? fun f => f.tag == tag).map Field.payload

/-- The payload of a field, if it is a text. -/
def text? (r : Record) (tag : Tag) : Option String :=
  (r.field? tag).bind fun payload => (Utf8.decode payload).toOption

/-- The elements of a list. -/
def list (r : Record) (tag : Tag) : Except FormatError (List String) :=
  (Tag.separator.split ((r.field? tag).getD [])).mapM Artifact.readText

/-- The entries of a mapping, in file order. -/
def pairs (r : Record) (tag : Tag) : Except FormatError (List (String × String)) :=
  Artifact.readPairs ((r.field? tag).getD [])

/-- The elements of a list of identifiers. -/
def ids (r : Record) (tag : Tag) : Except FormatError (List ObjectId) := do
  (← r.list tag).mapM Artifact.readId

/-- A direction, given by its code in decimal. -/
def readDirection (code : String) : Except FormatError Direction :=
  match Numeral.read UInt8.size code.toList with
  | .error _ => .error (.badDirectionCode code)
  | .ok n =>
    match Direction.ofCode? (UInt8.ofNat n) with
    | some direction => .ok direction
    | none => .error (.badDirectionCode code)

/-- A mapping from directions to identifiers. Of two entries for a direction the later one stays. -/
def directions (r : Record) (tag : Tag) : Except FormatError (SortedMap Direction ObjectId) := do
  let entries ← (← r.pairs tag).mapM fun (code, id) => do
    return (← readDirection code, ← Artifact.readId id)
  return SortedMap.ofList entries

/-- The keyword of a statement. -/
def keyword? (r : Record) : Option Keyword :=
  match r.field? .codeKeyword with
  | some [mark, code] => if mark = keywordMark then Keyword.ofCode? code else none
  | _ => none

/-- The type of an argument. -/
def argumentType? (r : Record) : Option ArgumentType :=
  match r.field? .argumentType with
  | some [mark, code] => if mark = argumentTypeMark then ArgumentType.ofCode? code else none
  | _ => none

end Record

/-- The first record with an identifier. -/
def Artifact.record? (a : Artifact) (id : ObjectId) : Option Record :=
  a.records.find? fun r => r.id == id

end TextAdventure
