import TextAdventure.Object.Document
import TextAdventure.Object.Link

/-!
# Adventures

An adventure holds its objects in the order of their registration, never removes one, and keeps
indexes of its rooms, items and verbs and of the rooms by identifier. Objects receive identifiers in
one step: either all that lack one get one, or nothing changes.
-/

namespace TextAdventure

/-- What is wrong with a reference. -/
inductive ReferenceFault where
  /-- No room was declared as the start. -/
  | noStart
  /-- The room declared as the start is an object of another kind. -/
  | startNotRoom (target : Handle) (kind : String)
  /-- The room declared as the start is not registered. -/
  | startUnregistered (target : Handle)
  /-- The object is not registered. -/
  | unregistered (target : Handle)
  /-- The object that should fill a role is not registered. -/
  | missing (role : Role) (target : Handle)
  /-- The object that should fill a role is of another kind. -/
  | wrongKind (role : Role) (target : Handle) (found : Kind)
  /-- The identifier belongs to another object, or to the adventure itself. -/
  | duplicateId (id : ObjectId) (owner : Option Handle)
  /-- The object is not registered or has no identifier. -/
  | unresolved (target : Handle)

/-- A faulty reference, with the object it was found in; `none` stands for the adventure itself. -/
structure ReferenceError where
  source : Option Handle
  fault : ReferenceFault

/-- A handle as it is shown in reasons. -/
def Handle.print (h : Handle) : String := "#" ++ Numeral.print h.index

/-- A handle as it is shown at the head of messages. -/
def Handle.label (h : Handle) : String := "Handle(" ++ Numeral.print h.index ++ ")"

/-- An identifier in decimal. -/
def ObjectId.print (id : ObjectId) : String := Numeral.print id.val.toNat

/-- A kind in words. -/
def Kind.describe : Kind → String
  | .custom name => "custom \"" ++ name ++ "\" object"
  | kind => kind.name

/-- The fault in words. -/
def ReferenceFault.reason : ReferenceFault → String
  | .noStart => "no starting room declared"
  | .startNotRoom target kind =>
    "starting room " ++ target.print ++ " is a " ++ kind ++ ", not a room"
  | .startUnregistered target => "starting room " ++ target.print ++ " is not registered"
  | .unregistered target => target.print ++ " is not part of the adventure"
  | .missing role target => role.name ++ " " ++ target.print ++ " is not part of the adventure"
  | .wrongKind role target found =>
    role.name ++ " " ++ target.print ++ " is a " ++ found.describe ++ ", expected "
      ++ role.expected.name
  | .duplicateId id none => "ID " ++ id.print ++ " is already used by the adventure"
  | .duplicateId id (some owner) => "ID " ++ id.print ++ " is already used by " ++ owner.print
  | .unresolved target => target.print ++ " has no ID or is not part of the adventure"

/-- The whole message. -/
def ReferenceError.message (e : ReferenceError) : String :=
  "invalid reference from " ++ (match e.source with
    | none => "None"
    | some h => "Some(" ++ h.label ++ ")") ++ ": " ++ e.fault.reason

/-- An adventure: its own fields, its objects and their indexes. -/
structure Adventure where
  name : String
  /-- Shown when the game starts. -/
  startingText : String := ""
  /-- The compiler versions that may compile the adventure. -/
  supported : VersionRange
  /-- Properties of the adventure itself, which do not enter artifacts. -/
  properties : Properties := {}
  id : Option ObjectId := none
  /-- The room in which the player starts. -/
  start : Option Handle := none
  /-- The objects, in the order of their registration. -/
  objects : List GameObject := []
  /-- The handles of the rooms, ascending. -/
  rooms : List Handle := []
  /-- The handles of the items, ascending. -/
  items : List Handle := []
  /-- The handles of the verbs, ascending. -/
  verbs : List Handle := []
  /-- The rooms by identifier; of several rooms with one identifier, the first one indexed. -/
  roomsById : SortedMap ObjectId Handle := {}

namespace Adventure

/-! ## Objects -/

/-- The object behind a handle. -/
def object? (a : Adventure) (h : Handle) : Option GameObject := a.objects[h.index]?

/-- The identifier of the object behind a handle. -/
def idOf? (a : Adventure) (h : Handle) : Option ObjectId := (a.object? h).bind GameObject.id

/-- The objects with their handles. -/
def handled (a : Adventure) : List (Handle × GameObject) :=
  a.objects.zipIdx.map fun (o, i) => (⟨i⟩, o)

/-- Enters an object into the index of rooms by identifier, if it is a room that has one. -/
def indexRoom (rooms : SortedMap ObjectId Handle) (h : Handle) (o : GameObject) :
    SortedMap ObjectId Handle :=
  match o.kind, o.id with
  | .room _, some id => rooms.insertIfNew id h
  | _, _ => rooms

/-- Appends a handle to an index if its object belongs there. -/
def appendIf (belongs : Bool) (index : List Handle) (h : Handle) : List Handle :=
  if belongs then index ++ [h] else index

/-- Adds an object and returns its handle. -/
def register (a : Adventure) (o : GameObject) : Handle × Adventure :=
  let h : Handle := ⟨a.objects.length⟩
  (h, { a with
    objects := a.objects ++ [o]
    rooms := appendIf o.kind.isRoom a.rooms h
    items := appendIf o.kind.isItem a.items h
    verbs := appendIf o.kind.isVerb a.verbs h
    roomsById := indexRoom a.roomsById h o })

/-- Changes the object behind a handle in place. The indexes stay as they are, so the change must
keep the kind and the identifier. -/
def modify (a : Adventure) (h : Handle) (change : GameObject → GameObject) : Adventure :=
  { a with objects := a.objects.modify h.index change }

/-- Finds a room by its identifier. -/
def roomById? (a : Adventure) (id : ObjectId) : Option Handle := a.roomsById.get? id

/-- Declares the room in which the player starts. -/
def setStart (a : Adventure) (h : Handle) : Except ReferenceError Adventure :=
  match a.object? h with
  | none => .error ⟨none, .startUnregistered h⟩
  | some o =>
    match o.kind with
    | .room _ => .ok { a with start := some h }
    | kind => .error ⟨none, .startNotRoom h kind.name⟩

/-! ## Identifiers -/

/-- How many identifiers are missing, that of the adventure included. -/
def missingIds (a : Adventure) : Nat :=
  (if a.id.isNone then 1 else 0) + a.objects.countP fun o => o.id.isNone

/-- Gives identifiers to the objects that have none, in order. -/
def fillIds : List ObjectId → List GameObject → List GameObject
  | _, [] => []
  | ids, o :: rest =>
    match o.id, ids with
    | none, id :: ids => { o with id := some id } :: fillIds ids rest
    | _, ids => o :: fillIds ids rest

/-- Gives an identifier to the adventure and then to every object that lacks one. Returns how many
were handed out, or nothing if the supply cannot give so many. -/
def assignIds (a : Adventure) (supply : IdSupply) : Option (Nat × Adventure × IdSupply) := do
  let (block, supply) ← supply.takeBlock a.missingIds
  let (id, ids) := match a.id, block.ids with
    | none, id :: ids => (some id, ids)
    | id, ids => (id, ids)
  let assigned := { a with id, objects := fillIds ids a.objects }
  return (a.missingIds,
    { assigned with
      roomsById := assigned.handled.foldl (fun rooms (h, o) => indexRoom rooms h o) a.roomsById },
    supply)

/-! ## Content -/

/-- The content of an adventure's own fields. -/
def content (a : Adventure) : Json :=
  Json.ofMembers
    [("name", Json.ofString a.name),
      ("starting_text", Json.ofString a.startingText),
      ("supported_versions", a.supported.document),
      ("properties", a.properties.document)]

/-- The hash of an adventure's own fields, in hexadecimal. -/
def fingerprint (a : Adventure) : String :=
  Hex.ofBytes (Sha512.digest (Utf8.encode a.content.chars))

end Adventure

end TextAdventure
