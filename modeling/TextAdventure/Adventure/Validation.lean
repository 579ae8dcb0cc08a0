import TextAdventure.Adventure.Basic

/-!
# Validation

An adventure is sound if its start is a room, every object that is named anywhere is registered and
fills its role, and no identifier is used twice. The first fault is reported: the start first, then
the adventure's properties, then object by object its identifier, its roles and all it names.
-/

namespace TextAdventure.Adventure

/-- Checks that an object is registered. -/
def checkRegistered (a : Adventure) (source : Option Handle) (target : Handle) :
    Except ReferenceError Unit :=
  match a.object? target with
  | some _ => .ok ()
  | none => .error ⟨source, .unregistered target⟩

/-- Checks that an object is registered and fills its role. -/
def checkLink (a : Adventure) (source : Option Handle) (link : Link) : Except ReferenceError Unit :=
  match a.object? link.target with
  | some o =>
    if link.role.expected.accepts o.kind then .ok ()
    else .error ⟨source, .wrongKind link.role link.target o.kind⟩
  | none => .error ⟨source, .missing link.role link.target⟩

/-- Checks that the start is declared and is a room. -/
def checkStart (a : Adventure) : Except ReferenceError Unit :=
  match a.start with
  | none => .error ⟨none, .noStart⟩
  | some start => a.checkLink none ⟨.startingRoom, start⟩

/-- The identifiers met so far, each with its owner; `none` owns that of the adventure. -/
abbrev Owners := List (ObjectId × Option Handle)

/-- Checks that the identifier of an object is free, and enters it. -/
def claimId (owners : Owners) (h : Handle) : Option ObjectId → Except ReferenceError Owners
  | none => .ok owners
  | some id =>
    match owners.lookup id with
    | some owner => .error ⟨some h, .duplicateId id owner⟩
    | none => .ok ((id, some h) :: owners)

/-- Checks objects one after the other. -/
def checkObjects (a : Adventure) : Owners → List (Handle × GameObject) → Except ReferenceError Unit
  | _, [] => .ok ()
  | owners, (h, o) :: rest => do
    let owners ← claimId owners h o.id
    o.kind.links.forM (a.checkLink (some h))
    o.references.forM (a.checkRegistered (some h))
    checkObjects a owners rest

/-- Checks a whole adventure. -/
def validate (a : Adventure) : Except ReferenceError Unit := do
  a.checkStart
  a.properties.references.forM (a.checkRegistered none)
  a.checkObjects (a.id.toList.map fun id => (id, none)) a.handled

end TextAdventure.Adventure
