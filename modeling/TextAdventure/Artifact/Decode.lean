import TextAdventure.Artifact.Basic
import TextAdventure.Steps

/-!
# Reading artifacts

An artifact is read from left to right by a cursor. Every step takes bytes off the front, so the two
loops, over the fields of a record and over the records, end with the bytes. What is read must be
accounted for completely: nothing may follow the closing tag.
-/

namespace TextAdventure

/-- A place in a byte string: how many bytes lie behind it, and those ahead. -/
structure Cursor where
  position : Nat
  rest : List UInt8

namespace Cursor

/-- Moves ahead, over at most the bytes there are. -/
def skip (c : Cursor) (n : Nat) : Cursor := ⟨c.position + n, c.rest.drop n⟩

/-- The next two bytes. -/
def peek (c : Cursor) : Option Tag :=
  match c.rest with
  | a :: b :: _ => some ⟨a, b⟩
  | _ => none

/-- Takes a number of bytes. -/
def take (c : Cursor) (n : Nat) : Except FormatError (List UInt8 × Cursor) :=
  if n ≤ c.rest.length then .ok (c.rest.take n, c.skip n) else .error (.truncated c.position)

/-- Takes bytes that are given. -/
def expectBytes (c : Cursor) (bytes : List UInt8) : Except FormatError Cursor := do
  let (found, next) ← c.take bytes.length
  if found = bytes then .ok next else .error (.expected bytes c.position)

/-- Takes a tag that is given. -/
def expect (c : Cursor) (tag : Tag) : Except FormatError Cursor := c.expectBytes tag.bytes

/-- Takes everything up to a tag and the tag itself. -/
def readUntil (c : Cursor) (tag : Tag) : Except FormatError (List UInt8 × Cursor) :=
  match tag.cut c.rest with
  | some (before, after) => .ok (before, ⟨c.position + before.length + 2, after⟩)
  | none => .error (.missingTag tag.bytes c.position)

/-! ## How much is taken -/

/-- Moving ahead leaves no more bytes. -/
theorem length_skip (c : Cursor) (n : Nat) : (c.skip n).rest.length = c.rest.length - n := by
  simp [skip]

/-- Taking bytes leaves fewer by their number. -/
theorem length_of_take {c next : Cursor} {n : Nat} {bytes : List UInt8}
    (h : c.take n = .ok (bytes, next)) : next.rest.length + n = c.rest.length := by
  unfold take at h
  split at h
  next hn =>
    cases h
    rw [length_skip]
    omega
  next => cases h

/-- Taking given bytes leaves fewer by their number. -/
theorem length_of_expectBytes {c next : Cursor} {bytes : List UInt8}
    (h : c.expectBytes bytes = .ok next) : next.rest.length + bytes.length = c.rest.length := by
  unfold expectBytes at h
  match ht : c.take bytes.length with
  | .error e =>
    rw [ht] at h
    cases h
  | .ok (found, after) =>
    rw [ht] at h
    change (if found = bytes then Except.ok after else _) = _ at h
    split at h
    · cases h
      exact length_of_take ht
    · cases h

/-- Taking a given tag leaves two bytes fewer. -/
theorem length_of_expect {c next : Cursor} {tag : Tag} (h : c.expect tag = .ok next) :
    next.rest.length + 2 = c.rest.length := length_of_expectBytes h

/-- Taking everything up to a tag leaves at least two bytes fewer. -/
theorem length_of_readUntil {c next : Cursor} {tag : Tag} {bytes : List UInt8}
    (h : c.readUntil tag = .ok (bytes, next)) : next.rest.length + 2 ≤ c.rest.length := by
  unfold readUntil at h
  split at h
  next before after hc =>
    cases h
    rw [Tag.eq_append_of_cut hc]
    simp [Tag.bytes]
  next => cases h

end Cursor

namespace Artifact

/-! ## Payloads -/

/-- A payload as a text. -/
def readText (payload : List UInt8) : Except FormatError String :=
  (Utf8.decode payload).mapError .notText

/-- A text as an identifier. -/
def readId (text : String) : Except FormatError ObjectId :=
  match Numeral.readWord text.toList with
  | .ok n => .ok ⟨n⟩
  | .error _ => .error (.badId text)

/-- An entry of a mapping: one key and one value. -/
def readEntry (entry : List UInt8) : Except FormatError (String × String) :=
  match Tag.set.split entry with
  | [key, value] => do return (← readText key, ← readText value)
  | _ => .error .badEntry

/-- A payload as a mapping. -/
def readPairs (payload : List UInt8) : Except FormatError (List (String × String)) :=
  (Tag.separator.split payload).mapM readEntry

/-! ## Records -/

/-- Whether the payload of a field is two bytes of any value. -/
def isFixed (tag : Tag) : Bool := tag == .codeKeyword || tag == .argumentType

/-- Reads the payload of a field and its end. -/
def readPayload (c : Cursor) (tag : Tag) : Except FormatError (List UInt8 × Cursor) :=
  if isFixed tag then do
    let (payload, c) ← c.take 2
    let c ← c.expect .fieldEnd
    return (payload, c)
  else
    c.readUntil .fieldEnd

/-- The payload of a field takes two bytes at least. -/
theorem length_of_readPayload {c next : Cursor} {tag : Tag} {payload : List UInt8}
    (h : readPayload c tag = .ok (payload, next)) : next.rest.length + 2 ≤ c.rest.length := by
  unfold readPayload at h
  split at h
  · match ht : c.take 2 with
    | .error e =>
      rw [ht] at h
      cases h
    | .ok (found, after) =>
      rw [ht] at h
      match he : after.expect .fieldEnd with
      | .error e =>
        change (after.expect .fieldEnd >>= fun c => pure (found, c)) = _ at h
        rw [he] at h
        cases h
      | .ok last =>
        change (after.expect .fieldEnd >>= fun c => pure (found, c)) = _ at h
        rw [he] at h
        cases h
        have h₁ := Cursor.length_of_take ht
        have h₂ := Cursor.length_of_expect he
        omega
  · exact Cursor.length_of_readUntil h

/-- After the tag and the payload of a field, fewer bytes are left. -/
theorem length_after_field {c next : Cursor} {tag : Tag} {payload : List UInt8}
    (h : readPayload (c.skip 2) tag = .ok (payload, next)) :
    next.rest.length < c.rest.length := by
  have h₁ := length_of_readPayload h
  rw [Cursor.length_skip] at h₁
  omega

/-- Reads fields until the properties, and the tag that opens these. -/
def readFields (c : Cursor) : Except FormatError (List Field × Cursor) :=
  match c.peek with
  | none => .error (.truncated c.position)
  | some tag =>
    if tag = .properties then
      .ok ([], c.skip 2)
    else
      match h : readPayload (c.skip 2) tag with
      | .error e => .error e
      | .ok (payload, next) =>
        have := length_after_field h
        (readFields next).map fun (fields, last) => (⟨tag, payload⟩ :: fields, last)
termination_by c.rest.length

/-- Reads the body of a record and the tag that opens the properties. -/
def readBody (c : Cursor) : Except FormatError (Body × Cursor) :=
  match c.peek.bind RecordKind.ofMarker? with
  | some kind => do
    let (fields, c) ← readFields (c.skip 2)
    return (.typed kind fields, c)
  | none => do
    let (text, c) ← c.readUntil .properties
    return (.rendered (← readText text), c)

/-- Reads what follows the identifier of a record. -/
def readRecordAfterId (id : ObjectId) (c : Cursor) : Except FormatError (Record × Cursor) := do
  let c ← c.expect .kind
  let (body, c) ← readBody c
  let (properties, c) ← c.readUntil .fieldEnd
  let properties ← readPairs properties
  let c ← c.expect .recordEnd
  return ({ id, body, properties }, c)

/-- Reads a record. -/
def readRecord (c : Cursor) : Except FormatError (Record × Cursor) := do
  let c ← c.expect .id
  let (id, c) ← c.readUntil .fieldEnd
  let id ← readId (← readText id)
  readRecordAfterId id c

/-! ## Records take bytes -/

/-- Fields take bytes. -/
theorem length_of_readFields {c next : Cursor} {fields : List Field}
    (h : readFields c = .ok (fields, next)) : next.rest.length ≤ c.rest.length := by
  fun_induction readFields c generalizing fields next with
  | case1 => cases h
  | case2 c =>
    cases h
    rw [Cursor.length_skip]
    omega
  | case3 => cases h
  | case4 c tag _ _ payload after _ hlt ih =>
    match hf : readFields after with
    | .error e =>
      rw [hf] at h
      cases h
    | .ok (rest, last) =>
      rw [hf] at h
      cases h
      have h₁ := ih hf
      omega

/-- A body takes bytes. -/
theorem length_of_readBody {c next : Cursor} {body : Body}
    (h : readBody c = .ok (body, next)) : next.rest.length ≤ c.rest.length := by
  unfold readBody at h
  split at h
  · obtain ⟨⟨fields, after⟩, hf, h⟩ := Steps.bind_eq_ok_iff.1 h
    cases h
    have h₁ := length_of_readFields hf
    rw [Cursor.length_skip] at h₁
    omega
  · obtain ⟨⟨text, after⟩, hr, h⟩ := Steps.bind_eq_ok_iff.1 h
    obtain ⟨text, _, h⟩ := Steps.bind_eq_ok_iff.1 h
    cases h
    have h₁ := Cursor.length_of_readUntil hr
    omega

/-- A record takes bytes. -/
theorem length_of_readRecord {c next : Cursor} {record : Record}
    (h : readRecord c = .ok (record, next)) : next.rest.length < c.rest.length := by
  obtain ⟨c₁, h₁, h⟩ := Steps.bind_eq_ok_iff.1 h
  obtain ⟨⟨_, c₂⟩, h₂, h⟩ := Steps.bind_eq_ok_iff.1 h
  obtain ⟨_, _, h⟩ := Steps.bind_eq_ok_iff.1 h
  obtain ⟨_, _, h⟩ := Steps.bind_eq_ok_iff.1 h
  obtain ⟨c₃, h₃, h⟩ := Steps.bind_eq_ok_iff.1 h
  obtain ⟨⟨_, c₄⟩, h₄, h⟩ := Steps.bind_eq_ok_iff.1 h
  obtain ⟨⟨_, c₅⟩, h₅, h⟩ := Steps.bind_eq_ok_iff.1 h
  obtain ⟨_, _, h⟩ := Steps.bind_eq_ok_iff.1 h
  obtain ⟨c₆, h₆, h⟩ := Steps.bind_eq_ok_iff.1 h
  cases h
  have := Cursor.length_of_expect h₁
  have := Cursor.length_of_readUntil h₂
  have := Cursor.length_of_expect h₃
  have := length_of_readBody h₄
  have := Cursor.length_of_readUntil h₅
  have := Cursor.length_of_expect h₆
  omega

/-! ## The whole -/

/-- Reads records up to the closing tag, and the tag itself. -/
def readRecords (c : Cursor) : Except FormatError (List Record × Cursor) :=
  if c.peek = some .lookupEnd then
    .ok ([], c.skip 2)
  else
    match h : readRecord c with
    | .error e => .error e
    | .ok (record, next) =>
      have := length_of_readRecord h
      (readRecords next).map fun (records, last) => (record :: records, last)
termination_by c.rest.length

/-- Reads a part of the header that follows a tag. -/
def readHeaderPart (c : Cursor) (tag : Tag) : Except FormatError (String × Cursor) := do
  let c ← c.expect tag
  let (text, c) ← c.readUntil .recordEnd
  return (← readText text, c)

/-- Reads an artifact. -/
def decode (bytes : List UInt8) : Except FormatError Artifact := do
  let c ← Cursor.expectBytes ⟨0, bytes⟩ magic
  let (version, c) ← c.readUntil .versionEnd
  let compilerVersion ← Version.parse (← readText version)
  let (runtimes, c) ← c.readUntil .runtimesEnd
  let runtimes ← VersionRange.parse (← readText runtimes)
  let (start, c) ← readHeaderPart c .startingRoom
  let startingRoom ← readId start
  let (name, c) ← readHeaderPart c .adventureName
  let (startingText, c) ← readHeaderPart c .startingText
  let c ← c.expect .lookupBegin
  let (records, c) ← readRecords c
  if c.rest.isEmpty then
    return { compilerVersion, runtimes, startingRoom, name, startingText, records }
  else
    .error (.trailing c.rest.length)

end Artifact

end TextAdventure
