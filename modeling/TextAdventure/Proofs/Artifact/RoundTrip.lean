import TextAdventure.Artifact.Decode
import TextAdventure.Proofs.Artifact.Plain
import TextAdventure.Proofs.Steps

/-!
# Reading undoes writing for artifacts

The bytes of an artifact are read back as that artifact (`decode_bytes`), if its parts can be told
apart in them (`Artifact.Writable`): texts are plain, no field is opened by the tag of the
properties, the payload of a field does not hold the tag that ends it, and the two-byte codes are
two bytes long. Nothing is asked of the bytes of those codes, since they are taken by number.

Every reader is shown to take exactly the bytes of what it reads, whatever follows them. Where the
cursor then stands is left open: positions only enter messages.
-/

namespace TextAdventure

/-! ## What can be written -/

/-- A field whose payload ends where its bytes say. -/
structure Field.Writable (f : Field) : Prop where
  /-- The field is not taken for the properties. -/
  tag_ne : f.tag ≠ .properties
  /-- A code is two bytes long. -/
  fixed : Artifact.isFixed f.tag = true → f.payload.length = 2
  /-- Any other payload does not hold the end of a field. -/
  misses : Artifact.isFixed f.tag = false → Tag.fieldEnd.Misses f.payload

/-- A body that is plain text or consists of fields that can be written. -/
def Body.Writable : Body → Prop
  | .rendered text => Plain text
  | .typed _ fields => ∀ f ∈ fields, f.Writable

/-- Entries with plain keys and values. -/
def PlainEntries (entries : List (String × String)) : Prop :=
  ∀ e ∈ entries, Plain e.1 ∧ Plain e.2

/-- A record whose body can be written and whose properties are plain. -/
structure Record.Writable (r : Record) : Prop where
  body : r.body.Writable
  properties : PlainEntries r.properties

/-- An artifact whose texts are plain and whose records can be written. -/
structure Artifact.Writable (a : Artifact) : Prop where
  name : Plain a.name
  startingText : Plain a.startingText
  records : ∀ r ∈ a.records, r.Writable

/-! ## Payloads -/

/-- Plain entries do not hold the end of a field, nor any tag but those between and inside them. -/
theorem PlainEntries.misses {t : Tag} (hset : Tag.set ≠ t) (hseparator : Tag.separator ≠ t)
    {entries : List (String × String)} (h : PlainEntries entries) :
    t.Misses (pairsPayload entries) := by
  refine Tag.misses_join rfl hseparator fun part hpart => ?_
  obtain ⟨e, he, rfl⟩ := List.mem_map.1 hpart
  exact (Tag.misses_of_leadFree (h e he).1).append_tag rfl hset (Tag.misses_of_leadFree (h e he).2)

/-- A list of plain texts holds no tag but the separators. -/
theorem misses_listPayload {t : Tag} (hseparator : Tag.separator ≠ t) {texts : List String}
    (h : ∀ text ∈ texts, Plain text) : t.Misses (listPayload texts) := by
  refine Tag.misses_join rfl hseparator fun part hpart => ?_
  obtain ⟨text, htext, rfl⟩ := List.mem_map.1 hpart
  exact Tag.misses_of_leadFree (h text htext)

namespace Artifact

/-- The bytes of a text are read back. -/
theorem readText_ofString (text : String) : readText (Utf8.ofString text) = .ok text := by
  rw [readText, Utf8.decode_ofString]
  rfl

/-- An identifier in decimal is read back. -/
theorem readId_print (id : ObjectId) : readId id.print = .ok id := by
  rw [readId, ObjectId.print, Numeral.print, String.toList_ofList, Numeral.readWord_digits]

/-- A plain entry is split at its only inner tag. -/
theorem split_entryBytes {e : String × String} (hkey : Plain e.1) (hvalue : Plain e.2) :
    Tag.set.split (entryBytes e) = [Utf8.ofString e.1, Utf8.ofString e.2] := by
  have hparts : ∀ part ∈ [Utf8.ofString e.1, Utf8.ofString e.2], Tag.set.Absent part :=
    List.forall_mem_cons.2 ⟨Tag.absent_of_leadFree rfl hkey,
      List.forall_mem_singleton.2 (Tag.absent_of_leadFree rfl hvalue)⟩
  exact Tag.split_join (by decide) (by simp) hparts

/-- A plain entry is read back. -/
theorem readEntry_entryBytes {e : String × String} (hkey : Plain e.1) (hvalue : Plain e.2) :
    readEntry (entryBytes e) = .ok e := by
  rw [readEntry, split_entryBytes hkey hvalue]
  simp only [readText_ofString, Steps.ok_bind]
  rfl

/-- A plain entry does not hold the separator of entries. -/
theorem absent_entryBytes {e : String × String} (hkey : Plain e.1) (hvalue : Plain e.2) :
    Tag.separator.Absent (entryBytes e) := by
  have hright : Tag.separator.Absent (Utf8.ofString e.2) := Tag.absent_of_leadFree rfl hvalue
  rw [entryBytes, List.append_assoc]
  exact Tag.absent_leadFree_append rfl hkey (Tag.absent_tag_append rfl (by decide) rfl hright)

/-- A mapping is read back, an empty one included: an entry is never empty, since it holds a tag. -/
theorem readPairs_pairsPayload {entries : List (String × String)} (h : PlainEntries entries) :
    readPairs (pairsPayload entries) = .ok entries := by
  have hparts : entries.map entryBytes ≠ [[]] := by
    intro hnil
    obtain ⟨e, _, he⟩ := List.mem_map.1 (hnil ▸ List.mem_singleton_self ([] : List UInt8))
    simp [entryBytes, Tag.bytes] at he
  have hsplit : Tag.separator.split (pairsPayload entries) = entries.map entryBytes := by
    refine Tag.split_join (by decide) hparts fun part hpart => ?_
    obtain ⟨e, he, rfl⟩ := List.mem_map.1 hpart
    exact absent_entryBytes (h e he).1 (h e he).2
  rw [readPairs, hsplit]
  exact Steps.mapM_map_eq_ok fun e he => readEntry_entryBytes (h e he).1 (h e he).2

end Artifact

/-! ## Steps of the cursor -/

namespace Cursor

variable (position : Nat) (rest : List UInt8)

/-- Given bytes are taken if they come next. -/
theorem expectBytes_append (bytes : List UInt8) :
    expectBytes ⟨position, bytes ++ rest⟩ bytes = .ok ⟨position + bytes.length, rest⟩ := by
  simp [expectBytes, take, skip]

/-- A given tag is taken if it comes next. -/
theorem expect_append (t : Tag) :
    expect ⟨position, t.bytes ++ rest⟩ t = .ok ⟨position + 2, rest⟩ :=
  expectBytes_append position rest t.bytes

/-- Everything up to a tag is taken. -/
theorem readUntil_append {t : Tag} (ht : isLead t.lead = true) {before : List UInt8}
    (h : t.Misses before) : readUntil ⟨position, before ++ (t.bytes ++ rest)⟩ t =
      .ok (before, ⟨position + before.length + 2, rest⟩) := by
  rw [readUntil, Tag.cut_append ht rest h]

/-- A text up to a tag is taken. -/
theorem readUntil_plain {t : Tag} (ht : isLead t.lead = true) {text : String} (h : Plain text) :
    readUntil ⟨position, Utf8.ofString text ++ (t.bytes ++ rest)⟩ t =
      .ok (Utf8.ofString text, ⟨position + (Utf8.ofString text).length + 2, rest⟩) :=
  readUntil_append position rest ht (Tag.misses_of_leadFree h)

end Cursor

namespace Artifact

variable (position : Nat) (rest : List UInt8)

/-! ## Records -/

/-- The payload of a field and its end are taken. -/
theorem exists_readPayload {f : Field} (h : f.Writable) :
    ∃ last, readPayload ⟨position, f.payload ++ (Tag.fieldEnd.bytes ++ rest)⟩ f.tag =
      .ok (f.payload, ⟨last, rest⟩) := by
  unfold readPayload
  cases hfixed : isFixed f.tag with
  | true =>
    have htake : Cursor.take ⟨position, f.payload ++ (Tag.fieldEnd.bytes ++ rest)⟩ 2 =
        .ok (f.payload, ⟨position + 2, Tag.fieldEnd.bytes ++ rest⟩) := by
      rw [← h.fixed hfixed]
      simp [Cursor.take, Cursor.skip]
    refine ⟨position + 2 + 2, ?_⟩
    rw [if_pos rfl, htake, Steps.ok_bind]
    simp only [Cursor.expect_append, Steps.ok_bind]
    rfl
  | false =>
    refine ⟨position + f.payload.length + 2, ?_⟩
    rw [if_neg (by decide), Cursor.readUntil_append position rest rfl (h.misses hfixed)]

/-- Fields and the tag that opens the properties are taken. -/
theorem exists_readFields : ∀ (fields : List Field) (position : Nat),
    (∀ f ∈ fields, f.Writable) →
    ∃ last, readFields ⟨position, fields.flatMap Field.bytes ++ (Tag.properties.bytes ++ rest)⟩ =
      .ok (fields, ⟨last, rest⟩)
  | [], position, _ => by
      refine ⟨position + 2, ?_⟩
      rw [readFields]
      rfl
  | f :: fields, position, h => by
      obtain ⟨hf, hfields⟩ := List.forall_mem_cons.1 h
      obtain ⟨next, hnext⟩ := exists_readPayload (position + 2)
        (fields.flatMap Field.bytes ++ (Tag.properties.bytes ++ rest)) hf
      obtain ⟨last, hlast⟩ := exists_readFields fields next hfields
      refine ⟨last, ?_⟩
      have hbytes : (f :: fields).flatMap Field.bytes ++ (Tag.properties.bytes ++ rest) =
          f.tag.lead :: f.tag.code :: (f.payload ++ (Tag.fieldEnd.bytes
            ++ (fields.flatMap Field.bytes ++ (Tag.properties.bytes ++ rest)))) := by
        simp [Field.bytes, Tag.bytes]
      rw [hbytes, readFields]
      simp only [Cursor.peek]
      rw [if_neg hf.tag_ne]
      split
      next e he => cases he.symm.trans hnext
      next payload c hc =>
        cases hc.symm.trans hnext
        rw [hlast]
        rfl

/-- The marker of a kind is recognised. -/
theorem ofMarker?_marker (kind : RecordKind) : RecordKind.ofMarker? kind.marker = some kind := by
  cases kind <;> decide

/-- Bytes that do not start with the lead of the markers mark no kind. -/
theorem ofMarker?_eq_none {t : Tag} (h : t.lead ≠ 1) : RecordKind.ofMarker? t = none := by
  refine List.find?_eq_none.2 fun kind _ hkind => h ?_
  rw [← eq_of_beq hkind]
  cases kind <;> rfl

/-- A plain text in front of the properties is not taken for the marker of a kind, not even an empty
one or one of a single byte, which leave tag bytes in the cursor's view. -/
theorem peek_plain {text : String} (h : Plain text) :
    (Cursor.peek ⟨position, Utf8.ofString text ++ (Tag.properties.bytes ++ rest)⟩).bind
      RecordKind.ofMarker? = none := by
  have hfirst : ∀ b ∈ Utf8.ofString text, b ≠ 1 := by
    rintro b hb rfl
    cases h 1 hb
  match hbytes : Utf8.ofString text with
  | [] => rfl
  | [b] => exact ofMarker?_eq_none (hfirst b (by simp [hbytes]))
  | b :: c :: bytes => exact ofMarker?_eq_none (hfirst b (by simp [hbytes]))

/-- A body and the tag that opens the properties are taken. -/
theorem exists_readBody : ∀ {body : Body}, body.Writable →
    ∃ last, readBody ⟨position, body.bytes ++ (Tag.properties.bytes ++ rest)⟩ =
      .ok (body, ⟨last, rest⟩)
  | .rendered text, h => by
      refine ⟨position + (Utf8.ofString text).length + 2, ?_⟩
      rw [readBody, Body.bytes, peek_plain position rest h]
      simp only [Cursor.readUntil_plain position rest (t := .properties) rfl h, Steps.ok_bind,
        readText_ofString]
      rfl
  | .typed kind fields, h => by
      obtain ⟨last, hlast⟩ := exists_readFields rest fields (position + 2) h
      refine ⟨last, ?_⟩
      have hpeek : Cursor.peek ⟨position, kind.marker.bytes ++ (fields.flatMap Field.bytes
          ++ (Tag.properties.bytes ++ rest))⟩ = some kind.marker := rfl
      have hskip : Cursor.skip ⟨position, kind.marker.bytes ++ (fields.flatMap Field.bytes
          ++ (Tag.properties.bytes ++ rest))⟩ 2 = ⟨position + 2, fields.flatMap Field.bytes
          ++ (Tag.properties.bytes ++ rest)⟩ := rfl
      rw [readBody, Body.bytes, List.append_assoc, hpeek, Option.bind_some, ofMarker?_marker]
      simp only [hskip, hlast, Steps.ok_bind]
      rfl

/-- What follows the identifier of a record is taken. -/
theorem exists_readRecordAfterId {r : Record} (h : r.Writable) :
    ∃ last, readRecordAfterId r.id ⟨position, Tag.kind.bytes ++ (r.body.bytes
      ++ (Field.bytes ⟨.properties, pairsPayload r.properties⟩ ++ (Tag.recordEnd.bytes ++ rest)))⟩ =
      .ok (r, ⟨last, rest⟩) := by
  have hmisses : Tag.fieldEnd.Misses (pairsPayload r.properties) :=
    h.properties.misses (by decide) (by decide)
  obtain ⟨next, hnext⟩ := exists_readBody (position + 2) (pairsPayload r.properties
    ++ (Tag.fieldEnd.bytes ++ (Tag.recordEnd.bytes ++ rest))) h.body
  refine ⟨next + (pairsPayload r.properties).length + 2 + 2, ?_⟩
  rw [readRecordAfterId, Cursor.expect_append, Steps.ok_bind]
  simp only [Field.bytes, List.append_assoc] at hnext ⊢
  simp only [hnext, Steps.ok_bind, Cursor.readUntil_append next _ (t := .fieldEnd) rfl hmisses,
    readPairs_pairsPayload h.properties, Cursor.expect_append]
  rfl

/-- A record is taken. -/
theorem exists_readRecord {r : Record} (h : r.Writable) :
    ∃ last, readRecord ⟨position, r.bytes ++ rest⟩ = .ok (r, ⟨last, rest⟩) := by
  obtain ⟨last, hlast⟩ := exists_readRecordAfterId
    (position + 2 + (Utf8.ofString r.id.print).length + 2) rest h
  refine ⟨last, ?_⟩
  have hbytes : r.bytes ++ rest = Tag.id.bytes ++ (Utf8.ofString r.id.print
      ++ (Tag.fieldEnd.bytes ++ (Tag.kind.bytes ++ (r.body.bytes
      ++ (Field.bytes ⟨.properties, pairsPayload r.properties⟩
      ++ (Tag.recordEnd.bytes ++ rest)))))) := by
    simp [Record.bytes, Field.bytes]
  rw [hbytes, readRecord, Cursor.expect_append, Steps.ok_bind]
  simp only [Cursor.readUntil_plain _ _ (t := .fieldEnd) rfl r.id.plain_print, Steps.ok_bind,
    readText_ofString, readId_print, hlast]

/-! ## The whole -/

/-- Records and the closing tag are taken. -/
theorem exists_readRecords : ∀ (records : List Record) (position : Nat),
    (∀ r ∈ records, r.Writable) →
    ∃ last, readRecords ⟨position, records.flatMap Record.bytes ++ Tag.lookupEnd.bytes⟩ =
      .ok (records, ⟨last, []⟩)
  | [], position, _ => by
      refine ⟨position + 2, ?_⟩
      rw [readRecords]
      rfl
  | r :: records, position, h => by
      obtain ⟨hr, hrecords⟩ := List.forall_mem_cons.1 h
      obtain ⟨next, hnext⟩ := exists_readRecord position
        (records.flatMap Record.bytes ++ Tag.lookupEnd.bytes) hr
      obtain ⟨last, hlast⟩ := exists_readRecords records next hrecords
      refine ⟨last, ?_⟩
      have hpeek : Cursor.peek ⟨position, r.bytes ++ (records.flatMap Record.bytes
          ++ Tag.lookupEnd.bytes)⟩ ≠ some .lookupEnd := by
        change some Tag.id ≠ some Tag.lookupEnd
        decide
      rw [List.flatMap_cons, List.append_assoc, readRecords, if_neg hpeek]
      split
      next e he => cases he.symm.trans hnext
      next record c hc =>
        cases hc.symm.trans hnext
        rw [hlast]
        rfl

/-- A part of the header is taken. -/
theorem readHeaderPart_append (t : Tag) {text : String} (h : Plain text) :
    readHeaderPart ⟨position, headerPart t text ++ rest⟩ t =
      .ok (text, ⟨position + 2 + (Utf8.ofString text).length + 2, rest⟩) := by
  rw [readHeaderPart, headerPart, List.append_assoc, List.append_assoc, Cursor.expect_append,
    Steps.ok_bind]
  simp only [Cursor.readUntil_plain _ _ (t := .recordEnd) rfl h, Steps.ok_bind, readText_ofString]
  rfl

/-- The bytes of an artifact whose parts can be told apart are read back as that artifact. -/
theorem decode_bytes {a : Artifact} (h : a.Writable) : decode a.bytes = .ok a := by
  have hbytes : a.bytes = magic ++ (Utf8.ofString a.compilerVersion.print
      ++ (Tag.versionEnd.bytes ++ (Utf8.ofString a.runtimes.print ++ (Tag.runtimesEnd.bytes
      ++ (headerPart .startingRoom a.startingRoom.print ++ (headerPart .adventureName a.name
      ++ (headerPart .startingText a.startingText ++ (Tag.lookupBegin.bytes
      ++ (a.records.flatMap Record.bytes ++ Tag.lookupEnd.bytes))))))))) := by
    simp only [bytes, headerBytes, List.append_assoc]
  rw [hbytes, decode, Cursor.expectBytes_append, Steps.ok_bind]
  simp only [Cursor.readUntil_plain _ _ (t := .versionEnd) rfl a.compilerVersion.plain_print,
    Cursor.readUntil_plain _ _ (t := .runtimesEnd) rfl a.runtimes.plain_print, Steps.ok_bind,
    readText_ofString, Version.parse_print, VersionRange.parse_print,
    readHeaderPart_append _ _ .startingRoom a.startingRoom.plain_print, readId_print,
    readHeaderPart_append _ _ .adventureName h.name,
    readHeaderPart_append _ _ .startingText h.startingText, Cursor.expect_append]
  obtain ⟨last, hlast⟩ := exists_readRecords a.records _ h.records
  rw [hlast]
  rfl

end Artifact

end TextAdventure
