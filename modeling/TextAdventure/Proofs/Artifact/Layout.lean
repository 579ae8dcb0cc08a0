import TextAdventure.Artifact.Decode
import TextAdventure.Proofs.Artifact.Tag
import TextAdventure.Proofs.Text.Utf8

/-!
# What is read is accounted for

An artifact is read from any bytes whatever, from those of a compiler or from others. If it can be
read, the bytes are those of the artifact as it was read (`decode_accounts`): every one of them
belongs to a tag that is due at its place or to the text, payload or property found there, and none
is left over. Only numbers, versions and ranges can be spelled in several ways, so the texts that
were found for them are given beside the artifact (`Spelling`).

Each reader takes from the front exactly the bytes of what it reads. For texts this rests on UTF-8
having one encoding for each text, and for properties on joining undoing splitting.
-/

namespace TextAdventure

/-! ## Spellings -/

/-- The texts of an artifact that stand for numbers, versions and ranges. -/
structure Spelling where
  compilerVersion : String
  runtimes : String
  startingRoom : String
  /-- The identifiers of the records, in order. -/
  ids : List String

/-- The texts are read as what the artifact holds. -/
structure Spelling.Reads (s : Spelling) (a : Artifact) : Prop where
  compilerVersion : Version.parse s.compilerVersion = .ok a.compilerVersion
  runtimes : VersionRange.parse s.runtimes = .ok a.runtimes
  startingRoom : Artifact.readId s.startingRoom = .ok a.startingRoom
  ids : List.Forall₂ (fun text (r : Record) => Artifact.readId text = .ok r.id) s.ids a.records

/-- The bytes of a record whose identifier is spelled in a given way. -/
def Record.bytesAs (r : Record) (id : String) : List UInt8 :=
  Field.bytes ⟨.id, Utf8.ofString id⟩ ++ Tag.kind.bytes ++ r.body.bytes
    ++ Field.bytes ⟨.properties, pairsPayload r.properties⟩ ++ Tag.recordEnd.bytes

/-- The bytes of records whose identifiers are spelled in given ways. -/
def recordsAs (ids : List String) (records : List Record) : List UInt8 :=
  (List.zipWith Record.bytesAs records ids).flatten

/-- The bytes of records are those of the first and then those of the others. -/
theorem recordsAs_cons (id : String) (ids : List String) (r : Record) (records : List Record) :
    recordsAs (id :: ids) (r :: records) = r.bytesAs id ++ recordsAs ids records := rfl

/-- The bytes of an artifact that is spelled in a given way. -/
def Artifact.bytesAs (a : Artifact) (s : Spelling) : List UInt8 :=
  magic ++ Utf8.ofString s.compilerVersion ++ Tag.versionEnd.bytes
    ++ Utf8.ofString s.runtimes ++ Tag.runtimesEnd.bytes
    ++ headerPart .startingRoom s.startingRoom ++ headerPart .adventureName a.name
    ++ headerPart .startingText a.startingText
    ++ Tag.lookupBegin.bytes ++ recordsAs s.ids a.records ++ Tag.lookupEnd.bytes

/-! ## Steps of the cursor -/

namespace Cursor

variable {c next : Cursor} {bytes : List UInt8} {t : Tag}

/-- What is taken stood in front. -/
theorem rest_of_take {n : Nat} (h : c.take n = .ok (bytes, next)) : c.rest = bytes ++ next.rest := by
  unfold take at h
  split at h
  · cases h
    exact (List.take_append_drop n c.rest).symm
  · cases h

/-- What is expected stood in front. -/
theorem rest_of_expectBytes (h : c.expectBytes bytes = .ok next) :
    c.rest = bytes ++ next.rest := by
  obtain ⟨⟨found, after⟩, htake, h⟩ := Steps.bind_eq_ok_iff.1 h
  dsimp only at h
  split at h
  next hfound =>
    cases h
    rw [rest_of_take htake, hfound]
  next => cases h

/-- The tag that is expected stood in front. -/
theorem rest_of_expect (h : c.expect t = .ok next) : c.rest = t.bytes ++ next.rest :=
  rest_of_expectBytes h

/-- What is read up to a tag stood in front of the tag. -/
theorem rest_of_readUntil (h : c.readUntil t = .ok (bytes, next)) :
    c.rest = bytes ++ (t.bytes ++ next.rest) := by
  unfold readUntil at h
  split at h
  next before after hcut =>
    cases h
    rw [Tag.eq_append_of_cut hcut, List.append_assoc]
  next => cases h

/-- The tag that is seen stands in front. -/
theorem rest_of_peek (h : c.peek = some t) : c.rest = t.bytes ++ (c.skip 2).rest := by
  unfold peek at h
  split at h
  next a b rest hrest =>
    cases h
    rw [skip, hrest]
    rfl
  next => cases h

end Cursor

namespace Artifact

variable {c next : Cursor}

/-! ## Payloads -/

/-- What is read as a text are the bytes of that text. -/
theorem eq_of_readText {payload : List UInt8} {text : String} (h : readText payload = .ok text) :
    payload = Utf8.ofString text := by
  unfold readText at h
  cases hdecode : Utf8.decode payload with
  | error fault =>
    rw [hdecode] at h
    cases h
  | ok found =>
    rw [hdecode] at h
    cases h
    exact (Utf8.ofString_of_decode hdecode).symm

/-- What is read as an entry is a key and a value with one tag between them. -/
theorem eq_of_readEntry {entry : List UInt8} {e : String × String} (h : readEntry entry = .ok e) :
    entry = entryBytes e := by
  unfold readEntry at h
  split at h
  next key value hsplit =>
    obtain ⟨k, hk, h⟩ := Steps.bind_eq_ok_iff.1 h
    obtain ⟨v, hv, h⟩ := Steps.bind_eq_ok_iff.1 h
    cases h
    rw [← Tag.set.join_split entry, hsplit, eq_of_readText hk, eq_of_readText hv]
    rfl
  next => cases h

/-- What is read as a mapping are its entries with separators between them. -/
theorem eq_of_readPairs {payload : List UInt8} {entries : List (String × String)}
    (h : readPairs payload = .ok entries) : payload = pairsPayload entries := by
  have hentries : List.Forall₂ (fun part e => part = entryBytes e) (Tag.separator.split payload)
      entries := (Steps.mapM_eq_ok_iff.1 h).imp fun _ _ => eq_of_readEntry
  have hsplit : Tag.separator.split payload = entries.map entryBytes := by
    rw [← List.forall₂_eq_eq_eq, List.forall₂_map_right_iff]
    exact hentries
  rw [pairsPayload, ← hsplit, Tag.join_split]

/-! ## Records -/

/-- A payload is read with the tag that ends it. -/
theorem rest_of_readPayload {tag : Tag} {payload : List UInt8}
    (h : readPayload c tag = .ok (payload, next)) :
    c.rest = payload ++ (Tag.fieldEnd.bytes ++ next.rest) := by
  unfold readPayload at h
  split at h
  · obtain ⟨⟨found, after⟩, htake, h⟩ := Steps.bind_eq_ok_iff.1 h
    obtain ⟨last, hend, h⟩ := Steps.bind_eq_ok_iff.1 h
    cases h
    rw [Cursor.rest_of_take htake, Cursor.rest_of_expect hend]
  · exact Cursor.rest_of_readUntil h

/-- Fields are read with the tag of the properties behind them. -/
theorem rest_of_readFields {fields : List Field} (h : readFields c = .ok (fields, next)) :
    c.rest = fields.flatMap Field.bytes ++ (Tag.properties.bytes ++ next.rest) := by
  fun_induction readFields c generalizing fields next with
  | case1 => cases h
  | case2 c hpeek =>
    cases h
    exact Cursor.rest_of_peek hpeek
  | case3 => cases h
  | case4 c tag hpeek _ payload after hpayload _ ih =>
    obtain ⟨⟨later, last⟩, hlater, h⟩ := Steps.map_eq_ok_iff.1 h
    cases h
    rw [Cursor.rest_of_peek hpeek, rest_of_readPayload hpayload, ih hlater, List.flatMap_cons]
    simp only [Field.bytes, List.append_assoc]

/-- A kind is recognised by its own marker only. -/
theorem marker_of_ofMarker? {t : Tag} {kind : RecordKind} (h : RecordKind.ofMarker? t = some kind) :
    kind.marker = t :=
  eq_of_beq (List.find?_some (p := fun kind : RecordKind => kind.marker == t) h)

/-- A body is read with the tag of the properties behind it. -/
theorem rest_of_readBody {body : Body} (h : readBody c = .ok (body, next)) :
    c.rest = body.bytes ++ (Tag.properties.bytes ++ next.rest) := by
  unfold readBody at h
  split at h
  next kind hkind =>
    obtain ⟨t, hpeek, hmarker⟩ := Option.bind_eq_some_iff.1 hkind
    obtain ⟨⟨fields, after⟩, hfields, h⟩ := Steps.bind_eq_ok_iff.1 h
    cases h
    rw [Cursor.rest_of_peek hpeek, rest_of_readFields hfields, Body.bytes,
      marker_of_ofMarker? hmarker, List.append_assoc]
  next =>
    obtain ⟨⟨bytes, after⟩, huntil, h⟩ := Steps.bind_eq_ok_iff.1 h
    obtain ⟨text, htext, h⟩ := Steps.bind_eq_ok_iff.1 h
    cases h
    rw [Cursor.rest_of_readUntil huntil, eq_of_readText htext, Body.bytes]

/-- A record is taken as it is spelled. -/
theorem rest_of_readRecord {r : Record} (h : readRecord c = .ok (r, next)) :
    ∃ text, readId text = .ok r.id ∧ c.rest = r.bytesAs text ++ next.rest := by
  simp only [readRecord, readRecordAfterId, Steps.bind_eq_ok_iff, Prod.exists] at h
  obtain ⟨c₁, hid, bytes, c₂, huntil, text, htext, id, hread, c₃, hkind, body, c₄, hbody, payload, c₅,
    hpayload, properties, hpairs, c₆, hend, h⟩ := h
  cases h
  refine ⟨text, hread, ?_⟩
  rw [Cursor.rest_of_expect hid, Cursor.rest_of_readUntil huntil, Cursor.rest_of_expect hkind,
    rest_of_readBody hbody, Cursor.rest_of_readUntil hpayload, Cursor.rest_of_expect hend,
    eq_of_readText htext, eq_of_readPairs hpairs]
  simp only [Record.bytesAs, Field.bytes, List.append_assoc]

/-! ## The whole -/

/-- Records are read with the tag that ends the lookup region. -/
theorem rest_of_readRecords {records : List Record} (h : readRecords c = .ok (records, next)) :
    ∃ ids, List.Forall₂ (fun text (r : Record) => readId text = .ok r.id) ids records ∧
      c.rest = recordsAs ids records ++ (Tag.lookupEnd.bytes ++ next.rest) := by
  fun_induction readRecords c generalizing records next with
  | case1 c hpeek =>
    cases h
    exact ⟨[], .nil, Cursor.rest_of_peek hpeek⟩
  | case2 => cases h
  | case3 c _ record after hrecord _ ih =>
    obtain ⟨⟨later, last⟩, hlater, h⟩ := Steps.map_eq_ok_iff.1 h
    cases h
    obtain ⟨text, htext, hfirst⟩ := rest_of_readRecord hrecord
    obtain ⟨ids, hids, hrest⟩ := ih hlater
    refine ⟨text :: ids, .cons htext hids, ?_⟩
    rw [hfirst, hrest, recordsAs_cons, List.append_assoc]

/-- A part of the header is read as it is written. -/
theorem rest_of_readHeaderPart {tag : Tag} {text : String}
    (h : readHeaderPart c tag = .ok (text, next)) : c.rest = headerPart tag text ++ next.rest := by
  simp only [readHeaderPart, Steps.bind_eq_ok_iff, Prod.exists] at h
  obtain ⟨c₁, htag, bytes, c₂, huntil, found, htext, h⟩ := h
  cases h
  rw [Cursor.rest_of_expect htag, Cursor.rest_of_readUntil huntil, eq_of_readText htext]
  simp only [headerPart, List.append_assoc]

/-- Bytes from which an artifact is read are the bytes of that artifact, with its numbers, versions
and ranges as they were spelled, and nothing more. -/
theorem decode_accounts {bytes : List UInt8} {a : Artifact} (h : decode bytes = .ok a) :
    ∃ s : Spelling, s.Reads a ∧ bytes = a.bytesAs s := by
  simp only [decode, Steps.bind_eq_ok_iff, Prod.exists] at h
  obtain ⟨c₁, hmagic, versionBytes, c₂, hversion, versionText, hversionText, version, hversionRead,
    runtimesBytes, c₃, hruntimes, runtimesText, hruntimesText, runtimes, hruntimesRead,
    startText, c₄, hstart, start, hstartRead, name, c₅, hname, startingText, c₆, hstartingText,
    c₇, hbegin, records, c₈, hrecords, h⟩ := h
  split at h
  next hempty =>
    cases h
    obtain ⟨ids, hids, hrest⟩ := rest_of_readRecords hrecords
    refine ⟨⟨versionText, runtimesText, startText, ids⟩,
      ⟨hversionRead, hruntimesRead, hstartRead, hids⟩, ?_⟩
    have hbytes : bytes = magic ++ c₁.rest := Cursor.rest_of_expectBytes hmagic
    rw [hbytes, Cursor.rest_of_readUntil hversion, Cursor.rest_of_readUntil hruntimes,
      rest_of_readHeaderPart hstart, rest_of_readHeaderPart hname,
      rest_of_readHeaderPart hstartingText, Cursor.rest_of_expect hbegin, hrest,
      List.isEmpty_iff.1 hempty, eq_of_readText hversionText, eq_of_readText hruntimesText]
    simp only [bytesAs, List.append_assoc, List.append_nil]
  next => cases h

/-- An artifact of two records: a code statement with a two-byte code that looks like the end of a
field, and a ready-made text. -/
def signpost : Artifact where
  compilerVersion := ⟨0, 1, 0⟩
  runtimes := .atLeast ⟨0, 1, 0⟩
  startingRoom := ⟨7⟩
  name := "Signpost"
  startingText := ""
  records := [
    { id := ⟨7⟩, body := .typed .code [⟨.codeKeyword, Tag.fieldEnd.bytes⟩], properties := [] },
    { id := ⟨8⟩, body := .rendered "Nach Süden", properties := [("lit", "yes"), ("height", "")] }]

/-- Signs and zeros that are not needed, and the mark of the versions left out. -/
def padded : Spelling := ⟨"0.+1.00", "00.1.0+", "+7", ["007", "+08"]⟩

/-- The signpost is read from bytes in which its numbers are padded. -/
theorem decode_signpost : decode (signpost.bytesAs padded) = .ok signpost :=
  Steps.eq_ok_of_toOption (by decide +kernel)

/-- The padded bytes of the signpost are not its own, and are accounted for by a spelling. -/
theorem signpost_accounts : decode (signpost.bytesAs padded) = .ok signpost ∧
    signpost.bytesAs padded ≠ signpost.bytes ∧
    ∃ s : Spelling, s.Reads signpost ∧ signpost.bytesAs padded = signpost.bytesAs s :=
  ⟨decode_signpost, by decide +kernel, decode_accounts decode_signpost⟩

end Artifact

end TextAdventure
