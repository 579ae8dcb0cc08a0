import TextAdventure.Proofs.Artifact.Layout

/-!
# Artifacts end where they say

Bytes from which an artifact is read cannot be cut short and cannot be continued
(`decode_prefixFree`): of two byte strings that are both read, neither is a proper beginning of the
other.

The reason is that no reader looks past what it takes. A reader that succeeds reads the same from
longer bytes and leaves what was added in front of the next one, so the addition is carried through
to the end (`Cursor.extend`), where nothing may be left. A beginning that could be read would turn
the missing bytes into such an addition.
-/

namespace TextAdventure

/-! ## Steps of the cursor -/

namespace Cursor

/-- The same place in longer bytes. -/
def extend (c : Cursor) (extra : List UInt8) : Cursor := ⟨c.position, c.rest ++ extra⟩

variable {c next : Cursor} {bytes : List UInt8} {t : Tag} (extra : List UInt8)

/-- Skipping bytes that are there leaves what was added. -/
theorem skip_extend {n : Nat} (h : n ≤ c.rest.length) :
    (c.extend extra).skip n = (c.skip n).extend extra := by
  simp only [skip, extend, List.drop_append_of_le_length h]

/-- Taking bytes that are there leaves what was added. -/
theorem take_extend {n : Nat} (h : c.take n = .ok (bytes, next)) :
    (c.extend extra).take n = .ok (bytes, next.extend extra) := by
  unfold take at h ⊢
  split at h
  next hn =>
    cases h
    have hlonger : n ≤ (c.extend extra).rest.length := by
      rw [extend, List.length_append]
      omega
    rw [if_pos hlonger, skip_extend extra hn, extend, List.take_append_of_le_length hn]
  next => cases h

/-- Bytes that are met are met in longer bytes. -/
theorem expectBytes_extend (h : c.expectBytes bytes = .ok next) :
    (c.extend extra).expectBytes bytes = .ok (next.extend extra) := by
  obtain ⟨⟨found, after⟩, htake, h⟩ := Steps.bind_eq_ok_iff.1 h
  refine Steps.bind_eq_ok_iff.2 ⟨(found, after.extend extra), take_extend extra htake, ?_⟩
  dsimp only at h ⊢
  split at h
  next hfound =>
    cases h
    exact if_pos hfound
  next => cases h

/-- A tag that is met is met in longer bytes. -/
theorem expect_extend (h : c.expect t = .ok next) :
    (c.extend extra).expect t = .ok (next.extend extra) :=
  expectBytes_extend extra h

/-- What is read up to a tag is read up to the same tag in longer bytes. -/
theorem readUntil_extend (h : c.readUntil t = .ok (bytes, next)) :
    (c.extend extra).readUntil t = .ok (bytes, next.extend extra) := by
  unfold readUntil at h
  split at h
  next before after hcut =>
    cases h
    rw [readUntil, extend, Tag.cut_append_of_cut extra hcut]
    rfl
  next => cases h

/-- Where two bytes are left, the view ahead does not reach the addition. -/
theorem peek_extend (h : 2 ≤ c.rest.length) : (c.extend extra).peek = c.peek := by
  obtain ⟨position, rest⟩ := c
  match rest, h with
  | _ :: _ :: _, _ => rfl

/-- A tag is seen only if its two bytes are there. -/
theorem two_le_of_peek (h : c.peek = some t) : 2 ≤ c.rest.length := by
  rw [rest_of_peek h, List.length_append]
  exact Nat.le_add_right 2 _

end Cursor

namespace Artifact

variable {c next : Cursor} (extra : List UInt8)

/-! ## Records -/

/-- A payload is the same in longer bytes. -/
theorem readPayload_extend {tag : Tag} {payload : List UInt8}
    (h : readPayload c tag = .ok (payload, next)) :
    readPayload (c.extend extra) tag = .ok (payload, next.extend extra) := by
  unfold readPayload at h ⊢
  split at h
  next hfixed =>
    rw [if_pos hfixed]
    simp only [Steps.bind_eq_ok_iff, Prod.exists] at h ⊢
    obtain ⟨found, after, htake, last, hend, h⟩ := h
    cases h
    exact ⟨payload, _, Cursor.take_extend extra htake, _, Cursor.expect_extend extra hend, rfl⟩
  next hfree =>
    rw [if_neg hfree]
    exact Cursor.readUntil_extend extra h

/-- The tag of the properties ends the fields. -/
theorem readFields_of_properties (h : c.peek = some .properties) :
    readFields c = .ok ([], c.skip 2) := by
  rw [readFields, h]
  rfl

/-- A field in front is read first. -/
theorem readFields_of_readPayload {tag : Tag} {payload : List UInt8} (hpeek : c.peek = some tag)
    (hne : tag ≠ .properties) (h : readPayload (c.skip 2) tag = .ok (payload, next)) :
    readFields c = (readFields next).map fun x => (⟨tag, payload⟩ :: x.1, x.2) := by
  rw [readFields, hpeek]
  dsimp only
  rw [if_neg hne]
  split
  next e he => cases he.symm.trans h
  next found after hfound =>
    cases hfound.symm.trans h
    rfl

/-- Fields are the same in longer bytes. -/
theorem readFields_extend {fields : List Field} (h : readFields c = .ok (fields, next)) :
    readFields (c.extend extra) = .ok (fields, next.extend extra) := by
  fun_induction readFields c generalizing fields next with
  | case1 => cases h
  | case2 c hpeek =>
    cases h
    have htwo := Cursor.two_le_of_peek hpeek
    rw [readFields_of_properties ((Cursor.peek_extend extra htwo).trans hpeek),
      Cursor.skip_extend extra htwo]
  | case3 => cases h
  | case4 c tag hpeek hne payload after hpayload _ ih =>
    obtain ⟨⟨later, last⟩, hlater, h⟩ := Steps.map_eq_ok_iff.1 h
    cases h
    have htwo := Cursor.two_le_of_peek hpeek
    have hlonger : readPayload ((c.extend extra).skip 2) tag =
        .ok (payload, after.extend extra) := by
      rw [Cursor.skip_extend extra htwo]
      exact readPayload_extend extra hpayload
    have hpeekLonger : (c.extend extra).peek = some tag :=
      (Cursor.peek_extend extra htwo).trans hpeek
    rw [readFields_of_readPayload hpeekLonger hne hlonger, ih hlater]
    rfl

/-- A body in front of the properties takes two bytes at least: their tag. -/
theorem two_le_of_readBody {body : Body} (h : readBody c = .ok (body, next)) :
    2 ≤ c.rest.length := by
  unfold readBody at h
  split at h
  next kind hkind =>
    obtain ⟨t, hpeek, _⟩ := Option.bind_eq_some_iff.1 hkind
    exact Cursor.two_le_of_peek hpeek
  next =>
    obtain ⟨⟨bytes, after⟩, huntil, _⟩ := Steps.bind_eq_ok_iff.1 h
    have hlength := Cursor.length_of_readUntil huntil
    omega

/-- A body is the same in longer bytes. The view ahead tells the two bodies apart, also in front of
an empty text. -/
theorem readBody_extend {body : Body} (h : readBody c = .ok (body, next)) :
    readBody (c.extend extra) = .ok (body, next.extend extra) := by
  have htwo := two_le_of_readBody h
  unfold readBody at h ⊢
  rw [Cursor.peek_extend extra htwo, Cursor.skip_extend extra htwo]
  split at h
  next =>
    simp only [Steps.bind_eq_ok_iff, Prod.exists] at h ⊢
    obtain ⟨fields, after, hfields, h⟩ := h
    cases h
    exact ⟨fields, _, readFields_extend extra hfields, rfl⟩
  next =>
    simp only [Steps.bind_eq_ok_iff, Prod.exists] at h ⊢
    obtain ⟨bytes, after, huntil, text, htext, h⟩ := h
    cases h
    exact ⟨bytes, _, Cursor.readUntil_extend extra huntil, text, htext, rfl⟩

/-- A record is the same in longer bytes. -/
theorem readRecord_extend {r : Record} (h : readRecord c = .ok (r, next)) :
    readRecord (c.extend extra) = .ok (r, next.extend extra) := by
  simp only [readRecord, readRecordAfterId, Steps.bind_eq_ok_iff, Prod.exists] at h ⊢
  obtain ⟨c₁, hid, bytes, c₂, huntil, text, htext, id, hread, c₃, hkind, body, c₄, hbody, payload, c₅,
    hpayload, properties, hpairs, c₆, hend, h⟩ := h
  cases h
  exact ⟨_, Cursor.expect_extend extra hid, bytes, _, Cursor.readUntil_extend extra huntil,
    text, htext, id, hread, _, Cursor.expect_extend extra hkind, body, _,
    readBody_extend extra hbody, payload, _, Cursor.readUntil_extend extra hpayload,
    properties, hpairs, _, Cursor.expect_extend extra hend, rfl⟩

/-- A record takes two bytes at least: the tag that opens it. -/
theorem two_le_of_readRecord {r : Record} (h : readRecord c = .ok (r, next)) :
    2 ≤ c.rest.length := by
  obtain ⟨after, hid, _⟩ := Steps.bind_eq_ok_iff.1 h
  have hlength := Cursor.length_of_expect hid
  omega

/-! ## The whole -/

/-- A record in front is read first. -/
theorem readRecords_of_readRecord {r : Record} (hpeek : c.peek ≠ some .lookupEnd)
    (h : readRecord c = .ok (r, next)) :
    readRecords c = (readRecords next).map fun x => (r :: x.1, x.2) := by
  rw [readRecords, if_neg hpeek]
  split
  next e he => cases he.symm.trans h
  next found after hfound =>
    cases hfound.symm.trans h
    rfl

/-- Records are the same in longer bytes. -/
theorem readRecords_extend {records : List Record} (h : readRecords c = .ok (records, next)) :
    readRecords (c.extend extra) = .ok (records, next.extend extra) := by
  fun_induction readRecords c generalizing records next with
  | case1 c hpeek =>
    cases h
    have htwo := Cursor.two_le_of_peek hpeek
    rw [readRecords, Cursor.peek_extend extra htwo, if_pos hpeek, Cursor.skip_extend extra htwo]
  | case2 => cases h
  | case3 c hpeek record after hrecord _ ih =>
    obtain ⟨⟨later, last⟩, hlater, h⟩ := Steps.map_eq_ok_iff.1 h
    cases h
    have hpeekLonger : (c.extend extra).peek ≠ some .lookupEnd := by
      rw [Cursor.peek_extend extra (two_le_of_readRecord hrecord)]
      exact hpeek
    rw [readRecords_of_readRecord hpeekLonger (readRecord_extend extra hrecord), ih hlater]
    rfl

/-- A part of the header is the same in longer bytes. -/
theorem readHeaderPart_extend {tag : Tag} {text : String}
    (h : readHeaderPart c tag = .ok (text, next)) :
    readHeaderPart (c.extend extra) tag = .ok (text, next.extend extra) := by
  simp only [readHeaderPart, Steps.bind_eq_ok_iff, Prod.exists] at h ⊢
  obtain ⟨c₁, htag, bytes, c₂, huntil, found, htext, h⟩ := h
  cases h
  exact ⟨_, Cursor.expect_extend extra htag, bytes, _, Cursor.readUntil_extend extra huntil, text,
    htext, rfl⟩

/-- What follows an artifact is refused as such, with the number of its bytes. -/
theorem decode_append {bytes : List UInt8} {a : Artifact} (h : decode bytes = .ok a)
    {extra : List UInt8} (hextra : extra ≠ []) :
    decode (bytes ++ extra) = .error (.trailing extra.length) := by
  simp only [decode, Steps.bind_eq_ok_iff, Prod.exists] at h
  obtain ⟨c₁, hmagic, versionBytes, c₂, hversion, versionText, hversionText, version, hversionRead,
    runtimesBytes, c₃, hruntimes, runtimesText, hruntimesText, runtimes, hruntimesRead,
    startText, c₄, hstart, start, hstartRead, name, c₅, hname, startingText, c₆, hstartingText,
    c₇, hbegin, records, c₈, hrecords, h⟩ := h
  split at h
  next hempty =>
    have hmagicLonger : Cursor.expectBytes ⟨0, bytes ++ extra⟩ magic = .ok (c₁.extend extra) :=
      Cursor.expectBytes_extend extra hmagic
    have hleft : (c₈.extend extra).rest = extra := by
      rw [Cursor.extend, List.isEmpty_iff.1 hempty, List.nil_append]
    rw [decode, hmagicLonger, Steps.ok_bind]
    simp only [Cursor.readUntil_extend extra hversion, hversionText, hversionRead,
      Cursor.readUntil_extend extra hruntimes, hruntimesText, hruntimesRead,
      readHeaderPart_extend extra hstart, hstartRead, readHeaderPart_extend extra hname,
      readHeaderPart_extend extra hstartingText, Cursor.expect_extend extra hbegin,
      readRecords_extend extra hrecords, Steps.ok_bind, hleft, List.isEmpty_eq_false_iff.2 hextra]
    rfl
  next => cases h

/-- Bytes from which an artifact is read are read neither if they are cut short nor if more follows;
no accepted bytes are a proper beginning of others. -/
theorem decode_prefixFree {bytes : List UInt8} {a : Artifact} (h : decode bytes = .ok a) :
    (∀ beginning, beginning <+: bytes → beginning ≠ bytes → ∃ e, decode beginning = .error e) ∧
      ∀ extra, extra ≠ [] → decode (bytes ++ extra) = .error (.trailing extra.length) := by
  refine ⟨?_, fun extra hextra => decode_append h hextra⟩
  rintro beginning ⟨missing, rfl⟩ hne
  have hmissing : missing ≠ [] := by
    rintro rfl
    exact hne (List.append_nil beginning).symm
  cases hbeginning : decode beginning with
  | error e => exact ⟨e, rfl⟩
  | ok b =>
    rw [decode_append hbeginning hmissing] at h
    cases h

/-- The bytes of the signpost can lose no byte at their end and get none. -/
theorem signpost_prefixFree : decode (signpost.bytesAs padded) = .ok signpost ∧
    (∃ e, decode (signpost.bytesAs padded).dropLast = .error e) ∧
    decode (signpost.bytesAs padded ++ [0]) = .error (.trailing 1) := by
  obtain ⟨hshorter, hlonger⟩ := decode_prefixFree decode_signpost
  have hcut : (signpost.bytesAs padded).dropLast ≠ signpost.bytesAs padded := by
    decide +kernel
  exact ⟨decode_signpost, hshorter _ (List.dropLast_prefix _) hcut, hlonger [0] (by simp)⟩

end Artifact

end TextAdventure
