import TextAdventure.Artifact.Access
import TextAdventure.Proofs.Compiler.UniqueIds

/-!
# What is read back from a compiled adventure

Reading undoes compiling: the bytes give the artifact that the adventure is written as
(`decode_compile`). In it every reference is closed. The fields that hold identifiers are listed
with the kind of record each calls for (`idFields`), and whatever identifier is found in one of
them, the artifact has a record of that kind, or a ready-made text, that bears it
(`compile_references_closed`).

Each field that the compiler writes either is not listed or holds the objects of one role
(`Field.Fits`). Validation has found them to be of the role's kind, so their records are.
-/

namespace TextAdventure

/-- Reading undoes compiling: the bytes are read as the artifact that the adventure is written as,
under the identifiers that it has afterwards. -/
theorem decode_compile {config : CompilerConfig} {a : Adventure} {supply : IdSupply}
    {bytes : List UInt8} (h : (compile config a supply).result = .ok bytes) :
    ∃ art, Artifact.decode bytes = .ok art ∧
      a.WrittenAs (compile config a supply).adventure config art := by
  obtain ⟨hcompilable, _, art, hart, rfl⟩ := compile_eq_ok h
  exact ⟨art, Artifact.decode_bytes (hart.writable hcompilable.payloads), hart⟩

/-- The lighthouse is read back. -/
theorem decode_compile_lighthouse : ∃ bytes, (compile {} lighthouse .fresh).result = .ok bytes ∧
    ∃ art, Artifact.decode bytes = .ok art ∧
      lighthouse.WrittenAs (compile {} lighthouse .fresh).adventure {} art := by
  obtain ⟨bytes, h⟩ := exists_compile_lighthouse
  exact ⟨bytes, h, decode_compile h⟩

/-! ## Fields that hold identifiers -/

/-- Where the payload of a field holds identifiers: as a list, or in a mapping. -/
inductive IdPlace where
  | list
  | keys
  | values
deriving DecidableEq

/-- A field that holds identifiers, with the kind of record that these must have. -/
structure IdField where
  tag : Tag
  place : IdPlace
  kind : RecordKind
deriving DecidableEq

/-- The fields that hold identifiers. -/
def idFields : List IdField :=
  [⟨.exits, .values, .room⟩, ⟨.exitDescriptions, .values, .descriptions⟩,
    ⟨.roomItems, .values, .item⟩, ⟨.pickedUp, .keys, .item⟩, ⟨.codeChildren, .list, .code⟩,
    ⟨.verbArguments, .list, .argument⟩, ⟨.verbBody, .list, .code⟩]

/-- The identifiers in a field of a record. -/
def Record.idsIn (r : Record) (tag : Tag) : IdPlace → Except FormatError (List ObjectId)
  | .list => r.ids tag
  | .keys => do (← r.pairs tag).mapM fun e => Artifact.readId e.1
  | .values => do (← r.pairs tag).mapM fun e => Artifact.readId e.2

/-- The record is of the kind, or a ready-made text. -/
def Record.Suits (r : Record) (kind : RecordKind) : Prop :=
  (∃ text, r.body = .rendered text) ∨ ∃ fields, r.body = .typed kind fields

/-- The artifact has a record with the identifier, which is of the kind or a ready-made text. -/
def Artifact.Contains (art : Artifact) (id : ObjectId) (kind : RecordKind) : Prop :=
  ∃ r ∈ art.records, r.id = id ∧ r.Suits kind

/-! ## Reading identifiers -/

/-- The payload holds the given objects in the place, each by its name. -/
def IdPlace.Holds (name : Handle → String) (payload : List UInt8) (targets : List Handle) :
    IdPlace → Prop
  | .list => payload = listPayload (targets.map name)
  | .keys => ∃ entries, PlainEntries entries ∧ payload = pairsPayload entries ∧
      entries.map (·.1) = targets.map name
  | .values => ∃ entries, PlainEntries entries ∧ payload = pairsPayload entries ∧
      entries.map (·.2) = targets.map name

/-- An empty payload holds no objects. -/
theorem IdPlace.holds_nil (name : Handle → String) (place : IdPlace) : place.Holds name [] [] := by
  cases place with
  | list => rfl
  | keys | values => exact ⟨[], fun _ he => (nomatch he), rfl, rfl⟩

/-- The text of an identifier is not empty. -/
theorem ObjectId.print_ne_empty (id : ObjectId) : id.print ≠ "" := by
  intro h
  have hnil : Numeral.digits id.val.toNat = [] := by
    rw [← String.toList_ofList (l := Numeral.digits id.val.toNat)]
    exact congrArg String.toList h
  exact Numeral.digits_ne_nil _ hnil

/-- A list of plain texts is read back, unless it consists of one empty text: that is written like
the empty list. -/
theorem Artifact.readTexts_listPayload {texts : List String} (hplain : ∀ text ∈ texts, Plain text)
    (hne : texts ≠ [""]) :
    (Tag.separator.split (listPayload texts)).mapM Artifact.readText = .ok texts := by
  have hparts : texts.map Utf8.ofString ≠ [[]] := by
    intro hnil
    obtain ⟨text, rfl, hempty⟩ := List.map_eq_singleton_iff.1 hnil
    have hread := Artifact.readText_ofString text
    rw [hempty] at hread
    cases hread
    exact hne rfl
  have hsplit : Tag.separator.split (listPayload texts) = texts.map Utf8.ofString := by
    refine Tag.split_join (by decide) hparts fun part hpart => ?_
    obtain ⟨text, htext, rfl⟩ := List.mem_map.1 hpart
    exact Tag.absent_of_leadFree rfl (hplain text htext)
  rw [hsplit]
  exact Steps.mapM_map_eq_ok fun text _ => Artifact.readText_ofString text

section
variable {named : Adventure} {targets : List Handle} {ids : List ObjectId}

/-- Objects with identifiers have a list of identifiers. -/
theorem Adventure.exists_ids (h : ∀ t ∈ targets, named.Named t) :
    ∃ ids, List.Forall₂ (fun t id => named.idOf? t = some id) targets ids := by
  obtain ⟨ids, hids⟩ : ∃ ids, targets.mapM (named.resolve none) = .ok ids := by
    refine Steps.exists_mapM_eq_ok fun t ht => ?_
    obtain ⟨id, hid⟩ := Option.isSome_iff_exists.1 (h t ht)
    exact ⟨id, resolve_eq_ok_iff.2 hid⟩
  exact ⟨ids, (Steps.mapM_eq_ok_iff.1 hids).imp fun _ _ => resolve_eq_ok_iff.1⟩

/-- The texts of identifiers are read back as the identifiers. -/
theorem Adventure.mapM_readId
    (h : List.Forall₂ (fun t id => named.idOf? t = some id) targets ids) :
    (targets.map named.idText).mapM Artifact.readId = .ok ids := by
  rw [Steps.mapM_eq_ok_iff, List.forall₂_map_left_iff]
  refine h.imp fun t id hid => ?_
  rw [idText_of_idOf? hid, Artifact.readId_print]

/-- The identifiers of the objects that a field holds are read. -/
theorem Record.idsIn_of_holds {r : Record} {tag : Tag} {place : IdPlace}
    (hholds : place.Holds named.idText ((r.field? tag).getD []) targets)
    (h : List.Forall₂ (fun t id => named.idOf? t = some id) targets ids) :
    r.idsIn tag place = .ok ids := by
  have hread := Adventure.mapM_readId h
  cases place with
  | list =>
    have hlist : r.list tag = .ok (targets.map named.idText) := by
      rw [Record.list, hholds]
      refine Artifact.readTexts_listPayload (plain_map_name named.plain_idText _) ?_
      intro hempty
      obtain ⟨t, rfl, hname⟩ := List.map_eq_singleton_iff.1 hempty
      obtain ⟨id, _, hid⟩ := Steps.exists_mem_right h (List.mem_singleton_self t)
      rw [Adventure.idText_of_idOf? hid] at hname
      exact id.print_ne_empty hname
    rw [idsIn, Record.ids, hlist]
    exact hread
  | keys | values =>
    obtain ⟨entries, hplain, hpayload, hnames⟩ := hholds
    have hpairs : r.pairs tag = .ok entries := by
      rw [Record.pairs, hpayload, Artifact.readPairs_pairsPayload hplain]
    rw [← hnames, Steps.mapM_eq_ok_iff, List.forall₂_map_left_iff] at hread
    rw [idsIn, hpairs]
    exact Steps.mapM_eq_ok_iff.2 hread

end

/-! ## Fields and roles -/

/-- The kind of record that an object of the expected kind is written as. -/
def Expected.recordKind : Expected → RecordKind
  | .room => .room
  | .item => .item
  | .descriptions => .descriptions
  | .argument => .argument
  | .code => .code

/-- An object that is accepted in a role has a record of the expected kind. -/
theorem Expected.recordKind?_of_accepts {expected : Expected} {kind : Kind}
    (h : expected.accepts kind = true) : kind.recordKind? = some expected.recordKind := by
  cases expected <;> cases kind <;> first | rfl | cases h

/-- A field is not listed among those that hold identifiers, or it holds objects of one role, which
calls for the kind that the list gives. -/
def Field.Fits (name : Handle → String) (links : List Link) (f : Field) : Prop :=
  (idFields.find? fun x => x.tag == f.tag) = none ∨
    ∃ x role targets, (idFields.find? fun x => x.tag == f.tag) = some x ∧
      x.kind = role.expected.recordKind ∧ x.place.Holds name f.payload targets ∧
      ∀ link ∈ Role.links role targets, link ∈ links

section
variable {name : Handle → String} (hname : ∀ h, Plain (name h))
include hname

/-- The fields of descriptions hold what their links name. -/
theorem Descriptions.fits_fields {d : Descriptions} (h : ∀ text ∈ d.payloads, Plain text)
    {links : List Link} (hlinks : ∀ link ∈ d.links, link ∈ links) :
    ∀ f ∈ d.fields name, f.Fits name links := by
  have hkeys : (d.whenPickedUp.entries.map fun x => (name x.1, x.2)).map (·.1) =
      d.whenPickedUp.keys.map name := by
    simp [SortedMap.keys, Function.comp_def]
  simp only [fields, List.forall_mem_cons, List.not_mem_nil, false_implies, implies_true, and_true]
  exact ⟨.inl rfl, .inl rfl, .inr ⟨_, .pickedUpText, _, rfl, rfl,
    ⟨_, plainEntries_pickedUp hname h, rfl, hkeys⟩, hlinks⟩, .inl rfl⟩

/-- Exits hold the rooms that they lead to, as values. -/
theorem holds_exitTexts (exits : SortedMap Direction Handle) :
    IdPlace.values.Holds name (pairsPayload (exitTexts name exits)) exits.values := by
  refine ⟨_, plainEntries_exitTexts hname exits, rfl, ?_⟩
  simp [exitTexts, SortedMap.values, Function.comp_def]

/-- A numbered list holds its objects, as values. -/
theorem holds_numbered (targets : List Handle) :
    IdPlace.values.Holds name (pairsPayload (Adventure.numbered (targets.map name))) targets := by
  refine ⟨_, plainEntries_numbered hname targets, rfl, ?_⟩
  rw [Adventure.numbered, List.map_map]
  exact List.zipIdx_map_fst ..

/-- The fields of a kind hold what its links name. The identifier of a room's own description block
is not listed, since it is that of the room. -/
theorem Kind.fits_fields {kind : Kind} (id : ObjectId) (h : ∀ text ∈ kind.payloads, Plain text) :
    ∀ f ∈ kind.fields name id, f.Fits name kind.links := by
  cases kind with
  | room r =>
    have hdescriptions : ∀ f ∈ r.descriptions.fields name, f.Fits name (Kind.room r).links :=
      Descriptions.fits_fields hname (List.forall_mem_cons.1 h).2 fun link hlink => by
        simp [links, hlink]
    simp only [fields, Room.fields, List.forall_mem_append, List.forall_mem_cons,
      List.not_mem_nil, false_implies, implies_true, and_true]
    refine ⟨⟨⟨.inl rfl, .inl rfl⟩, hdescriptions⟩,
      .inr ⟨_, .exit, _, rfl, rfl, holds_exitTexts hname r.exits, ?_⟩,
      .inr ⟨_, .exitDescription, _, rfl, rfl, holds_exitTexts hname r.exitDescriptions, ?_⟩,
      .inr ⟨_, .roomItem, _, rfl, rfl, holds_numbered hname r.items, ?_⟩⟩
    all_goals
      intro link hlink
      simp [links, hlink]
  | item title => exact List.forall_mem_singleton.2 (.inl rfl)
  | descriptions d => exact Descriptions.fits_fields hname h fun _ hlink => hlink
  | argument x => exact List.forall_mem_cons.2 ⟨.inl rfl, List.forall_mem_singleton.2 (.inl rfl)⟩
  | code c =>
    exact List.forall_mem_cons.2 ⟨.inl rfl, List.forall_mem_cons.2 ⟨.inl rfl,
      List.forall_mem_singleton.2 (.inr ⟨_, .codeChild, _, rfl, rfl, rfl, fun _ hlink => hlink⟩)⟩⟩
  | verb v =>
    exact List.forall_mem_cons.2 ⟨.inl rfl, List.forall_mem_cons.2
      ⟨.inr ⟨_, .verbArgument, _, rfl, rfl, rfl, fun _ hlink => List.mem_append_left _ hlink⟩,
        List.forall_mem_singleton.2
          (.inr ⟨_, .verbBody, _, rfl, rfl, rfl, fun _ hlink => List.mem_append_right _ hlink⟩)⟩⟩
  | custom title =>
    intro f hf
    cases hf

end

/-! ## Records of an adventure -/

namespace Adventure

section
variable {a named : Adventure} {config : CompilerConfig} {art : Artifact} {t : Handle}
  {o : GameObject} {r : Record}

/-- The fields of a record hold what the links of its object name. -/
theorem RecordOf.fits_fields (hr : named.RecordOf t o r) (ho : o.Writable) :
    ∀ f ∈ r.fields, f.Fits named.idText o.kind.links := by
  cases hrendering : o.rendering with
  | some text =>
    rw [Record.fields, hr.rendered text hrendering]
    exact fun _ hf => nomatch hf
  | none =>
    obtain ⟨kind, _, hbody⟩ := hr.typed hrendering
    rw [Record.fields, hbody]
    exact Kind.fits_fields named.plain_idText r.id (ho.fields hrendering)

/-- What a listed field of a record holds are objects that its object names, in roles that call for
the listed kind. A field that is missing holds none. No tag is listed twice. -/
theorem RecordOf.exists_holds (hr : named.RecordOf t o r) (ho : o.Writable) {x : IdField}
    (hx : x ∈ idFields) :
    ∃ targets, x.place.Holds named.idText ((r.field? x.tag).getD []) targets ∧
      ∀ target ∈ targets, ∃ role, Link.mk role target ∈ o.kind.links ∧
        x.kind = role.expected.recordKind := by
  unfold Record.field?
  cases hfind : r.fields.find? fun f => f.tag == x.tag with
  | none => exact ⟨[], x.place.holds_nil _, fun _ htarget => nomatch htarget⟩
  | some f =>
    have htag : f.tag = x.tag := by simpa using List.find?_some hfind
    have hlisted : ∀ y ∈ idFields, (idFields.find? fun z => z.tag == y.tag) = some y := by decide
    have hfits := hr.fits_fields ho f (List.mem_of_find?_eq_some hfind)
    rw [Field.Fits, htag, hlisted x hx] at hfits
    rcases hfits with hnone | ⟨y, role, targets, hy, hkind, hholds, hlinks⟩
    · cases hnone
    · cases hy
      refine ⟨targets, hholds, fun target htarget => ⟨role, ?_, hkind⟩⟩
      exact hlinks _ (List.mem_map_of_mem htarget)

/-- An object that fills a role has a record of the role's kind, or a ready-made text. -/
theorem WrittenAs.contains (hart : a.WrittenAs named config art) {link : Link}
    (hfills : a.Fills link) {id : ObjectId} (hid : named.idOf? link.target = some id) :
    art.Contains id link.role.expected.recordKind := by
  obtain ⟨o, ho, haccepts⟩ := hfills
  obtain ⟨r, hr, hrecord⟩ := Steps.exists_mem_right hart.records (mem_handled.2 ho)
  refine ⟨r, hr, Option.some.inj (hrecord.id.symm.trans hid), ?_⟩
  cases hrendering : o.rendering with
  | some text => exact .inl ⟨text, hrecord.rendered text hrendering⟩
  | none =>
    obtain ⟨kind, hkind, hbody⟩ := hrecord.typed hrendering
    cases hkind.symm.trans (Expected.recordKind?_of_accepts haccepts)
    exact .inr ⟨_, hbody⟩

/-- A registered object has a record. -/
theorem WrittenAs.exists_record (hart : a.WrittenAs named config art) (ht : a.Registered t) :
    ∃ r ∈ art.records, named.idOf? t = some r.id := by
  obtain ⟨o, ho⟩ := Option.isSome_iff_exists.1 ht
  obtain ⟨r, hr, hrecord⟩ := Steps.exists_mem_right hart.records (mem_handled.2 ho)
  exact ⟨r, hr, hrecord.id⟩

/-- Each listed field of a record is read, and its identifiers have records of the listed kind. -/
theorem WrittenAs.exists_idsIn (hart : a.WrittenAs named config art) (h : a.Completed named)
    (hsound : a.Sound) (hwritable : a.Writable) :
    ∀ r ∈ art.records, ∀ x ∈ idFields, ∃ ids, r.idsIn x.tag x.place = .ok ids ∧
      ∀ id ∈ ids, art.Contains id x.kind := by
  intro r hr x hx
  obtain ⟨⟨t, o⟩, ho, hrecord⟩ := Steps.exists_mem_left hart.records hr
  have hmem := mem_objects_of_object? (mem_handled.1 ho)
  obtain ⟨targets, hholds, hroles⟩ := hrecord.exists_holds (hwritable.objects o hmem) hx
  have hfills : ∀ target ∈ targets, ∃ role, a.Fills ⟨role, target⟩ ∧
      x.kind = role.expected.recordKind := by
    intro target htarget
    obtain ⟨role, hlink, hkind⟩ := hroles target htarget
    exact ⟨role, (hsound.objects o hmem).links _ hlink, hkind⟩
  have hnamed : ∀ target ∈ targets, named.Named target := by
    intro target htarget
    obtain ⟨_, ⟨o', ho', _⟩, _⟩ := hfills target htarget
    exact h.named_of_registered (Option.isSome_iff_exists.2 ⟨o', ho'⟩)
  obtain ⟨ids, hids⟩ := exists_ids hnamed
  refine ⟨ids, Record.idsIn_of_holds hholds hids, fun id hid => ?_⟩
  obtain ⟨target, htarget, htargetId⟩ := Steps.exists_mem_left hids hid
  obtain ⟨role, hfill, hkind⟩ := hfills target htarget
  rw [hkind]
  exact hart.contains hfill htargetId

/-- The properties of each object are in its record, and all objects in them have records. -/
theorem WrittenAs.properties_closed (hart : a.WrittenAs named config art) (hsound : a.Sound) :
    List.Forall₂ (fun o r => ∀ e ∈ o.properties.entries,
      (e.1, e.2.shown named.idText) ∈ r.properties ∧
      ∀ t ∈ e.2.references, ∃ target ∈ art.records, named.idOf? t = some target.id)
      a.objects art.records := by
  have hrecords := (List.forall₂_and_left _ _).2
    ⟨forall_mem_handled.2 hsound.objects, hart.records⟩
  rw [← map_snd_handled a, List.forall₂_map_left_iff]
  refine hrecords.imp fun x r ⟨hobject, hrecord⟩ e he => ⟨?_, fun t ht => ?_⟩
  · rw [hrecord.properties]
    exact List.mem_map_of_mem he
  · refine hart.exists_record (hobject.references t (List.mem_append_right _ ?_))
    exact List.mem_flatMap.2 ⟨e.2, List.mem_map_of_mem he, ht⟩

end

end Adventure

/-- With distinct identifiers, each record is found by its own. -/
theorem Artifact.record?_of_nodup {art : Artifact} (h : (art.records.map Record.id).Nodup)
    {r : Record} (hr : r ∈ art.records) : art.record? r.id = some r := by
  unfold Artifact.record?
  generalize art.records = records at h hr ⊢
  induction records with
  | nil => cases hr
  | cons first rest ih =>
    obtain ⟨hfirst, hrest⟩ := List.nodup_cons.1 h
    rcases List.mem_cons.1 hr with rfl | hr
    · exact List.find?_cons_of_pos (by simp)
    · have hne : first.id ≠ r.id := fun heq => hfirst (heq ▸ List.mem_map_of_mem hr)
      rw [List.find?_cons_of_neg (by simpa using hne)]
      exact ih hrest hr

/-- Every reference in a compiled artifact is closed, and those in fields are of the right kind. The
starting room and each identifier in a field that holds identifiers have a record of the kind that
is called for, or a ready-made text. Each property is read back, and every object in its value, at
any depth, has a record; so has every object in the properties of the adventure itself. If all
identifiers are distinct, each record is the one found under its identifier. -/
theorem compile_references_closed {config : CompilerConfig} {a : Adventure} {supply : IdSupply}
    {bytes : List UInt8} (h : (compile config a supply).result = .ok bytes) :
    ∃ art, Artifact.decode bytes = .ok art ∧
      art.Contains art.startingRoom .room ∧
      (∀ r ∈ art.records, ∀ x ∈ idFields, ∃ ids, r.idsIn x.tag x.place = .ok ids ∧
        ∀ id ∈ ids, art.Contains id x.kind) ∧
      List.Forall₂ (fun o r => ∀ e ∈ o.properties.entries,
        (e.1, e.2.shown (compile config a supply).adventure.idText) ∈ r.properties ∧
        ∀ t ∈ e.2.references, ∃ target ∈ art.records,
          (compile config a supply).adventure.idOf? t = some target.id) a.objects art.records ∧
      (∀ t ∈ a.properties.references, ∃ target ∈ art.records,
        (compile config a supply).adventure.idOf? t = some target.id) ∧
      ((compile config a supply).adventure.heldIds.Nodup →
        ∀ r ∈ art.records, art.record? r.id = some r) := by
  obtain ⟨hcompilable, ⟨_, hdrawn⟩, art, hart, rfl⟩ := compile_eq_ok h
  have hsound := Adventure.validate_eq_ok_iff.1 hcompilable.references
  refine ⟨art, Artifact.decode_bytes (hart.writable hcompilable.payloads), ?_,
    hart.exists_idsIn hdrawn.completed hsound hcompilable.payloads, hart.properties_closed hsound,
    fun t ht => hart.exists_record (hsound.properties t ht), ?_⟩
  · obtain ⟨start, hstart, hfills⟩ := hsound.start
    obtain ⟨found, hfound, hid⟩ := hart.startingRoom
    cases hstart.symm.trans hfound
    exact hart.contains hfills hid
  · intro hnodup r hr
    rw [Adventure.heldIds, hart.filterMap_id hdrawn.completed] at hnodup
    exact Artifact.record?_of_nodup (List.nodup_append.1 hnodup).2.1 hr

/-- The references of the lighthouse are closed, and its records are found by their identifiers. -/
theorem compile_lighthouse_references_closed : ∃ bytes art,
    (compile {} lighthouse .fresh).result = .ok bytes ∧ Artifact.decode bytes = .ok art ∧
    art.Contains art.startingRoom .room ∧
    (∀ r ∈ art.records, ∀ x ∈ idFields, ∃ ids, r.idsIn x.tag x.place = .ok ids ∧
      ∀ id ∈ ids, art.Contains id x.kind) ∧
    ∀ r ∈ art.records, art.record? r.id = some r := by
  have hnodup : (compile {} lighthouse .fresh).adventure.heldIds.Nodup := by decide
  obtain ⟨bytes, h⟩ := exists_compile_lighthouse
  obtain ⟨art, hdecode, hstart, hfields, _, _, hfound⟩ := compile_references_closed h
  exact ⟨bytes, art, h, hdecode, hstart, hfields, hfound hnodup⟩

end TextAdventure
