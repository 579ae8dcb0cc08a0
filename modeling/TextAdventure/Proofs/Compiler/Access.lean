import TextAdventure.Proofs.Compiler.ReadBack
import TextAdventure.Proofs.SortedMap

/-!
# What the accessors of a compiled record give

The accessors of a record read single payloads: a text, the entries of a mapping, a list of
identifiers, the exits of a room, a code of one byte. On the records of a compiled adventure they give
the fields of the objects back, with identifiers in the place of handles (`compile_shows`). The
arguments of statements come back as well, unless there is one only and it is empty
(`compile_list_codeArguments`).

A record is written with the decimals of identifiers. As all objects that it names have one, these
decimals can be taken from a total function on handles, and each field is then read on its own.
-/

namespace TextAdventure

/-! ## What a record shows -/

namespace Record

/-- The accessors give the texts of a description block, with items by their identifiers. -/
structure ShowsDescriptions (r : Record) (idOf : Handle → ObjectId) (d : Descriptions) : Prop where
  firstEntry : r.text? .firstEntry = some d.firstEntry
  usual : r.text? .usual = some d.usual
  pickedUp : r.pairs .pickedUp = .ok (d.whenPickedUp.entries.map fun e => ((idOf e.1).print, e.2))
  custom : r.pairs .custom = .ok d.custom.entries

/-- The accessors give the fields of a room, with objects by their identifiers. -/
structure ShowsRoom (r : Record) (idOf : Handle → ObjectId) (room : Room) : Prop where
  title : r.text? .roomName = some room.title
  /-- The room's own description block goes by the identifier of the room. -/
  description : r.text? .description = some r.id.print
  descriptions : r.ShowsDescriptions idOf room.descriptions
  exits : r.directions .exits = .ok (room.exits.mapValues idOf)
  exitDescriptions : r.directions .exitDescriptions = .ok (room.exitDescriptions.mapValues idOf)
  items : r.pairs .roomItems =
    .ok (room.items.zipIdx.map fun x => (Numeral.print x.2, (idOf x.1).print))

/-- The accessors give the fields of an object of a kind, with objects by their identifiers. No record
with fields shows a kind of the author's own. -/
def Shows (r : Record) (idOf : Handle → ObjectId) : Kind → Prop
  | .room room => r.ShowsRoom idOf room
  | .item name => r.text? .itemName = some name
  | .descriptions d => r.ShowsDescriptions idOf d
  | .argument x => r.argumentType? = some x.type ∧ r.text? .argumentName = some x.name
  | .code c => r.keyword? = some c.keyword ∧ r.ids .codeChildren = .ok (c.children.map idOf)
  | .verb v => r.text? .verbName = some v.name ∧
      r.ids .verbArguments = .ok (v.arguments.map idOf) ∧ r.ids .verbBody = .ok (v.body.map idOf)
  | .custom _ => False

/-! ## Reading single fields -/

section
variable {r : Record} {tag : Tag}

/-- The field of a tag is the first one with this tag. -/
theorem field?_of_typed {kind : RecordKind} {fields : List Field} (h : r.body = .typed kind fields)
    (tag : Tag) : r.field? tag = (fields.find? fun f => f.tag == tag).map Field.payload := by
  rw [field?, Record.fields, h]

/-- A field with the bytes of a text is read as this text. -/
theorem text?_of_field? {text : String} (h : r.field? tag = some (Utf8.ofString text)) :
    r.text? tag = some text := by
  rw [text?, h, Option.bind_some, Utf8.decode_ofString]
  rfl

/-- A field of plain pairs is read as these pairs. -/
theorem pairs_of_field? {entries : List (String × String)} (hplain : PlainEntries entries)
    (h : r.field? tag = some (pairsPayload entries)) : r.pairs tag = .ok entries := by
  rw [pairs, h, Option.getD_some, Artifact.readPairs_pairsPayload hplain]

/-- The elements of a list are read, but a single empty text is written like no text at all, and that
is what it is read as. -/
theorem list_of_field? {texts : List String} (hplain : ∀ text ∈ texts, Plain text)
    (h : r.field? tag = some (listPayload texts)) :
    r.list tag = .ok (if texts = [""] then [] else texts) := by
  rw [Record.list, h, Option.getD_some]
  split
  next hempty =>
    subst hempty
    rfl
  next hne => exact Artifact.readTexts_listPayload hplain hne

variable {idOf : Handle → ObjectId}

/-- A field of the texts of identifiers is read as these identifiers. -/
theorem ids_of_field? {targets : List Handle}
    (h : r.field? tag = some (listPayload (targets.map fun t => (idOf t).print))) :
    r.ids tag = .ok (targets.map idOf) := by
  have hne : (targets.map fun t => (idOf t).print) ≠ [""] := by
    intro hempty
    obtain ⟨t, _, hprint⟩ := List.map_eq_singleton_iff.1 hempty
    exact (idOf t).print_ne_empty hprint
  have hlist : r.list tag = .ok (targets.map fun t => (idOf t).print) := by
    rw [list_of_field? (plain_map_name (fun t => (idOf t).plain_print) targets) h, if_neg hne]
  rw [ids, hlist, Steps.ok_bind, Steps.mapM_eq_ok_iff, List.forall₂_map_left_iff,
    List.forall₂_map_right_iff, List.forall₂_same]
  intro t _
  exact Artifact.readId_print (idOf t)

/-- A direction is read back from the text of its code. -/
theorem readDirection_print (d : Direction) :
    readDirection (Numeral.print d.code.toNat) = .ok d := by
  have hcode : Direction.ofCode? d.code = some d := by cases d <;> rfl
  rw [readDirection, Numeral.print, String.toList_ofList,
    Numeral.read_digits (UInt8.toNat_lt_size d.code)]
  simp only [UInt8.ofNat_toNat, hcode]

/-- A field of exits is read as the directions with the identifiers of the rooms behind them. -/
theorem directions_of_field? {exits : SortedMap Direction Handle}
    (h : r.field? tag = some (pairsPayload (exitTexts (fun t => (idOf t).print) exits))) :
    r.directions tag = .ok (exits.mapValues idOf) := by
  have hpairs : r.pairs tag = .ok (exitTexts (fun t => (idOf t).print) exits) :=
    pairs_of_field? (plainEntries_exitTexts (fun t => (idOf t).plain_print) exits) h
  have hentries : ((exitTexts (fun t => (idOf t).print) exits).mapM fun e => do
      return (← readDirection e.1, ← Artifact.readId e.2)) = .ok (exits.mapValues idOf).entries := by
    rw [Steps.mapM_eq_ok_iff, exitTexts, SortedMap.mapValues, List.forall₂_map_left_iff,
      List.forall₂_map_right_iff, List.forall₂_same]
    intro e _
    simp only [readDirection_print, Artifact.readId_print, Steps.ok_bind]
    rfl
  rw [directions, hpairs, Steps.ok_bind, hentries, Steps.ok_bind, SortedMap.ofList_entries]
  rfl

end

/-! ## Reading the fields of a kind -/

section
variable {r : Record} {idOf : Handle → ObjectId}

/-- A record with the fields of descriptions shows the descriptions. -/
theorem showsDescriptions_of_field? {d : Descriptions} (h : ∀ text ∈ d.payloads, Plain text)
    (hfield : ∀ f ∈ d.fields fun t => (idOf t).print, r.field? f.tag = some f.payload) :
    r.ShowsDescriptions idOf d := by
  have hcustom : PlainEntries d.custom.entries := by
    intro e he
    have hentry : ∀ text ∈ [e.1, e.2], text ∈ d.payloads := by
      intro text htext
      exact List.mem_append_right _ (List.mem_flatMap.2 ⟨e, he, htext⟩)
    exact ⟨h e.1 (hentry e.1 (by simp)), h e.2 (hentry e.2 (by simp))⟩
  simp only [Descriptions.fields, List.forall_mem_cons] at hfield
  obtain ⟨hfirst, husual, hpicked, hothers, _⟩ := hfield
  exact ⟨text?_of_field? hfirst, text?_of_field? husual,
    pairs_of_field? (Descriptions.plainEntries_pickedUp (fun t => (idOf t).plain_print) h) hpicked,
    pairs_of_field? hcustom hothers⟩

/-- A record with the fields of a kind shows them. -/
theorem shows_of_typed {kind : Kind} {k : RecordKind} (hk : kind.recordKind? = some k)
    (hbody : r.body = .typed k (kind.fields (fun t => (idOf t).print) r.id))
    (hplain : ∀ text ∈ kind.payloads, Plain text) : r.Shows idOf kind := by
  have hfield := field?_of_typed hbody
  cases kind with
  | room room =>
    have hdescriptions : r.ShowsDescriptions idOf room.descriptions := by
      refine showsDescriptions_of_field? (List.forall_mem_cons.1 hplain).2 ?_
      simp only [Descriptions.fields, List.forall_mem_cons]
      exact ⟨hfield _, hfield _, hfield _, hfield _, fun f hf => absurd hf List.not_mem_nil⟩
    have hitems := pairs_of_field?
      (plainEntries_numbered (fun t => (idOf t).plain_print) room.items) (hfield .roomItems)
    rw [Adventure.numbered, List.zipIdx_map, List.map_map] at hitems
    exact ⟨text?_of_field? (hfield .roomName), text?_of_field? (hfield .description), hdescriptions,
      directions_of_field? (hfield .exits), directions_of_field? (hfield .exitDescriptions), hitems⟩
  | item name => exact text?_of_field? (hfield .itemName)
  | descriptions d =>
    refine showsDescriptions_of_field? hplain ?_
    simp only [Descriptions.fields, List.forall_mem_cons]
    exact ⟨hfield _, hfield _, hfield _, hfield _, fun f hf => absurd hf List.not_mem_nil⟩
  | argument x =>
    have hcode : ArgumentType.ofCode? x.type.code = some x.type := by cases x.type <;> rfl
    refine ⟨?_, text?_of_field? (hfield .argumentName)⟩
    rw [argumentType?, hfield .argumentType]
    exact (if_pos rfl).trans hcode
  | code c =>
    have hcode : Keyword.ofCode? c.keyword.code = some c.keyword := by cases c.keyword <;> rfl
    refine ⟨?_, ids_of_field? (hfield .codeChildren)⟩
    rw [keyword?, hfield .codeKeyword]
    exact (if_pos rfl).trans hcode
  | verb v =>
    exact ⟨text?_of_field? (hfield .verbName), ids_of_field? (hfield .verbArguments),
      ids_of_field? (hfield .verbBody)⟩
  | custom name => cases hk

end

end Record

/-! ## Records of an adventure -/

section
variable {f g : Handle → String}

/-- The fields of descriptions depend on the texts of the objects that they name alone. -/
theorem Descriptions.fields_congr {d : Descriptions} (h : ∀ t ∈ d.references, f t = g t) :
    d.fields f = d.fields g := by
  have hpicked : (d.whenPickedUp.entries.map fun e => (f e.1, e.2)) =
      d.whenPickedUp.entries.map fun e => (g e.1, e.2) := by
    refine List.map_congr_left ?_
    intro e he
    rw [h e.1 (List.mem_map_of_mem he)]
  simp only [fields, hpicked]

/-- The texts of exits depend on the texts of the rooms that they lead to alone. -/
theorem exitTexts_congr {exits : SortedMap Direction Handle} (h : ∀ t ∈ exits.values, f t = g t) :
    exitTexts f exits = exitTexts g exits := by
  refine List.map_congr_left ?_
  intro e he
  exact congrArg (Prod.mk (Numeral.print e.1.code.toNat)) (h e.2 (List.mem_map_of_mem he))

/-- The fields of a kind depend only on what the objects are called that it names. -/
theorem Kind.fields_congr {kind : Kind} (h : ∀ t ∈ kind.references, f t = g t) (id : ObjectId) :
    kind.fields f id = kind.fields g id := by
  cases kind with
  | room r =>
    simp only [references, Room.references, List.forall_mem_append] at h
    obtain ⟨⟨⟨hdescriptions, hexits⟩, hexitDescriptions⟩, hitems⟩ := h
    rw [fields, fields, Room.fields, Room.fields, Descriptions.fields_congr hdescriptions,
      exitTexts_congr hexits, exitTexts_congr hexitDescriptions, List.map_congr_left hitems]
  | item title | argument x | custom title => rfl
  | descriptions d => exact Descriptions.fields_congr h
  | code c =>
    have hchildren : c.children.map f = c.children.map g := List.map_congr_left h
    rw [fields, fields, hchildren]
  | verb v =>
    obtain ⟨harguments, hbody⟩ := List.forall_mem_append.1 h
    rw [fields, fields, List.map_congr_left harguments, List.map_congr_left hbody]

end

/-- An object without a rendering is shown by its record. -/
theorem Adventure.RecordOf.shows {named : Adventure} {t : Handle} {o : GameObject} {r : Record}
    (hr : named.RecordOf t o r) (ho : o.Writable) (hrendering : o.rendering = none)
    {idOf : Handle → ObjectId} (hids : ∀ t ∈ o.kind.references, named.idOf? t = some (idOf t)) :
    r.Shows idOf o.kind := by
  obtain ⟨k, hk, hbody⟩ := hr.typed hrendering
  have hnames : ∀ t ∈ o.kind.references, named.idText t = (idOf t).print := by
    intro t ht
    exact idText_of_idOf? (hids t ht)
  rw [Kind.fields_congr hnames] at hbody
  exact Record.shows_of_typed hk hbody (ho.fields hrendering)

/-- The records of a compiled adventure show its objects: the accessors of each give the fields of the
object, with the identifiers that were assigned in the place of handles. -/
theorem compile_shows {config : CompilerConfig} {a : Adventure} {supply : IdSupply}
    {bytes : List UInt8} (h : (compile config a supply).result = .ok bytes) :
    ∃ (idOf : Handle → ObjectId) (art : Artifact),
      (∀ t, a.Registered t → (compile config a supply).adventure.idOf? t = some (idOf t)) ∧
      Artifact.decode bytes = .ok art ∧
      List.Forall₂ (fun x r => r.id = idOf x.1 ∧ (x.2.rendering = none → r.Shows idOf x.2.kind))
        a.handled art.records := by
  obtain ⟨hcompilable, ⟨_, hdrawn⟩, art, hart, rfl⟩ := compile_eq_ok h
  have hsound := Adventure.validate_eq_ok_iff.1 hcompilable.references
  have hids : ∀ t, a.Registered t → (compile config a supply).adventure.idOf? t =
      some (((compile config a supply).adventure.idOf? t).getD ⟨0⟩) := by
    intro t ht
    obtain ⟨id, hid⟩ := Option.isSome_iff_exists.1 (hdrawn.completed.named_of_registered ht)
    rw [hid, Option.getD_some]
  refine ⟨_, art, hids, Artifact.decode_bytes (hart.writable hcompilable.payloads), ?_⟩
  have hrecords := (List.forall₂_and_left _ _).2
    ⟨Adventure.forall_mem_handled.2 fun o ho => And.intro (hsound.objects o ho)
      (hcompilable.payloads.objects o ho), hart.records⟩
  refine hrecords.imp ?_
  rintro x r ⟨⟨hobject, hwritable⟩, hrecord⟩
  refine ⟨by rw [hrecord.id, Option.getD_some], ?_⟩
  intro hrendering
  refine hrecord.shows hwritable hrendering ?_
  intro t ht
  exact hids t (hobject.references t (List.mem_append_left _ ht))

/-- The records of the lighthouse show its objects. -/
theorem compile_lighthouse_shows : ∃ bytes, (compile {} lighthouse .fresh).result = .ok bytes ∧
    ∃ (idOf : Handle → ObjectId) (art : Artifact),
      (∀ t, lighthouse.Registered t →
        (compile {} lighthouse .fresh).adventure.idOf? t = some (idOf t)) ∧
      Artifact.decode bytes = .ok art ∧
      List.Forall₂ (fun x r => r.id = idOf x.1 ∧ (x.2.rendering = none → r.Shows idOf x.2.kind))
        lighthouse.handled art.records := by
  obtain ⟨bytes, h⟩ := exists_compile_lighthouse
  exact ⟨bytes, h, compile_shows h⟩

/-! ## The arguments of statements

The words that follow a keyword are the author's, so unlike identifiers they can be empty. In a list of
several words the separators keep count of them, and no words give the empty payload. Only a single
empty word has no trace in the payload.
-/

/-- The arguments of a statement are read back from its record, but for a single empty one. -/
theorem Adventure.RecordOf.list_codeArguments {named : Adventure} {t : Handle} {o : GameObject}
    {r : Record} (hr : named.RecordOf t o r) (ho : o.Writable) (hrendering : o.rendering = none)
    {c : Code} (hkind : o.kind = .code c) :
    r.list .codeArguments = .ok (if c.arguments = [""] then [] else c.arguments) := by
  obtain ⟨k, _, hbody⟩ := hr.typed hrendering
  have hplain := ho.fields hrendering
  rw [hkind] at hbody hplain
  exact Record.list_of_field? hplain (Record.field?_of_typed hbody .codeArguments)

/-- The arguments of every statement survive compiling and reading, in number and in order, wherever
empty ones stand among them. The one exception is a single empty argument, which is read back as no
argument. -/
theorem compile_list_codeArguments {config : CompilerConfig} {a : Adventure} {supply : IdSupply}
    {bytes : List UInt8} (h : (compile config a supply).result = .ok bytes) :
    ∃ art, Artifact.decode bytes = .ok art ∧
      List.Forall₂ (fun x r => (compile config a supply).adventure.idOf? x.1 = some r.id ∧
        ∀ c, x.2.rendering = none → x.2.kind = .code c →
          r.list .codeArguments = .ok (if c.arguments = [""] then [] else c.arguments))
        a.handled art.records := by
  obtain ⟨hcompilable, _, art, hart, rfl⟩ := compile_eq_ok h
  refine ⟨art, Artifact.decode_bytes (hart.writable hcompilable.payloads), ?_⟩
  have hrecords := (List.forall₂_and_left _ _).2
    ⟨Adventure.forall_mem_handled.2 hcompilable.payloads.objects, hart.records⟩
  refine hrecords.imp ?_
  rintro x r ⟨hwritable, hrecord⟩
  refine ⟨hrecord.id, ?_⟩
  intro c hrendering hkind
  exact hrecord.list_codeArguments hwritable hrendering hkind

/-- The statement of the lighthouse has an empty argument before another one, and both are read
back. -/
theorem compile_lighthouse_list_codeArguments : ∃ bytes art r,
    (compile {} lighthouse .fresh).result = .ok bytes ∧ Artifact.decode bytes = .ok art ∧
    art.records[6]? = some r ∧ r.list .codeArguments = .ok ["", "bright"] := by
  obtain ⟨bytes, h⟩ := exists_compile_lighthouse
  obtain ⟨art, hdecode, hrecords⟩ := compile_list_codeArguments h
  obtain ⟨r, hr, _, hlist⟩ := Steps.exists_getElem?_right hrecords (i := 6) rfl
  exact ⟨bytes, art, r, h, hdecode, hr, hlist _ rfl rfl⟩

/-- A room, and a statement that shows an empty text. -/
def hush : Adventure where
  name := "Mute"
  supported := .atLeast ⟨0, 1, 0⟩
  start := some ⟨0⟩
  objects := [
    { kind := .room { title := "Hall" } },
    { kind := .code { keyword := .say, arguments := [""] } }]

/-- The argument of the statement is lost: its record, the second one, has no arguments. -/
theorem list_codeArguments_lost : ∃ bytes art r,
    (compile {} hush .fresh).result = .ok bytes ∧ Artifact.decode bytes = .ok art ∧
    art.records[1]? = some r ∧ r.list .codeArguments = .ok [] ∧
    r.list .codeArguments ≠ .ok [""] := by
  have hcompilable : hush.Compilable {} .fresh :=
    Adventure.compilable_iff.2 ⟨by rfl, by decide⟩
  obtain ⟨named, rest, ids, art, _, hart, heq⟩ := compile_of_compilable hcompilable
  obtain ⟨r, hr, hrecord⟩ := Steps.exists_getElem?_right hart.records (i := 1) rfl
  have hwritable := Adventure.forall_mem_handled.2 hcompilable.payloads.objects
  have hlist := hrecord.list_codeArguments (hwritable _ (.tail _ (.head _))) rfl rfl
  refine ⟨art.bytes, art, r, by rw [heq], ?_, hr, hlist, ?_⟩
  · exact Artifact.decode_bytes (hart.writable hcompilable.payloads)
  · rw [hlist]
    intro h
    cases h

end TextAdventure
