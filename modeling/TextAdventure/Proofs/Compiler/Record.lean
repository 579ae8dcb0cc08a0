import TextAdventure.Compiler
import TextAdventure.Proofs.Steps

/-!
# What an object is written as

An object becomes a record in which every object it names goes by its identifier. Here that record
is given outright, by the name of each object in decimal (`Adventure.RecordOf`), and the compiler is
shown to make it exactly when it can: the object itself and all it must name have identifiers, and
it has a rendering or is of a kind that has fields (`record_eq_ok_iff`).

Every step of the compiler that names objects is described in the same way: it succeeds exactly if
all objects it names have identifiers, and then its result is the given one.
-/

namespace TextAdventure

/-! ## The texts and fields of a record -/

mutual

/-- The text of a property's value, in which `name` says what objects are called. -/
def PropertyValue.shown (name : Handle → String) : PropertyValue → String
  | .text value => value
  | .integer value => Numeral.printInt value.toInt
  | .float value => value.print
  | .boolean true => "true"
  | .boolean false => "false"
  | .list items => "[" ++ ", ".intercalate (PropertyValue.shownAll name items) ++ "]"
  | .object target => name target

/-- The texts of the values of a list. -/
def PropertyValue.shownAll (name : Handle → String) : List PropertyValue → List String
  | [] => []
  | item :: items => item.shown name :: PropertyValue.shownAll name items

end

/-- The properties of an object as texts, in the order of their names. -/
def Properties.shown (name : Handle → String) (properties : Properties) : List (String × String) :=
  properties.entries.map fun (key, value) => (key, value.shown name)

open Adventure (textField listField pairsField numbered)

/-- The fields of a description block. -/
def Descriptions.fields (name : Handle → String) (d : Descriptions) : List Field :=
  [textField .firstEntry d.firstEntry, textField .usual d.usual,
    pairsField .pickedUp (d.whenPickedUp.entries.map fun (item, text) => (name item, text)),
    pairsField .custom d.custom.entries]

/-- The entries of a mapping from directions to objects. -/
def exitTexts (name : Handle → String) (exits : SortedMap Direction Handle) :
    List (String × String) :=
  exits.entries.map fun (direction, target) => (Numeral.print direction.code.toNat, name target)

/-- The fields of a room with an identifier. -/
def Room.fields (name : Handle → String) (id : ObjectId) (r : Room) : List Field :=
  [textField .roomName r.title, textField .description id.print] ++ r.descriptions.fields name
    ++ [pairsField .exits (exitTexts name r.exits),
      pairsField .exitDescriptions (exitTexts name r.exitDescriptions),
      pairsField .roomItems (numbered (r.items.map name))]

namespace Kind

/-- The kind of record that an object is written as; the author's own kinds have none. -/
def recordKind? : Kind → Option RecordKind
  | .room _ => some .room
  | .item _ => some .item
  | .descriptions _ => some .descriptions
  | .argument _ => some .argument
  | .code _ => some .code
  | .verb _ => some .verb
  | .custom _ => none

/-- The fields of an object with an identifier, in file order. -/
def fields (name : Handle → String) (id : ObjectId) : Kind → List Field
  | .room r => r.fields name id
  | .item title => [textField .itemName title]
  | .descriptions d => d.fields name
  | .argument x =>
    [⟨.argumentType, [argumentTypeMark, x.type.code]⟩, textField .argumentName x.name]
  | .code c =>
    [⟨.codeKeyword, [keywordMark, c.keyword.code]⟩, listField .codeArguments c.arguments,
      listField .codeChildren (c.children.map name)]
  | .verb v =>
    [textField .verbName v.name, listField .verbArguments (v.arguments.map name),
      listField .verbBody (v.body.map name)]
  | .custom _ => []

end Kind

namespace GameObject

/-- The objects that the record of an object names: those in its fields, unless a rendering stands
for them, and those in its properties. -/
def written (o : GameObject) : List Handle :=
  (if o.rendering.isSome then [] else o.kind.references) ++ o.properties.references

/-- Whether an object has a rendering, or fields to be written with. -/
def HasBody (o : GameObject) : Prop := o.rendering.isSome = true ∨ o.kind.recordKind?.isSome = true

end GameObject

namespace Adventure

/-- The object behind a handle has an identifier. -/
def Named (a : Adventure) (h : Handle) : Prop := (a.idOf? h).isSome = true

/-- The identifier of the object behind a handle in decimal, and no text if it has none. -/
def idText (a : Adventure) (h : Handle) : String := ((a.idOf? h).map ObjectId.print).getD ""

/-- The record that an object is written as. -/
structure RecordOf (a : Adventure) (h : Handle) (o : GameObject) (r : Record) : Prop where
  /-- The record bears the identifier of the object. -/
  id : a.idOf? h = some r.id
  /-- A rendering takes the place of the fields. -/
  rendered : ∀ text, o.rendering = some text → r.body = .rendered text
  /-- Without a rendering, the record has the kind of the object and its fields. -/
  typed : o.rendering = none → ∃ kind, o.kind.recordKind? = some kind ∧
    r.body = .typed kind (o.kind.fields a.idText r.id)
  /-- The properties are written as texts. -/
  properties : r.properties = o.properties.shown a.idText

/-! ## Naming objects -/

section
variable {a : Adventure} {source : Handle}

/-- An object with an identifier is called by it. -/
theorem idText_of_idOf? {h : Handle} {id : ObjectId} (hid : a.idOf? h = some id) :
    a.idText h = id.print := by
  rw [idText, hid]
  rfl

/-- A reference is resolved exactly if its object has an identifier. -/
theorem resolve_eq_ok_iff {source : Option Handle} {target : Handle} {id : ObjectId} :
    a.resolve source target = .ok id ↔ a.idOf? target = some id := by
  unfold resolve
  cases a.idOf? target with
  | none => simp
  | some found => simp

/-- Anything made of a resolved reference's numeral is made exactly if the object has an
identifier. -/
theorem map_resolve_eq_ok_iff {β : Type} {source : Option Handle} {target : Handle}
    (g : String → β) {y : β} :
    ((a.resolve source target).map fun id => g id.print) = .ok y ↔
      a.Named target ∧ y = g (a.idText target) := by
  unfold resolve Named idText
  cases a.idOf? target with
  | none => simp [Except.map]
  | some found => simp [Except.map, eq_comm]

/-- References are resolved exactly if all their objects have identifiers. -/
theorem resolveAll_eq_ok_iff {targets : List Handle} {texts : List String} :
    a.resolveAll source targets = .ok texts ↔
      (∀ t ∈ targets, a.Named t) ∧ texts = targets.map a.idText :=
  Steps.mapM_eq_ok_iff_of fun _ _ => map_resolve_eq_ok_iff fun text => text

/-- The entries of a mapping from directions to objects are made exactly if all these have
identifiers. -/
theorem exitEntries_eq_ok_iff {exits : SortedMap Direction Handle}
    {entries : List (String × String)} :
    a.exitEntries source exits = .ok entries ↔
      (∀ t ∈ exits.values, a.Named t) ∧ entries = exitTexts a.idText exits := by
  rw [SortedMap.values, List.forall_mem_map]
  exact Steps.mapM_eq_ok_iff_of fun x _ =>
    map_resolve_eq_ok_iff fun text => (Numeral.print x.1.code.toNat, text)

/-- The fields of a description block are made exactly if all items of its texts have
identifiers. -/
theorem descriptionsFields_eq_ok_iff {d : Descriptions} {fields : List Field} :
    a.descriptionsFields source d = .ok fields ↔
      (∀ t ∈ d.references, a.Named t) ∧ fields = d.fields a.idText := by
  have hpickedUp : ∀ entries, (d.whenPickedUp.entries.mapM fun (x : Handle × String) =>
      (a.resolve (some source) x.1).map fun id => (id.print, x.2)) = .ok entries ↔
      (∀ x ∈ d.whenPickedUp.entries, a.Named x.1) ∧
        entries = d.whenPickedUp.entries.map fun x => (a.idText x.1, x.2) := fun _ =>
    Steps.mapM_eq_ok_iff_of fun x _ => map_resolve_eq_ok_iff fun text => (text, x.2)
  rw [Descriptions.references, SortedMap.keys, List.forall_mem_map, descriptionsFields,
    Steps.bind_eq_ok_iff]
  constructor
  · rintro ⟨entries, hentries, h⟩
    obtain ⟨hnamed, rfl⟩ := (hpickedUp entries).1 hentries
    exact ⟨hnamed, (Except.ok.inj h).symm⟩
  · rintro ⟨hnamed, rfl⟩
    exact ⟨_, (hpickedUp _).2 ⟨hnamed, rfl⟩, rfl⟩

/-- The fields of a room are made exactly if all objects it names have identifiers. -/
theorem roomFields_eq_ok_iff {id : ObjectId} {r : Room} {fields : List Field} :
    a.roomFields source id r = .ok fields ↔
      (∀ t ∈ r.references, a.Named t) ∧ fields = r.fields a.idText id := by
  simp only [roomFields, Steps.bind_eq_ok_iff, descriptionsFields_eq_ok_iff,
    exitEntries_eq_ok_iff, resolveAll_eq_ok_iff, Room.references, List.forall_mem_append]
  constructor
  · rintro ⟨_, ⟨hd, rfl⟩, _, ⟨he, rfl⟩, _, ⟨hx, rfl⟩, _, ⟨hi, rfl⟩, h⟩
    exact ⟨⟨⟨⟨hd, he⟩, hx⟩, hi⟩, (Except.ok.inj h).symm⟩
  · rintro ⟨⟨⟨⟨hd, he⟩, hx⟩, hi⟩, rfl⟩
    exact ⟨_, ⟨hd, rfl⟩, _, ⟨he, rfl⟩, _, ⟨hx, rfl⟩, _, ⟨hi, rfl⟩, rfl⟩

/-- The body of an object without a rendering is made exactly if its kind has fields and all objects
that these name have identifiers. -/
theorem kindBody_eq_ok_iff {id : ObjectId} {kind : Kind} {body : Body} :
    a.kindBody source id kind = .ok body ↔ (∀ t ∈ kind.references, a.Named t) ∧
      ∃ k, kind.recordKind? = some k ∧ body = .typed k (kind.fields a.idText id) := by
  cases kind with
  | room r =>
    simp only [kindBody, Steps.bind_eq_ok_iff, roomFields_eq_ok_iff, Kind.references,
      Kind.recordKind?, Kind.fields]
    constructor
    · rintro ⟨_, ⟨hr, rfl⟩, h⟩
      exact ⟨hr, _, rfl, (Except.ok.inj h).symm⟩
    · rintro ⟨hr, _, hk, rfl⟩
      cases hk
      exact ⟨_, ⟨hr, rfl⟩, rfl⟩
  | item title | argument x =>
    simp only [kindBody, Kind.references, Kind.recordKind?, Kind.fields]
    constructor
    · intro h
      exact ⟨fun _ ht => (nomatch ht), _, rfl, (Except.ok.inj h).symm⟩
    · rintro ⟨_, _, hk, rfl⟩
      cases hk
      rfl
  | descriptions d =>
    simp only [kindBody, Steps.bind_eq_ok_iff, descriptionsFields_eq_ok_iff, Kind.references,
      Kind.recordKind?, Kind.fields]
    constructor
    · rintro ⟨_, ⟨hd, rfl⟩, h⟩
      exact ⟨hd, _, rfl, (Except.ok.inj h).symm⟩
    · rintro ⟨hd, _, hk, rfl⟩
      cases hk
      exact ⟨_, ⟨hd, rfl⟩, rfl⟩
  | code c =>
    simp only [kindBody, Steps.bind_eq_ok_iff, resolveAll_eq_ok_iff, Kind.references,
      Kind.recordKind?, Kind.fields]
    constructor
    · rintro ⟨_, ⟨hc, rfl⟩, h⟩
      exact ⟨hc, _, rfl, (Except.ok.inj h).symm⟩
    · rintro ⟨hc, _, hk, rfl⟩
      cases hk
      exact ⟨_, ⟨hc, rfl⟩, rfl⟩
  | verb v =>
    simp only [kindBody, Steps.bind_eq_ok_iff, resolveAll_eq_ok_iff, Kind.references,
      Kind.recordKind?, Kind.fields, List.forall_mem_append]
    constructor
    · rintro ⟨_, ⟨ha, rfl⟩, _, ⟨hb, rfl⟩, h⟩
      exact ⟨⟨ha, hb⟩, _, rfl, (Except.ok.inj h).symm⟩
    · rintro ⟨⟨ha, hb⟩, _, hk, rfl⟩
      cases hk
      exact ⟨_, ⟨ha, rfl⟩, _, ⟨hb, rfl⟩, rfl⟩
  | custom title =>
    simp [kindBody, Kind.recordKind?]

mutual

/-- The text of a value is made exactly if all objects in it have identifiers. -/
theorem propertyText_eq_ok_iff : ∀ (value : PropertyValue) {text : String},
    a.propertyText source value = .ok text ↔
      (∀ t ∈ value.references, a.Named t) ∧ text = value.shown a.idText
  | .text value, text | .integer value, text | .float value, text | .boolean true, text
  | .boolean false, text => by
      simp [propertyText, PropertyValue.references, PropertyValue.shown, eq_comm]
  | .list items, text => by
      rw [propertyText, Steps.bind_eq_ok_iff, PropertyValue.references, PropertyValue.shown]
      constructor
      · rintro ⟨texts, htexts, h⟩
        obtain ⟨hnamed, rfl⟩ := (propertyTexts_eq_ok_iff items).1 htexts
        exact ⟨hnamed, (Except.ok.inj h).symm⟩
      · rintro ⟨hnamed, rfl⟩
        exact ⟨_, (propertyTexts_eq_ok_iff items).2 ⟨hnamed, rfl⟩, rfl⟩
  | .object target, text => by
      rw [propertyText, PropertyValue.references, PropertyValue.shown, List.forall_mem_singleton]
      exact map_resolve_eq_ok_iff fun text => text

/-- The texts of the values of a list are made exactly if all objects in them have identifiers. -/
theorem propertyTexts_eq_ok_iff : ∀ (values : List PropertyValue) {texts : List String},
    a.propertyTexts source values = .ok texts ↔
      (∀ t ∈ PropertyValue.referencesList values, a.Named t) ∧
        texts = PropertyValue.shownAll a.idText values
  | [], texts => by
      simp [propertyTexts, PropertyValue.referencesList, PropertyValue.shownAll, eq_comm]
  | value :: values, texts => by
      rw [propertyTexts, Steps.bind_eq_ok_iff, PropertyValue.referencesList,
        PropertyValue.shownAll, List.forall_mem_append]
      constructor
      · rintro ⟨text, htext, h⟩
        obtain ⟨hvalue, rfl⟩ := (propertyText_eq_ok_iff value).1 htext
        obtain ⟨texts, htexts, h⟩ := Steps.bind_eq_ok_iff.1 h
        obtain ⟨hvalues, rfl⟩ := (propertyTexts_eq_ok_iff values).1 htexts
        exact ⟨⟨hvalue, hvalues⟩, (Except.ok.inj h).symm⟩
      · rintro ⟨⟨hvalue, hvalues⟩, rfl⟩
        exact ⟨_, (propertyText_eq_ok_iff value).2 ⟨hvalue, rfl⟩, Steps.bind_eq_ok_iff.2
          ⟨_, (propertyTexts_eq_ok_iff values).2 ⟨hvalues, rfl⟩, rfl⟩⟩

end

/-- The properties of an object are made exactly if all objects in them have identifiers. -/
theorem properties_eq_ok_iff {properties : Properties} {texts : List (String × String)} :
    (properties.entries.mapM fun (x : String × PropertyValue) =>
        (a.propertyText source x.2).map fun text => (x.1, text)) = .ok texts ↔
      (∀ t ∈ properties.references, a.Named t) ∧ texts = properties.shown a.idText := by
  have hreferences : (∀ t ∈ properties.references, a.Named t) ↔
      ∀ x ∈ properties.entries, ∀ t ∈ x.2.references, a.Named t := by
    simp only [Properties.references, SortedMap.values, List.mem_flatMap, List.mem_map]
    exact ⟨fun h x hx t ht => h t ⟨_, ⟨x, hx, rfl⟩, ht⟩,
      fun h t ⟨_, ⟨x, hx, hv⟩, ht⟩ => h x hx t (hv ▸ ht)⟩
  rw [hreferences]
  refine Steps.mapM_eq_ok_iff_of fun x y => ?_
  rw [Steps.map_eq_ok_iff]
  constructor
  · rintro ⟨text, htext, rfl⟩
    obtain ⟨hnamed, rfl⟩ := (propertyText_eq_ok_iff x.2).1 htext
    exact ⟨hnamed, rfl⟩
  · rintro ⟨hnamed, rfl⟩
    exact ⟨_, (propertyText_eq_ok_iff x.2).2 ⟨hnamed, rfl⟩, rfl⟩

/-! ## Records -/

/-- The body that an object is written with. -/
def objectBody (a : Adventure) (h : Handle) (id : ObjectId) (o : GameObject) :
    Except CompileError Body :=
  match o.rendering with
  | some text => .ok (.rendered text)
  | none => a.kindBody h id o.kind

/-- A record is made in three steps: identifier, body, properties. -/
theorem record_eq (h : Handle) (o : GameObject) : a.record h o = (do
    let id ← a.resolve none h
    let body ← a.objectBody h id o
    let properties ← o.properties.entries.mapM fun (x : String × PropertyValue) =>
      (a.propertyText h x.2).map fun text => (x.1, text)
    return { id, body, properties }) := by
  unfold record objectBody
  cases o.rendering <;> rfl

/-- The body of an object is its rendering. Without one it is made exactly if the object's kind has
fields and all objects that these name have identifiers. -/
theorem objectBody_eq_ok_iff {h : Handle} {id : ObjectId} {o : GameObject} {body : Body} :
    a.objectBody h id o = .ok body ↔
      (∀ t ∈ if o.rendering.isSome then [] else o.kind.references, a.Named t) ∧
      (∀ text, o.rendering = some text → body = .rendered text) ∧
      (o.rendering = none → ∃ kind, o.kind.recordKind? = some kind ∧
        body = .typed kind (o.kind.fields a.idText id)) := by
  unfold objectBody
  cases o.rendering with
  | some text => simp [eq_comm]
  | none => simp [kindBody_eq_ok_iff]

/-- An object is written as a record exactly if all objects that the record names have
identifiers. -/
theorem record_eq_ok_iff {h : Handle} {o : GameObject} {r : Record} :
    a.record h o = .ok r ↔ (∀ t ∈ o.written, a.Named t) ∧ a.RecordOf h o r := by
  simp only [record_eq, Steps.bind_eq_ok_iff, resolve_eq_ok_iff, objectBody_eq_ok_iff,
    properties_eq_ok_iff, GameObject.written, List.forall_mem_append]
  constructor
  · rintro ⟨id, hid, body, ⟨hkind, hrendered, htyped⟩, _, ⟨hnamed, rfl⟩, hr⟩
    cases hr
    exact ⟨⟨hkind, hnamed⟩, hid, hrendered, htyped, rfl⟩
  · rintro ⟨⟨hkind, hnamed⟩, hid, hrendered, htyped, hproperties⟩
    refine ⟨r.id, hid, r.body, ⟨hkind, hrendered, htyped⟩, _, ⟨hnamed, rfl⟩, ?_⟩
    rw [← hproperties]
    rfl

/-- An object that has an identifier and a body has a record. -/
theorem exists_recordOf {h : Handle} {o : GameObject} (hid : a.Named h) (hbody : o.HasBody) :
    ∃ r, a.RecordOf h o r := by
  obtain ⟨id, hid⟩ := Option.isSome_iff_exists.1 hid
  cases hrendering : o.rendering with
  | some text =>
    refine ⟨⟨id, .rendered text, o.properties.shown a.idText⟩, hid, ?_, ?_, rfl⟩
    · intro found hfound
      cases hrendering.symm.trans hfound
      rfl
    · intro hnone
      cases hrendering.symm.trans hnone
  | none =>
    obtain ⟨k, hk⟩ : ∃ k, o.kind.recordKind? = some k := by
      rcases hbody with hbody | hbody
      · rw [hrendering] at hbody
        cases hbody
      · exact Option.isSome_iff_exists.1 hbody
    refine ⟨⟨id, .typed k (o.kind.fields a.idText id), o.properties.shown a.idText⟩, hid, ?_,
      fun _ => ⟨k, hk, rfl⟩, rfl⟩
    intro found hfound
    cases hrendering.symm.trans hfound

end

end Adventure

end TextAdventure
