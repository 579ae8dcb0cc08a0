import Mathlib.Data.List.Nodup
import Mathlib.Data.List.Pairwise
import TextAdventure.Proofs.Adventure.Validation

/-!
# Well-formed adventures

Validation goes by lists that are drawn up elsewhere: the roles that an object gives to others, all
the handles that it names, the handles in its properties. Here it is said without these lists what an
adventure must be like, field by field and kind by kind (`WellFormed`), and validation is shown to
accept exactly such adventures (`validate_accepts_iff`).

So a field that the lists forget would come to light, and so would one that asks for the wrong kind.
The handles that the fields name are exactly the targets of the roles (`map_target_links`), the handles
in properties are those at any depth of a value (`mem_references_iff`), and no identifier is held twice
exactly if it tells its holder (`nodup_heldIds_iff`).
-/

namespace TextAdventure

/-! ## Handles in properties -/

/-- The value is the object, or a list in which a value mentions it. -/
inductive PropertyValue.Mentions (t : Handle) : PropertyValue → Prop
  | object : Mentions t (.object t)
  | list {items : List PropertyValue} {value : PropertyValue} :
      value ∈ items → Mentions t value → Mentions t (.list items)

/-- The value of a property mentions the object. -/
def Properties.Mentions (properties : Properties) (t : Handle) : Prop :=
  ∃ e ∈ properties.entries, e.2.Mentions t

mutual

/-- The walk through a value meets exactly the objects that it mentions. -/
theorem PropertyValue.mem_references_iff {t : Handle} :
    ∀ {value : PropertyValue}, t ∈ value.references ↔ value.Mentions t
  | .text _ | .integer _ | .float _ | .boolean _ => by
      constructor
      · intro h
        simp [references] at h
      · intro h
        cases h
  | .object target => by
      rw [references, List.mem_singleton]
      constructor
      · rintro rfl
        exact .object
      · intro h
        cases h
        rfl
  | .list items => by
      rw [references, mem_referencesList_iff]
      constructor
      · rintro ⟨value, hvalue, h⟩
        exact .list hvalue h
      · intro h
        cases h with
        | list hvalue h => exact ⟨_, hvalue, h⟩

/-- The walk through a list meets exactly the objects that its values mention. -/
theorem PropertyValue.mem_referencesList_iff {t : Handle} :
    ∀ {values : List PropertyValue},
      t ∈ referencesList values ↔ ∃ value ∈ values, value.Mentions t
  | [] => by simp [referencesList]
  | value :: values => by
      rw [referencesList, List.mem_append, mem_references_iff, mem_referencesList_iff,
        List.exists_mem_cons_iff]

end

/-- The objects listed for properties are those that they mention. -/
theorem Properties.mem_references_iff {properties : Properties} {t : Handle} :
    t ∈ properties.references ↔ properties.Mentions t := by
  simp only [references, SortedMap.values, List.mem_flatMap, List.mem_map,
    PropertyValue.mem_references_iff]
  constructor
  · rintro ⟨_, ⟨e, he, rfl⟩, h⟩
    exact ⟨e, he, h⟩
  · rintro ⟨e, he, h⟩
    exact ⟨_, ⟨e, he, rfl⟩, h⟩

/-! ## Kinds and roles -/

/-- The kinds that can be expected. An object of the author's own kind is none of them, whatever its
kind is called. -/
inductive Expected.Admits : Expected → Kind → Prop
  | room (r : Room) : Admits .room (.room r)
  | item (name : String) : Admits .item (.item name)
  | descriptions (d : Descriptions) : Admits .descriptions (.descriptions d)
  | argument (x : Argument) : Admits .argument (.argument x)
  | code (c : Code) : Admits .code (.code c)

/-- The test of kinds decides which kinds are admitted. -/
theorem Expected.accepts_iff {expected : Expected} {kind : Kind} :
    expected.accepts kind = true ↔ expected.Admits kind := by
  constructor
  · intro h
    unfold accepts at h
    split at h
    next r => exact .room r
    next name => exact .item name
    next d => exact .descriptions d
    next x => exact .argument x
    next c => exact .code c
    next => cases h
  · intro h
    cases h <;> rfl

/-- The objects to which a kind gives roles are those that its fields name, in the same order. -/
theorem Kind.map_target_links (kind : Kind) : kind.links.map Link.target = kind.references := by
  have hrole : ∀ (role : Role) (targets : List Handle),
      (role.links targets).map Link.target = targets := by
    intro role targets
    rw [Role.links, List.map_map]
    exact List.map_id targets
  cases kind with
  | room r =>
    simp only [links, Descriptions.links, references, Room.references, Descriptions.references,
      List.map_append, hrole]
  | descriptions d => exact hrole _ _
  | code c => exact hrole _ _
  | verb v => simp only [links, references, List.map_append, hrole]
  | item name | argument x | custom name => rfl

namespace Adventure

variable {a : Adventure}

/-- The object behind the handle is of the expected kind. -/
def IsA (a : Adventure) (expected : Expected) (t : Handle) : Prop :=
  ∃ o, a.object? t = some o ∧ expected.Admits o.kind

/-- A role is filled by an object of the kind that it calls for. -/
theorem fills_iff {role : Role} {t : Handle} : a.Fills ⟨role, t⟩ ↔ a.IsA role.expected t := by
  simp only [Fills, IsA, Expected.accepts_iff]

/-- What fills a link is registered. -/
theorem Fills.registered {link : Link} (h : a.Fills link) : a.Registered link.target := by
  obtain ⟨o, ho, _⟩ := h
  rw [Registered, ho]
  rfl

/-! ## Well-formed objects -/

/-- What the fields of a kind name is of the right kind. -/
def FieldsWellFormed (a : Adventure) : Kind → Prop
  | .room r => (∀ t ∈ r.exits.values, a.IsA .room t) ∧
      (∀ t ∈ r.exitDescriptions.values, a.IsA .descriptions t) ∧
      (∀ t ∈ r.items, a.IsA .item t) ∧ ∀ t ∈ r.descriptions.whenPickedUp.keys, a.IsA .item t
  | .descriptions d => ∀ t ∈ d.whenPickedUp.keys, a.IsA .item t
  | .code c => ∀ t ∈ c.children, a.IsA .code t
  | .verb v => (∀ t ∈ v.arguments, a.IsA .argument t) ∧ ∀ t ∈ v.body, a.IsA .code t
  | .item _ => True
  | .argument _ => True
  | .custom _ => True

/-- All roles that a kind gives are filled exactly if its fields are well formed. -/
theorem fieldsWellFormed_iff {kind : Kind} :
    a.FieldsWellFormed kind ↔ ∀ link ∈ kind.links, a.Fills link := by
  have hrole : ∀ (role : Role) (targets : List Handle),
      (∀ link ∈ role.links targets, a.Fills link) ↔ ∀ t ∈ targets, a.IsA role.expected t := by
    intro role targets
    rw [Role.links, List.forall_mem_map]
    simp only [fills_iff]
  cases kind with
  | room r =>
    simp only [Kind.links, Descriptions.links, List.forall_mem_append, hrole]
    constructor
    · rintro ⟨hexits, hdescriptions, hitems, hpickedUp⟩
      exact ⟨⟨⟨hpickedUp, hexits⟩, hdescriptions⟩, hitems⟩
    · rintro ⟨⟨⟨hpickedUp, hexits⟩, hdescriptions⟩, hitems⟩
      exact ⟨hexits, hdescriptions, hitems, hpickedUp⟩
  | descriptions d => exact (hrole .pickedUpText d.whenPickedUp.keys).symm
  | code c => exact (hrole .codeChild c.children).symm
  | verb v =>
    simp only [Kind.links, List.forall_mem_append, hrole]
    exact Iff.rfl
  | item name | argument x | custom name => simp [FieldsWellFormed, Kind.links]

/-- An object is sound exactly if its fields are well formed and its properties mention registered
objects. That the objects in its fields are registered follows from their kinds. -/
theorem objectSound_iff {o : GameObject} : a.ObjectSound o ↔
    a.FieldsWellFormed o.kind ∧ ∀ t, o.properties.Mentions t → a.Registered t := by
  rw [fieldsWellFormed_iff]
  constructor
  · rintro ⟨hlinks, hreferences⟩
    refine ⟨hlinks, fun t ht => hreferences t ?_⟩
    exact List.mem_append_right _ (Properties.mem_references_iff.2 ht)
  · rintro ⟨hlinks, hproperties⟩
    refine ⟨hlinks, fun t ht => ?_⟩
    rcases List.mem_append.1 ht with ht | ht
    · rw [← Kind.map_target_links] at ht
      obtain ⟨link, hlink, rfl⟩ := List.mem_map.1 ht
      exact (hlinks link hlink).registered
    · exact hproperties t (Properties.mem_references_iff.1 ht)

/-! ## Holders of identifiers -/

/-- The identifier of the adventure itself, or of the object behind a handle. -/
def heldBy? (a : Adventure) : Option Handle → Option ObjectId
  | none => a.id
  | some h => a.idOf? h

/-- The adventure itself and the handles of its objects. -/
def holders (a : Adventure) : List (Option Handle) := none :: (a.handled.map (·.1)).map some

/-- No holder of identifiers is listed twice. -/
theorem nodup_holders (a : Adventure) : a.holders.Nodup := by
  have hhandles : (a.handled.map (·.1)).Nodup := by
    rw [map_fst_handled]
    refine List.Nodup.map ?_ List.nodup_range
    intro i j h
    exact congrArg Handle.index h
  exact List.nodup_cons.2 ⟨by simp, hhandles.map fun _ _ => Option.some.inj⟩

/-- Whoever holds an identifier is the adventure or one of its objects. -/
theorem mem_holders {holder : Option Handle} {id : ObjectId} (h : a.heldBy? holder = some id) :
    holder ∈ a.holders := by
  cases holder with
  | none => exact List.mem_cons_self
  | some t =>
    obtain ⟨o, ho, _⟩ := Option.bind_eq_some_iff.1 h
    have hmem : t ∈ a.handled.map (·.1) := List.mem_map.2 ⟨(t, o), mem_handled.2 ho, rfl⟩
    exact List.mem_cons_of_mem _ (List.mem_map_of_mem hmem)

/-- The identifiers that are held are those of the holders. -/
theorem heldIds_eq_filterMap (a : Adventure) : a.heldIds = a.holders.filterMap a.heldBy? := by
  have hobjects : a.objects.filterMap GameObject.id =
      ((a.handled.map (·.1)).map some).filterMap a.heldBy? := by
    rw [← map_snd_handled a, List.filterMap_map, List.filterMap_map, List.filterMap_map]
    refine List.filterMap_congr ?_
    intro x hx
    exact (idOf?_of_mem_handled hx).symm
  rw [heldIds, hobjects, holders]
  cases hid : a.id <;> simp [heldBy?, hid]

/-- No identifier is held twice exactly if each tells who holds it. -/
theorem nodup_heldIds_iff : a.heldIds.Nodup ↔
    ∀ p q id, a.heldBy? p = some id → a.heldBy? q = some id → p = q := by
  rw [heldIds_eq_filterMap]
  constructor
  · intro h p q id hp hq
    have hsymm : Std.Symm fun p q => ∀ id, a.heldBy? p = some id →
        ∀ other, a.heldBy? q = some other → id ≠ other :=
      ⟨fun p q hpq id hid other hother => (hpq other hother id hid).symm⟩
    by_contra hne
    exact (List.pairwise_filterMap.1 h).forall (mem_holders hp) (mem_holders hq) hne id hp id hq rfl
  · intro h
    refine List.Nodup.filterMap ?_ a.nodup_holders
    intro p q id hp hq
    exact h p q id hp hq

/-! ## Well-formed adventures -/

/-- An adventure in which everything that is named is there and is what it should be. -/
structure WellFormed (a : Adventure) : Prop where
  /-- The start is declared and is a room. -/
  start : ∃ h, a.start = some h ∧ a.IsA .room h
  /-- The properties of the adventure mention registered objects. -/
  properties : ∀ t, a.properties.Mentions t → a.Registered t
  /-- The fields of every object name objects of the right kinds. -/
  fields : ∀ h o, a.object? h = some o → a.FieldsWellFormed o.kind
  /-- The properties of every object mention registered objects. -/
  objectProperties : ∀ h o, a.object? h = some o →
    ∀ t, o.properties.Mentions t → a.Registered t
  /-- No two of the adventure and its objects hold the same identifier. -/
  ids : ∀ p q id, a.heldBy? p = some id → a.heldBy? q = some id → p = q

/-- Validation accepts exactly the well-formed adventures. -/
theorem validate_accepts_iff (a : Adventure) : a.validate = .ok () ↔ a.WellFormed := by
  rw [validate_eq_ok_iff]
  constructor
  · intro h
    have hobjects : ∀ t o, a.object? t = some o → a.FieldsWellFormed o.kind ∧
        ∀ t, o.properties.Mentions t → a.Registered t := by
      intro t o ho
      exact objectSound_iff.1 (h.objects o (mem_objects_of_object? ho))
    obtain ⟨start, hstart, hfills⟩ := h.start
    exact ⟨⟨start, hstart, fills_iff.1 hfills⟩,
      fun t ht => h.properties t (Properties.mem_references_iff.2 ht),
      fun t o ho => (hobjects t o ho).1, fun t o ho => (hobjects t o ho).2,
      nodup_heldIds_iff.1 h.ids⟩
  · intro h
    obtain ⟨start, hstart, hroom⟩ := h.start
    refine ⟨⟨start, hstart, fills_iff.2 hroom⟩,
      fun t ht => h.properties t (Properties.mem_references_iff.1 ht), ?_,
      nodup_heldIds_iff.2 h.ids⟩
    rw [← forall_mem_handled]
    intro x hx
    have ho := mem_handled.1 hx
    exact objectSound_iff.2 ⟨h.fields _ _ ho, h.objectProperties _ _ ho⟩

end Adventure

end TextAdventure
