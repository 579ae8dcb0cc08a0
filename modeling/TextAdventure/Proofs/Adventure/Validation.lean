import TextAdventure.Adventure.Validation
import TextAdventure.Proofs.Steps

/-!
# What validation accepts

Validation passes exactly the sound adventures (`validate_eq_ok_iff`): the start is a room, all that
is named is registered and fills its role, and no identifier is held twice. The walk over the
objects carries the identifiers met so far; its description says that the objects still to come hold
distinct identifiers, none of which has been met (`checkObjects_eq_ok_iff`).
-/

namespace TextAdventure.Adventure

variable {a : Adventure}

/-! ## Sound adventures -/

/-- An object stands behind the handle. -/
def Registered (a : Adventure) (h : Handle) : Prop := (a.object? h).isSome = true

/-- The object that a reference names is of the kind that its role calls for. -/
def Fills (a : Adventure) (link : Link) : Prop :=
  ∃ o, a.object? link.target = some o ∧ link.role.expected.accepts o.kind = true

/-- The identifiers that the adventure and its objects have, its own first. -/
def heldIds (a : Adventure) : List ObjectId := a.id.toList ++ a.objects.filterMap GameObject.id

/-- All references of an object lead to objects, and those with a role to objects that fill it. -/
structure ObjectSound (a : Adventure) (o : GameObject) : Prop where
  links : ∀ link ∈ o.kind.links, a.Fills link
  references : ∀ t ∈ o.references, a.Registered t

/-- An adventure that can be compiled as far as its references and identifiers go. -/
structure Sound (a : Adventure) : Prop where
  /-- The start is a room. -/
  start : ∃ h, a.start = some h ∧ a.Fills ⟨.startingRoom, h⟩
  /-- The properties of the adventure name registered objects. -/
  properties : ∀ t ∈ a.properties.references, a.Registered t
  objects : ∀ o ∈ a.objects, a.ObjectSound o
  /-- No identifier is held twice. -/
  ids : a.heldIds.Nodup

/-! ## Objects and handles -/

/-- The objects with their handles are the objects in order. -/
theorem map_snd_handled (a : Adventure) : a.handled.map (·.2) = a.objects := by
  rw [handled, List.map_map]
  exact List.zipIdx_map_fst ..

/-- The handles of the objects are their numbers. -/
theorem map_fst_handled (a : Adventure) :
    a.handled.map (·.1) = (List.range a.objects.length).map Handle.mk := by
  rw [handled, List.map_map, List.range_eq_range', ← List.zipIdx_map_snd 0 a.objects, List.map_map]
  rfl

/-- The objects with their handles are those behind the handles. -/
theorem mem_handled {h : Handle} {o : GameObject} : (h, o) ∈ a.handled ↔ a.object? h = some o := by
  simp only [handled, List.mem_map, object?]
  constructor
  · rintro ⟨⟨found, i⟩, hfound, heq⟩
    cases heq
    exact List.mem_zipIdx_iff_getElem?.1 hfound
  · intro ho
    exact ⟨(o, h.index), List.mem_zipIdx_iff_getElem?.2 ho, rfl⟩

/-- The identifier behind a handle is that of the object there. -/
theorem idOf?_of_mem_handled {x : Handle × GameObject} (hx : x ∈ a.handled) :
    a.idOf? x.1 = x.2.id := by
  rw [idOf?, mem_handled.1 hx]
  rfl

/-- An object behind a handle is one of the objects. -/
theorem mem_objects_of_object? {h : Handle} {o : GameObject} (ho : a.object? h = some o) :
    o ∈ a.objects :=
  List.mem_of_getElem? ho

/-- What holds of all objects holds of all objects with handles. -/
theorem forall_mem_handled {P : GameObject → Prop} :
    (∀ x ∈ a.handled, P x.2) ↔ ∀ o ∈ a.objects, P o := by
  rw [← map_snd_handled a, List.forall_mem_map]

/-! ## Single checks -/

/-- The check of a registration passes exactly on registered objects. -/
theorem checkRegistered_eq_ok_iff {source : Option Handle} {target : Handle} :
    a.checkRegistered source target = .ok () ↔ a.Registered target := by
  unfold checkRegistered Registered
  cases a.object? target <;> simp

/-- The check of a reference with a role passes exactly if the role is filled. -/
theorem checkLink_eq_ok_iff {source : Option Handle} {link : Link} :
    a.checkLink source link = .ok () ↔ a.Fills link := by
  unfold checkLink Fills
  cases a.object? link.target with
  | none => simp
  | some o => simp

/-- The check of the start passes exactly if the start is a room. -/
theorem checkStart_eq_ok_iff :
    a.checkStart = .ok () ↔ ∃ h, a.start = some h ∧ a.Fills ⟨.startingRoom, h⟩ := by
  unfold checkStart
  cases a.start with
  | none => simp
  | some start => simp [checkLink_eq_ok_iff]

/-- An identifier has no owner exactly if it has not been met. -/
theorem lookup_eq_none_iff {owners : Owners} {id : ObjectId} :
    owners.lookup id = none ↔ id ∉ owners.map (·.1) := by
  rw [List.lookup_eq_none_iff, List.mem_map]
  constructor
  · rintro h ⟨e, he, rfl⟩
    simpa using h e he
  · intro h e he
    rw [bne_iff_ne]
    rintro rfl
    exact h ⟨e, he, rfl⟩

/-- An identifier is entered exactly if it is free. -/
theorem claimId_eq_ok_iff {owners entered : Owners} {h : Handle} {id? : Option ObjectId} :
    claimId owners h id? = .ok entered ↔ (∀ id ∈ id?.toList, id ∉ owners.map (·.1)) ∧
      entered = id?.toList.map (fun id => (id, some h)) ++ owners := by
  cases id? with
  | none => simp [claimId, eq_comm]
  | some id =>
    rw [Option.toList_some, List.forall_mem_singleton, ← lookup_eq_none_iff, claimId]
    cases owners.lookup id with
    | none => simp [eq_comm]
    | some owner => simp

/-! ## The walk over the objects -/

/-- Identifiers that are distinct and new stay so when the first of them is entered. -/
theorem nodup_append_iff {met first rest : List ObjectId} (hfirst : first.Nodup) :
    ((first ++ rest).Nodup ∧ ∀ id ∈ first ++ rest, id ∉ met) ↔
      (∀ id ∈ first, id ∉ met) ∧ rest.Nodup ∧ ∀ id ∈ rest, id ∉ first ++ met := by
  simp only [List.nodup_append, List.mem_append, not_or]
  constructor
  · rintro ⟨⟨_, hrest, hdisjoint⟩, hnew⟩
    exact ⟨fun id hid => hnew id (.inl hid), hrest, fun id hid =>
      ⟨fun hid' => hdisjoint id hid' id hid rfl, hnew id (.inr hid)⟩⟩
  · rintro ⟨hnew, hrest, hdisjoint⟩
    refine ⟨⟨hfirst, hrest, ?_⟩, ?_⟩
    · rintro id hid _ hid' rfl
      exact (hdisjoint id hid').1 hid
    · rintro id (hid | hid)
      · exact hnew id hid
      · exact (hdisjoint id hid).2

/-- The walk over the objects passes exactly if each is sound by itself and their identifiers are
distinct and new. -/
theorem checkObjects_eq_ok_iff {owners : Owners} {l : List (Handle × GameObject)} :
    a.checkObjects owners l = .ok () ↔ (∀ x ∈ l, a.ObjectSound x.2) ∧
      ((l.map (·.2)).filterMap GameObject.id).Nodup ∧
      ∀ id ∈ (l.map (·.2)).filterMap GameObject.id, id ∉ owners.map (·.1) := by
  induction l generalizing owners with
  | nil => simp [checkObjects]
  | cons x l ih =>
    obtain ⟨h, o⟩ := x
    have hids : (((h, o) :: l).map (·.2)).filterMap GameObject.id =
        o.id.toList ++ (l.map (·.2)).filterMap GameObject.id := by
      cases hid : o.id <;> simp [hid]
    have howners : (o.id.toList.map (fun id => (id, some h)) ++ owners).map (·.1) =
        o.id.toList ++ owners.map (·.1) := by
      simp [Function.comp_def]
    have hnodup : o.id.toList.Nodup := by cases o.id <;> simp
    rw [hids, nodup_append_iff hnodup, List.forall_mem_cons, checkObjects, Steps.bind_eq_ok_iff]
    constructor
    · rintro ⟨entered, hentered, hrest⟩
      obtain ⟨hnew, rfl⟩ := claimId_eq_ok_iff.1 hentered
      obtain ⟨hlinks, hrest⟩ := Steps.andThen_eq_ok_iff.1 hrest
      obtain ⟨hreferences, hrest⟩ := Steps.andThen_eq_ok_iff.1 hrest
      obtain ⟨hsound, hdistinct, hnew'⟩ := ih.1 hrest
      rw [howners] at hnew'
      exact ⟨⟨⟨fun link hl => checkLink_eq_ok_iff.1 (Steps.forM_eq_ok_iff.1 hlinks link hl),
        fun t ht => checkRegistered_eq_ok_iff.1 (Steps.forM_eq_ok_iff.1 hreferences t ht)⟩,
        hsound⟩, hnew, hdistinct, hnew'⟩
    · rintro ⟨⟨ho, hsound⟩, hnew, hdistinct, hnew'⟩
      refine ⟨_, claimId_eq_ok_iff.2 ⟨hnew, rfl⟩, Steps.andThen_eq_ok_iff.2 ⟨?_,
        Steps.andThen_eq_ok_iff.2 ⟨?_, ih.2 ⟨hsound, hdistinct, howners ▸ hnew'⟩⟩⟩⟩
      · exact Steps.forM_eq_ok_iff.2 fun link hl => checkLink_eq_ok_iff.2 (ho.links link hl)
      · exact Steps.forM_eq_ok_iff.2 fun t ht => checkRegistered_eq_ok_iff.2 (ho.references t ht)

/-- Validation passes exactly the sound adventures. -/
theorem validate_eq_ok_iff : a.validate = .ok () ↔ a.Sound := by
  have hids : a.heldIds.Nodup ↔ (a.objects.filterMap GameObject.id).Nodup ∧
      ∀ id ∈ a.objects.filterMap GameObject.id, id ∉ a.id.toList := by
    have hnodup : a.id.toList.Nodup := by cases a.id <;> simp
    simpa [heldIds] using
      @nodup_append_iff [] a.id.toList (a.objects.filterMap GameObject.id) hnodup
  have howners : (a.id.toList.map fun id => (id, (none : Option Handle))).map (·.1) =
      a.id.toList := by
    simp [Function.comp_def]
  rw [validate, Steps.andThen_eq_ok_iff, Steps.andThen_eq_ok_iff, checkStart_eq_ok_iff,
    Steps.forM_eq_ok_iff, checkObjects_eq_ok_iff, map_snd_handled, howners, ← hids]
  simp only [checkRegistered_eq_ok_iff]
  constructor
  · rintro ⟨hstart, hproperties, hobjects, hids⟩
    exact ⟨hstart, hproperties, forall_mem_handled.1 hobjects, hids⟩
  · rintro ⟨hstart, hproperties, hobjects, hids⟩
    exact ⟨hstart, hproperties, forall_mem_handled.2 hobjects, hids⟩

end TextAdventure.Adventure
