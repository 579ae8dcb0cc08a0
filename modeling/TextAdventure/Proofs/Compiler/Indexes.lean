import TextAdventure.Object.Edit
import TextAdventure.Proofs.Compiler.SharedSupply
import TextAdventure.Proofs.SortedMap

/-!
# The indexes of an adventure

An adventure is worked on from its beginning: objects are registered, with or without identifiers,
and edited in place, starts are declared, identifiers are handed out and the adventure is compiled,
with or without success. Its indexes are exact at any time (`after_indexes_exact`): the rooms, items
and verbs are listed in ascending order as long as edits keep the variants of objects, and the rooms
that hold identifiers are found by them as long as edits keep the identifiers of rooms as well.

The index by identifier is filled at two places, when a room that has an identifier is registered and
when identifiers are handed out, and an entry that is there is never replaced. So it is known by
what was entered first (`get?_indexRooms`). An entry stays right as long as the room behind it keeps
its identifier, and every room that gets one is entered. An edit is not seen by the index: a room that
loses its identifier to one is still found by it (`forgetting_findsRooms_fails`).
-/

namespace TextAdventure

/-! ## Changes that the indexes do not see -/

/-- Two kinds that are alike but for their fields. -/
inductive Kind.SameVariant : Kind → Kind → Prop
  | room (r s : Room) : SameVariant (.room r) (.room s)
  | item (m n : String) : SameVariant (.item m) (.item n)
  | descriptions (d e : Descriptions) : SameVariant (.descriptions d) (.descriptions e)
  | argument (a b : Argument) : SameVariant (.argument a) (.argument b)
  | code (c d : Code) : SameVariant (.code c) (.code d)
  | verb (v w : Verb) : SameVariant (.verb v) (.verb w)
  | custom (m n : String) : SameVariant (.custom m) (.custom n)

namespace Kind

/-- A kind has its own variant. -/
theorem SameVariant.refl : ∀ k : Kind, k.SameVariant k
  | .room r => .room r r
  | .item n => .item n n
  | .descriptions d => .descriptions d d
  | .argument a => .argument a a
  | .code c => .code c c
  | .verb v => .verb v v
  | .custom n => .custom n n

/-- A test of kinds that does not look at fields. -/
def OfVariant (belongs : Kind → Bool) : Prop :=
  ∀ {k l : Kind}, k.SameVariant l → belongs k = belongs l

/-- Whether a kind is a room is told by its variant. -/
theorem ofVariant_isRoom : OfVariant isRoom := by
  rintro _ _ ⟨⟩ <;> rfl

/-- Whether a kind is an item is told by its variant. -/
theorem ofVariant_isItem : OfVariant isItem := by
  rintro _ _ ⟨⟩ <;> rfl

/-- Whether a kind is a verb is told by its variant. -/
theorem ofVariant_isVerb : OfVariant isVerb := by
  rintro _ _ ⟨⟩ <;> rfl

end Kind

/-- Edits keep the variants of objects. -/
theorem ObjectEdit.sameVariant_apply (e : ObjectEdit) (o : GameObject) :
    (e.apply o).kind.SameVariant o.kind := by
  obtain ⟨id, properties, rendering, kind⟩ := o
  cases kind <;> constructor

namespace Action

/-- The action keeps the variants of the objects that it changes in place. -/
def KeepsVariants : Action → Prop
  | .edit _ change => ∀ o, (change o).kind.SameVariant o.kind
  | .register _ | .setStart _ | .assignIds | .compile _ => True

/-- The action keeps the identifiers of the rooms that it changes in place. -/
def KeepsRoomIds : Action → Prop
  | .edit _ change => ∀ o, o.kind.isRoom = true → (change o).id = o.id
  | .register _ | .setStart _ | .assignIds | .compile _ => True

end Action

namespace Adventure

variable {a b : Adventure}

/-! ## What the indexes should hold -/

/-- The handles of the objects whose kinds pass a test, in ascending order and each once. -/
structure Lists (a : Adventure) (belongs : Kind → Bool) (index : List Handle) : Prop where
  ascending : index.Pairwise fun h k => h.index < k.index
  mem_iff : ∀ h, h ∈ index ↔ ∃ o, a.object? h = some o ∧ belongs o.kind = true

/-- The object behind the handle is a room with the identifier. -/
def HasRoom (a : Adventure) (h : Handle) (id : ObjectId) : Prop :=
  ∃ o, a.object? h = some o ∧ o.kind.isRoom = true ∧ o.id = some id

/-- The lists of rooms, items and verbs are right. -/
structure Catalogued (a : Adventure) : Prop where
  rooms : a.Lists Kind.isRoom a.rooms
  items : a.Lists Kind.isItem a.items
  verbs : a.Lists Kind.isVerb a.verbs

/-- The index of rooms by identifiers is right. -/
structure FindsRooms (a : Adventure) : Prop where
  /-- What is found by an identifier is a room that holds it. -/
  sound : ∀ id h, a.roomById? id = some h → a.HasRoom h id
  /-- For every room that holds an identifier, a room is found by it. -/
  complete : ∀ id h, a.HasRoom h id → (a.roomById? id).isSome = true

/-- A room is found by its identifier if no other room holds it. -/
theorem FindsRooms.roomById?_eq (ha : a.FindsRooms) {h : Handle} {id : ObjectId}
    (hroom : a.HasRoom h id) (honly : ∀ k, a.HasRoom k id → k = h) : a.roomById? id = some h := by
  obtain ⟨k, hk⟩ := Option.isSome_iff_exists.1 (ha.complete id h hroom)
  rw [hk, honly k (ha.sound id k hk)]

/-! ## Keeping objects -/

/-- Objects of the same variants are listed alike. -/
theorem Lists.of_forall₂ {belongs : Kind → Bool} (hbelongs : Kind.OfVariant belongs)
    {index : List Handle} (h : a.Lists belongs index)
    (hobjects : List.Forall₂ (fun o p => p.kind.SameVariant o.kind) a.objects b.objects) :
    b.Lists belongs index := by
  refine ⟨h.ascending, fun t => (h.mem_iff t).trans ⟨?_, ?_⟩⟩
  · rintro ⟨o, ho, hkind⟩
    obtain ⟨p, hp, hsame⟩ := Steps.exists_getElem?_right hobjects ho
    exact ⟨p, hp, (hbelongs hsame).trans hkind⟩
  · rintro ⟨p, hp, hkind⟩
    obtain ⟨o, ho, hsame⟩ := Steps.exists_getElem?_left hobjects hp
    exact ⟨o, ho, (hbelongs hsame).symm.trans hkind⟩

/-- The lists stay right as long as objects keep their variants. -/
theorem Catalogued.of_forall₂ (h : a.Catalogued)
    (hsame : b.rooms = a.rooms ∧ b.items = a.items ∧ b.verbs = a.verbs)
    (hobjects : List.Forall₂ (fun o p => p.kind.SameVariant o.kind) a.objects b.objects) :
    b.Catalogued := by
  obtain ⟨hrooms, hitems, hverbs⟩ := hsame
  constructor
  · rw [hrooms]
    exact h.rooms.of_forall₂ Kind.ofVariant_isRoom hobjects
  · rw [hitems]
    exact h.items.of_forall₂ Kind.ofVariant_isItem hobjects
  · rw [hverbs]
    exact h.verbs.of_forall₂ Kind.ofVariant_isVerb hobjects

/-- A room stays one with its identifier where rooms stay rooms and keep theirs. -/
theorem HasRoom.of_forall₂ {h : Handle} {id : ObjectId} (hroom : a.HasRoom h id)
    (hobjects : List.Forall₂ (fun o p => o.kind.isRoom = true →
      p.kind.isRoom = true ∧ ∀ id, o.id = some id → p.id = some id) a.objects b.objects) :
    b.HasRoom h id := by
  obtain ⟨o, ho, hkind, hid⟩ := hroom
  obtain ⟨p, hp, hkept⟩ := Steps.exists_getElem?_right hobjects ho
  exact ⟨p, hp, (hkept hkind).1, (hkept hkind).2 id hid⟩

/-- Where objects keep their variants and rooms their identifiers, the index needs no change. -/
theorem FindsRooms.of_forall₂ (ha : a.FindsRooms) (hsame : b.roomsById = a.roomsById)
    (hobjects : List.Forall₂ (fun o p => p.kind.SameVariant o.kind ∧
      (o.kind.isRoom = true → p.id = o.id)) a.objects b.objects) : b.FindsRooms := by
  have hfind : b.roomById? = a.roomById? := by
    unfold roomById?
    rw [hsame]
  constructor
  · intro id h hid
    rw [hfind] at hid
    refine (ha.sound id h hid).of_forall₂ (hobjects.imp fun o p hp hroom => ?_)
    exact ⟨(Kind.ofVariant_isRoom hp.1).trans hroom, fun id hid => (hp.2 hroom).trans hid⟩
  · intro id h hroom
    rw [hfind]
    refine ha.complete id h (hroom.of_forall₂ (hobjects.flip.imp fun p o hp hroom => ?_))
    have horoom := (Kind.ofVariant_isRoom hp.1).symm.trans hroom
    exact ⟨horoom, fun id hid => (hp.2 horoom).symm.trans hid⟩

/-! ## Registering -/

/-- A new object stands behind the handle after the last one. -/
theorem object?_register (o : GameObject) (h : Handle) :
    (a.register o).2.object? h = if h.index = a.objects.length then some o else a.object? h := by
  change (a.objects ++ [o])[h.index]? = _
  split
  next heq => rw [heq, List.getElem?_concat_length]
  next hne =>
    by_cases hlt : h.index < a.objects.length
    · exact List.getElem?_append_left hlt
    · have hlength : (a.objects ++ [o]).length ≤ h.index := by
        rw [List.length_append, List.length_singleton]
        omega
      rw [object?, List.getElem?_eq_none hlength, List.getElem?_eq_none (Nat.not_lt.1 hlt)]

/-- Handles of objects lie within the list of objects. -/
theorem index_lt_of_object? {h : Handle} {o : GameObject} (ho : a.object? h = some o) :
    h.index < a.objects.length :=
  (List.getElem?_eq_some_iff.1 ho).1

/-- A new object of the right kind is listed last. -/
theorem Lists.register {belongs : Kind → Bool} {index : List Handle} (h : a.Lists belongs index)
    (o : GameObject) : (a.register o).2.Lists belongs
      (appendIf (belongs o.kind) index ⟨a.objects.length⟩) := by
  have hbound : ∀ t ∈ index, t.index < a.objects.length := by
    intro t ht
    obtain ⟨p, hp, _⟩ := (h.mem_iff t).1 ht
    exact index_lt_of_object? hp
  constructor
  · unfold appendIf
    split
    · rw [List.pairwise_append]
      refine ⟨h.ascending, List.pairwise_singleton _ _, fun t ht k hk => ?_⟩
      rw [List.mem_singleton.1 hk]
      exact hbound t ht
    · exact h.ascending
  · intro t
    have hmem : t ∈ appendIf (belongs o.kind) index ⟨a.objects.length⟩ ↔
        t ∈ index ∨ t.index = a.objects.length ∧ belongs o.kind = true := by
      cases t
      unfold appendIf
      split <;> simp [*]
    rw [hmem, object?_register]
    split
    next hlast =>
      have hout : t ∉ index := fun ht => Nat.ne_of_lt (hbound t ht) hlast
      simp [hlast, hout]
    next hne => simp [hne, h.mem_iff]

/-- A new object is listed where it belongs. -/
theorem Catalogued.register (h : a.Catalogued) (o : GameObject) : (a.register o).2.Catalogued :=
  ⟨h.rooms.register o, h.items.register o, h.verbs.register o⟩

/-- A room of the longer adventure was there before or is the new object. -/
theorem hasRoom_register {o : GameObject} {h : Handle} {id : ObjectId} :
    (a.register o).2.HasRoom h id ↔ a.HasRoom h id ∨
      h.index = a.objects.length ∧ o.kind.isRoom = true ∧ o.id = some id := by
  unfold HasRoom
  rw [object?_register]
  split
  next hlast =>
    have hnone : a.object? h = none := List.getElem?_eq_none (Nat.le_of_eq hlast.symm)
    simp [hnone, hlast]
  next hne => simp [hne]

/-- What is found after a room was entered: what was there wins over what is new. -/
theorem get?_indexRoom (rooms : SortedMap ObjectId Handle) (h : Handle) (o : GameObject)
    (id : ObjectId) : (indexRoom rooms h o).get? id =
      (rooms.get? id).or (if o.kind.isRoom = true ∧ o.id = some id then some h else none) := by
  unfold indexRoom
  split
  next r held hkind hid =>
    have hroom : (Kind.room r).isRoom = true ∧ some held = some id ↔ id = held := by
      simp [Kind.isRoom, eq_comm]
    rw [SortedMap.get?_insertIfNew, hkind, hid]
    simp only [hroom, Std.compare_eq_iff_eq]
  next hno =>
    have hnot : ¬ (o.kind.isRoom = true ∧ o.id = some id) := by
      rintro ⟨hkind, hid⟩
      cases hroom : o.kind with
      | room r => exact hno r id hroom hid
      | _ => rw [hroom] at hkind; cases hkind
    rw [if_neg hnot, Option.or_none]

/-- Registering an object keeps the index of rooms right. -/
theorem FindsRooms.register (ha : a.FindsRooms) (o : GameObject) : (a.register o).2.FindsRooms := by
  have hfind : ∀ id, (a.register o).2.roomById? id = (a.roomById? id).or
      (if o.kind.isRoom = true ∧ o.id = some id then some ⟨a.objects.length⟩ else none) :=
    get?_indexRoom a.roomsById _ o
  refine ⟨fun id h hid => ?_, fun id h hroom => ?_⟩
  · rw [hfind, Option.or_eq_some_iff] at hid
    rw [hasRoom_register]
    rcases hid with hid | ⟨_, hid⟩
    · exact .inl (ha.sound id h hid)
    · split at hid
      next hnew =>
        cases hid
        exact .inr ⟨rfl, hnew⟩
      next => cases hid
  · rw [hfind, Option.isSome_or, Bool.or_eq_true]
    rcases hasRoom_register.1 hroom with hroom | ⟨_, hnew⟩
    · exact .inl (ha.complete id h hroom)
    · exact .inr (by rw [if_pos hnew]; rfl)

/-! ## Handing out identifiers -/

/-- What is found after objects were entered one after the other: what was there, or else the first
room with the identifier. -/
theorem get?_indexRooms (objects : List (Handle × GameObject)) (rooms : SortedMap ObjectId Handle)
    (id : ObjectId) : (objects.foldl (fun rooms x => indexRoom rooms x.1 x.2) rooms).get? id =
      (rooms.get? id).or (objects.findSome? fun x =>
        if x.2.kind.isRoom = true ∧ x.2.id = some id then some x.1 else none) := by
  induction objects generalizing rooms with
  | nil => exact Option.or_none.symm
  | cons x objects ih =>
    rw [List.foldl_cons, ih, get?_indexRoom, Option.or_assoc, List.findSome?_cons]
    split <;> rfl

/-- Handing out identifiers enters all rooms. -/
theorem roomsById_assignIds {supply rest : IdSupply} {n : Nat}
    (h : a.assignIds supply = some (n, b, rest)) :
    b.roomsById = b.handled.foldl (fun rooms x => indexRoom rooms x.1 x.2) a.roomsById := by
  obtain ⟨x, _, h⟩ := Option.bind_eq_some_iff.1 h
  cases h
  rfl

section
variable {supply rest : IdSupply} {n : Nat}

/-- What is found after identifiers were handed out: what was found before, or else the first room with
the identifier. -/
theorem roomById?_assignIds (h : a.assignIds supply = some (n, b, rest)) (id : ObjectId) :
    b.roomById? id = (a.roomById? id).or (b.handled.findSome? fun x =>
      if x.2.kind.isRoom = true ∧ x.2.id = some id then some x.1 else none) := by
  rw [roomById?, roomsById_assignIds h]
  exact get?_indexRooms b.handled a.roomsById id

/-- After identifiers were handed out, a room is found by every identifier that some room holds,
whatever was found before. -/
theorem isSome_roomById?_assignIds (h : a.assignIds supply = some (n, b, rest)) {id : ObjectId}
    {t : Handle} (hroom : b.HasRoom t id) : (b.roomById? id).isSome = true := by
  obtain ⟨o, ho, hroom⟩ := hroom
  rw [roomById?_assignIds h, Option.isSome_or, Bool.or_eq_true, List.findSome?_isSome_iff]
  refine .inr ⟨(t, o), mem_handled.2 ho, ?_⟩
  rw [if_pos hroom]
  rfl

/-- Handing out identifiers leaves the lists as they are. -/
theorem Catalogued.assignIds (ha : a.Catalogued) (h : a.assignIds supply = some (n, b, rest)) :
    b.Catalogued := by
  obtain ⟨_, ids, hdrawn⟩ := assignIds_eq_some h
  refine ha.of_forall₂ ?_ (hdrawn.completed.objects.imp fun o p hp => ?_)
  · rw [hdrawn.same]
    exact ⟨rfl, rfl, rfl⟩
  · rw [hp.same]
    exact .refl o.kind

/-- Handing out identifiers keeps the index of rooms right. -/
theorem FindsRooms.assignIds (ha : a.FindsRooms) (h : a.assignIds supply = some (n, b, rest)) :
    b.FindsRooms := by
  obtain ⟨_, ids, hdrawn⟩ := assignIds_eq_some h
  refine ⟨fun id t hid => ?_, fun id t hroom => isSome_roomById?_assignIds h hroom⟩
  rw [roomById?_assignIds h, Option.or_eq_some_iff] at hid
  rcases hid with hid | ⟨_, hid⟩
  · refine (ha.sound id t hid).of_forall₂ (hdrawn.completed.objects.imp fun o p hp hroom => ?_)
    refine ⟨?_, hp.kept⟩
    rw [hp.same]
    exact hroom
  · obtain ⟨x, hx, hid⟩ := List.exists_of_findSome?_eq_some hid
    split at hid
    next hroom =>
      cases hid
      exact ⟨x.2, mem_handled.1 hx, hroom⟩
    next => cases hid

end

end Adventure

/-- Compiling leaves the adventure as it is or hands out identifiers. -/
theorem adventure_compile (config : CompilerConfig) (a : Adventure) (supply : IdSupply) :
    (compile config a supply).adventure = a ∨ ∃ n rest,
      a.assignIds supply = some (n, (compile config a supply).adventure, rest) := by
  unfold compile
  split
  · exact .inl rfl
  · split
    · exact .inl rfl
    next n assigned rest hassign => exact .inr ⟨n, rest, hassign⟩

/-! ## Runs -/

namespace Action

/-- What an action can make of an adventure. -/
inductive Effect (a : Adventure) : Action → Adventure → Prop
  | register (o : GameObject) : Effect a (.register o) (a.register o).2
  | edit (t : Handle) (change : GameObject → GameObject) :
    Effect a (.edit t change) { a with objects := a.objects.modify t.index change }
  | start {action : Action} (start : Option Handle) : Effect a action { a with start }
  | assigned {action : Action} {b : Adventure} {supply rest : IdSupply} {n : Nat}
    (h : a.assignIds supply = some (n, b, rest)) : Effect a action b

/-- An action that fails leaves the adventure with the start that it has. -/
theorem effect (action : Action) (a : Adventure) (supply : IdSupply) :
    action.Effect a (action.apply a supply).1 := by
  cases action with
  | register o => exact .register o
  | edit t change => exact .edit t change
  | setStart t =>
    cases hstart : a.setStart t with
    | error e =>
      simp only [apply, hstart]
      exact .start a.start
    | ok b =>
      simp only [apply, hstart]
      obtain rfl := Adventure.setStart_eq_ok hstart
      exact .start _
  | assignIds =>
    cases hassign : a.assignIds supply with
    | none =>
      simp only [apply, hassign]
      exact .start a.start
    | some x =>
      simp only [apply, hassign]
      exact .assigned hassign
  | compile config =>
    change Effect a _ (TextAdventure.compile config a supply).adventure
    rcases adventure_compile config a supply with hsame | ⟨n, rest, hassign⟩
    · rw [hsame]
      exact .start a.start
    · exact .assigned hassign

end Action

namespace Adventure

variable {a : Adventure} {action : Action}

/-- Every action that keeps variants keeps the lists right. -/
theorem Catalogued.apply (ha : a.Catalogued) (haction : action.KeepsVariants) (supply : IdSupply) :
    (action.apply a supply).1.Catalogued := by
  have heffect := action.effect a supply
  generalize (action.apply a supply).1 = b at heffect
  cases heffect with
  | register o => exact ha.register o
  | edit t change =>
    refine ha.of_forall₂ ⟨rfl, rfl, rfl⟩ ?_
    exact Steps.forall₂_modify (fun o => .refl o.kind) (fun o => haction o) a.objects t.index
  | start start =>
    exact ha.of_forall₂ ⟨rfl, rfl, rfl⟩ (List.forall₂_same.2 fun o _ => .refl o.kind)
  | assigned h => exact ha.assignIds h

/-- Every action that keeps variants and the identifiers of rooms keeps the index of rooms right. -/
theorem FindsRooms.apply (ha : a.FindsRooms) (hvariants : action.KeepsVariants)
    (hids : action.KeepsRoomIds) (supply : IdSupply) : (action.apply a supply).1.FindsRooms := by
  have heffect := action.effect a supply
  generalize (action.apply a supply).1 = b at heffect
  cases heffect with
  | register o => exact ha.register o
  | edit t change =>
    refine ha.of_forall₂ rfl ?_
    exact Steps.forall₂_modify (fun o => ⟨.refl o.kind, fun _ => rfl⟩)
      (fun o => ⟨hvariants o, hids o⟩) a.objects t.index
  | start start =>
    exact ha.of_forall₂ rfl (List.forall₂_same.2 fun o _ => ⟨.refl o.kind, fun _ => rfl⟩)
  | assigned h => exact ha.assignIds h

/-- An adventure after actions, each with the supply that it is done with. These may be states of one
supply, from which others draw as well, or of several. -/
def after (a : Adventure) (steps : List (Action × IdSupply)) : Adventure :=
  steps.foldl (fun a x => (x.1.apply a x.2).1) a

/-- Nothing is registered and nothing is listed at the beginning. -/
theorem catalogued_empty (name : String) (supported : VersionRange) :
    Catalogued { name, supported } := by
  have hlists : ∀ belongs, Lists { name, supported } belongs [] := by
    intro belongs
    exact ⟨.nil, fun h => by simp [object?]⟩
  exact ⟨hlists _, hlists _, hlists _⟩

/-- No room is there and none is found at the beginning. -/
theorem findsRooms_empty (name : String) (supported : VersionRange) :
    FindsRooms { name, supported } := by
  refine ⟨fun id h hid => ?_, fun id h hroom => ?_⟩
  · cases hid
  · obtain ⟨o, ho, _⟩ := hroom
    cases ho

/-- The lists stay right along actions that keep variants. -/
theorem Catalogued.after (ha : a.Catalogued) {steps : List (Action × IdSupply)}
    (hsteps : ∀ x ∈ steps, x.1.KeepsVariants) : (a.after steps).Catalogued := by
  induction steps generalizing a with
  | nil => exact ha
  | cons x steps ih =>
    obtain ⟨hx, hrest⟩ := List.forall_mem_cons.1 hsteps
    exact ih (ha.apply hx x.2) hrest

/-- The index of rooms stays right along actions that keep variants and the identifiers of rooms. -/
theorem FindsRooms.after (ha : a.FindsRooms) {steps : List (Action × IdSupply)}
    (hvariants : ∀ x ∈ steps, x.1.KeepsVariants) (hids : ∀ x ∈ steps, x.1.KeepsRoomIds) :
    (a.after steps).FindsRooms := by
  induction steps generalizing a with
  | nil => exact ha
  | cons x steps ih =>
    obtain ⟨hxvariants, hvariants⟩ := List.forall_mem_cons.1 hvariants
    obtain ⟨hxids, hids⟩ := List.forall_mem_cons.1 hids
    exact ih (ha.apply hxvariants hxids x.2) hvariants hids

/-- The indexes of an adventure are exact whatever was done with it since its beginning, as long as
edits keep the variants of objects. Its rooms, items and verbs are listed in ascending order and
without repetition. If edits keep the identifiers of rooms as well, what is found by an identifier is
a room that holds it, a room is found by every identifier that some room holds, and it is that room if
no other one holds it. -/
theorem after_indexes_exact (name : String) (supported : VersionRange)
    {steps : List (Action × IdSupply)} (hsteps : ∀ x ∈ steps, x.1.KeepsVariants) :
    (after { name, supported } steps).Catalogued ∧
      ((∀ x ∈ steps, x.1.KeepsRoomIds) →
        (after { name, supported } steps).FindsRooms ∧
          ∀ id h, (after { name, supported } steps).HasRoom h id →
            (∀ k, (after { name, supported } steps).HasRoom k id → k = h) →
            (after { name, supported } steps).roomById? id = some h) := by
  refine ⟨(catalogued_empty name supported).after hsteps, fun hids => ?_⟩
  have hfinds := (findsRooms_empty name supported).after hsteps hids
  exact ⟨hfinds, fun _ _ => hfinds.roomById?_eq⟩

/-- Work on an adventure in which two rooms come with the same identifier. The first compilation is
refused, since no start is declared, and the first call for identifiers, since too few are left. -/
def rebuilding : List (Action × IdSupply) :=
  [(.register { id := some ⟨5⟩, kind := .room { title := "Hall" } }, .fresh),
    (.register { id := some ⟨5⟩, kind := .room { title := "Great hall" } }, .fresh),
    (.register { kind := .verb { name := "look" } }, .fresh),
    (.register { kind := .room { title := "Cellar" } }, .fresh), (.compile {}, .fresh),
    (.edit ⟨3⟩ (ObjectEdit.apply { title := some "Vault" }), .fresh),
    (.assignIds, .startingAt 0xFFFFFFFE), (.setStart ⟨3⟩, .fresh), (.assignIds, .startingAt 7)]

/-- The rooms of the castle are found by their identifiers, of the two with the same one the first.
-/
theorem rebuilding_indexes_exact :
    (∀ x ∈ rebuilding, x.1.KeepsVariants) ∧ (∀ x ∈ rebuilding, x.1.KeepsRoomIds) ∧
      (after { name := "Castle", supported := .atLeast ⟨0, 1, 0⟩ } rebuilding).Catalogued ∧
      (after { name := "Castle", supported := .atLeast ⟨0, 1, 0⟩ } rebuilding).FindsRooms ∧
      (after { name := "Castle", supported := .atLeast ⟨0, 1, 0⟩ } rebuilding).rooms =
        [⟨0⟩, ⟨1⟩, ⟨3⟩] ∧
      (after { name := "Castle", supported := .atLeast ⟨0, 1, 0⟩ } rebuilding).roomById? ⟨5⟩ =
        some ⟨0⟩ ∧
      (after { name := "Castle", supported := .atLeast ⟨0, 1, 0⟩ } rebuilding).roomById? ⟨9⟩ =
        some ⟨3⟩ := by
  have hvariants : ∀ x ∈ rebuilding, x.1.KeepsVariants := by
    simp [rebuilding, Action.KeepsVariants, ObjectEdit.sameVariant_apply]
  have hids : ∀ x ∈ rebuilding, x.1.KeepsRoomIds := by
    simp [rebuilding, Action.KeepsRoomIds, ObjectEdit.apply]
  obtain ⟨hcatalogued, hfinds⟩ := after_indexes_exact "Castle" (.atLeast ⟨0, 1, 0⟩) hvariants
  exact ⟨hvariants, hids, hcatalogued, (hfinds hids).1, rfl, rfl, rfl⟩

/-- Work on an adventure in which a room gets an identifier, and an edit then puts the same room without
an identifier in its place. -/
def forgetting : List (Action × IdSupply) :=
  [(.register { kind := .room { title := "Hall" } }, .fresh), (.assignIds, .fresh),
    (.edit ⟨0⟩ (fun o => { o with id := none }), .fresh)]

/-- A room that loses its identifier to an edit is still found by it: that an edit keeps the variant is
not enough. -/
theorem forgetting_findsRooms_fails :
    (∀ x ∈ forgetting, x.1.KeepsVariants) ∧
      (after { name := "Castle", supported := .atLeast ⟨0, 1, 0⟩ } forgetting).roomById? ⟨2⟩ =
        some ⟨0⟩ ∧
      ¬ (after { name := "Castle", supported := .atLeast ⟨0, 1, 0⟩ } forgetting).HasRoom ⟨0⟩ ⟨2⟩ ∧
      ¬ (after { name := "Castle", supported := .atLeast ⟨0, 1, 0⟩ } forgetting).FindsRooms := by
  have hvariants : ∀ x ∈ forgetting, x.1.KeepsVariants := by
    simp [forgetting, Action.KeepsVariants, Kind.SameVariant.refl]
  have hfound : (after { name := "Castle", supported := .atLeast ⟨0, 1, 0⟩ } forgetting).roomById?
      ⟨2⟩ = some ⟨0⟩ := rfl
  have hlost : ¬ (after { name := "Castle", supported := .atLeast ⟨0, 1, 0⟩ } forgetting).HasRoom
      ⟨0⟩ ⟨2⟩ := by
    rintro ⟨o, ho, _, hid⟩
    cases ho
    cases hid
  exact ⟨hvariants, hfound, hlost, fun h => hlost (h.sound _ _ hfound)⟩

end Adventure

end TextAdventure
