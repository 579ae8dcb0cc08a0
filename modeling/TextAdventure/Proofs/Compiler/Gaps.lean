import TextAdventure.Proofs.Adventure.Supply
import TextAdventure.Proofs.Compiler.Indexes

/-!
# Filling the gaps

The adventure and its objects have one slot each for an identifier, that of the adventure first and
those of the objects in the order of registration. Handing out identifiers counts the slots that are
empty in one pass, draws a block of that size, and fills it in by a second pass. The two passes agree:
each gap gets the number that is as far from the start of the block as there are gaps before it, and all
else stays (`assignIds_fills_gaps`).

After that there are no gaps, and every room is entered in the index by its identifier. So handing out
identifiers once more draws nothing and changes nothing, even with an exhausted supply
(`assignIds_of_complete`).
-/

namespace TextAdventure.Adventure

variable {a b : Adventure}

/-! ## Slots -/

/-- The identifiers of the adventure and of its objects in the order of registration, with gaps where
they are missing. -/
def slots (a : Adventure) : List (Option ObjectId) := a.id :: a.objects.map GameObject.id

/-- How many gaps there are. -/
def gaps (slots : List (Option ObjectId)) : Nat := slots.countP Option.isNone

/-- The slots with the gaps filled by consecutive numbers. -/
def fillFrom (first : Nat) : List (Option ObjectId) → List (Option ObjectId)
  | [] => []
  | some id :: slots => some id :: fillFrom first slots
  | none :: slots => some ⟨UInt32.ofNat first⟩ :: fillFrom (first + 1) slots

/-- An identifier is no gap. -/
@[simp] theorem gaps_some_cons (id : ObjectId) (slots : List (Option ObjectId)) :
    gaps (some id :: slots) = gaps slots :=
  List.countP_cons_of_neg (by simp)

/-- A missing identifier is one gap more. -/
@[simp] theorem gaps_none_cons (slots : List (Option ObjectId)) :
    gaps (none :: slots) = gaps slots + 1 :=
  List.countP_cons_of_pos rfl

/-- The front of a list has no more gaps than the list. -/
theorem gaps_take_le (i : Nat) (slots : List (Option ObjectId)) : gaps (slots.take i) ≤ gaps slots :=
  (List.take_sublist i slots).countP_le

/-- The count of missing identifiers is that of the gaps. -/
theorem gaps_slots (a : Adventure) : gaps a.slots = a.missingIds := by
  have hobjects : gaps (a.objects.map GameObject.id) = a.objects.countP fun o => o.id.isNone :=
    List.countP_map
  cases hid : a.id with
  | none => simp [slots, missingIds, hid, hobjects, Nat.add_comm]
  | some id => simp [slots, missingIds, hid, hobjects]

/-- A slot is kept or gets the number that belongs to it by the gaps before it. -/
theorem getElem?_fillFrom (first i : Nat) (slots : List (Option ObjectId)) :
    (fillFrom first slots)[i]? =
      slots[i]?.map fun slot => some (slot.getD ⟨UInt32.ofNat (first + gaps (slots.take i))⟩) := by
  induction slots generalizing first i with
  | nil => rfl
  | cons slot slots ih =>
    cases i with
    | zero => cases slot <;> rfl
    | succ i =>
      cases slot with
      | some id => simp [fillFrom, ih]
      | none => simp [fillFrom, ih, Nat.add_assoc, Nat.add_comm 1]

/-- Filling in as many identifiers as are missing fills the gaps of the slots. -/
theorem map_id_fillIds (first : Nat) (objects : List GameObject) :
    (fillIds (IdBlock.ids ⟨first, gaps (objects.map GameObject.id)⟩) objects).map GameObject.id =
      fillFrom first (objects.map GameObject.id) := by
  induction objects generalizing first with
  | nil => rfl
  | cons o objects ih =>
    cases hid : o.id with
    | none =>
      simp only [List.map_cons, hid, gaps_none_cons, IdBlock.ids_succ, fillIds, fillFrom, ih]
    | some id =>
      simp only [List.map_cons, hid, gaps_some_cons, fillIds, fillFrom, ih]

/-! ## Handing out identifiers -/

section
variable {supply rest : IdSupply}

/-- Handing out identifiers fills the gaps. -/
theorem Drawn.slots_eq {ids : List ObjectId} (h : a.Drawn supply b rest ids) :
    b.slots = fillFrom supply.next.toNat a.slots := by
  have hobjects : b.objects = fillIds ids a.objects := by rw [h.same]
  have hgaps := gaps_slots a
  obtain ⟨id, hid, ⟨hnone, hids⟩ | ⟨hsome, hids⟩⟩ := h.id
  · rw [slots, hnone, gaps_none_cons] at hgaps
    rw [← hgaps, IdBlock.ids_succ] at hids
    obtain ⟨rfl, rfl⟩ := List.cons.inj hids
    rw [slots, slots, hid, hnone, hobjects, fillFrom, map_id_fillIds]
  · rw [slots, hsome, gaps_some_cons] at hgaps
    rw [← hgaps] at hids
    rw [slots, slots, hid, hsome, hobjects, fillFrom, ← hids, map_id_fillIds]

/-- The adventure as it was before, but with consecutive numbers in its gaps. -/
structure GapsFilled (before : Adventure) (first : Nat) (a : Adventure) : Prop where
  /-- An identifier that was there stays. -/
  kept : ∀ (i : Nat) id, before.slots[i]? = some (some id) → a.slots[i]? = some (some id)
  /-- A gap gets the number that belongs to it by the gaps before it. -/
  filled : ∀ i : Nat, before.slots[i]? = some none → ∃ id, a.slots[i]? = some (some id) ∧
    id.val.toNat = first + gaps (before.slots.take i)
  /-- Of the objects nothing but identifiers changes. -/
  objects : List.Forall₂ (fun x o => o = { x with id := o.id }) before.objects a.objects
  /-- Of the adventure nothing else but the index of rooms changes. -/
  same : a = { before with id := a.id, objects := a.objects, roomsById := a.roomsById }

/-- Handing out identifiers fills the gaps with the numbers of the block, in order. -/
theorem Drawn.gapsFilled {ids : List ObjectId} (h : a.Drawn supply b rest ids) :
    a.GapsFilled supply.next.toNat b := by
  have hget : ∀ i : Nat, b.slots[i]? = a.slots[i]?.map fun slot =>
      some (slot.getD ⟨UInt32.ofNat (supply.next.toNat + gaps (a.slots.take i))⟩) := by
    intro i
    rw [h.slots_eq]
    exact getElem?_fillFrom supply.next.toNat i a.slots
  refine ⟨?_, ?_, h.completed.objects.imp fun _ _ hcompletes => hcompletes.same, h.completed.same⟩
  · intro i id hi
    rw [hget, hi]
    rfl
  · intro i hi
    refine ⟨⟨UInt32.ofNat (supply.next.toNat + gaps (a.slots.take i))⟩, ?_, ?_⟩
    · rw [hget, hi]
      rfl
    · have hfits := h.fits
      have hle := gaps_take_le i a.slots
      rw [gaps_slots] at hle
      exact UInt32.toNat_ofNat_of_lt' (by omega)

end

/-! ## Handing out identifiers again -/

/-- No identifiers fill nothing. -/
theorem fillIds_nil (objects : List GameObject) : fillIds [] objects = objects := by
  induction objects with
  | nil => rfl
  | cons o objects ih => cases hid : o.id <;> simp [fillIds, hid, ih]

/-- A room whose identifier is there already is not entered again. -/
theorem indexRoom_eq_self {rooms : SortedMap ObjectId Handle} {t : Handle} {o : GameObject}
    (h : ∀ id, o.kind.isRoom = true → o.id = some id → (rooms.get? id).isSome = true) :
    indexRoom rooms t o = rooms := by
  unfold indexRoom
  split
  next r id hkind hid =>
    have hroom : o.kind.isRoom = true := by rw [hkind]; rfl
    obtain ⟨found, hfound⟩ := Option.isSome_iff_exists.1 (h id hroom hid)
    rw [SortedMap.insertIfNew, hfound]
  next => rfl

/-- Rooms that are found already do not change the index. -/
theorem indexRooms_eq_self {rooms : SortedMap ObjectId Handle} {objects : List (Handle × GameObject)}
    (h : ∀ x ∈ objects, ∀ id, x.2.kind.isRoom = true → x.2.id = some id →
      (rooms.get? id).isSome = true) :
    objects.foldl (fun rooms x => indexRoom rooms x.1 x.2) rooms = rooms := by
  induction objects with
  | nil => rfl
  | cons x objects ih =>
    obtain ⟨hx, hobjects⟩ := List.forall_mem_cons.1 h
    rw [List.foldl_cons, indexRoom_eq_self hx, ih hobjects]

/-- Where no identifier is missing and all rooms are entered, any supply has enough, and nothing
changes. -/
theorem assignIds_of_complete (hid : a.id.isSome = true)
    (hobjects : ∀ o ∈ a.objects, o.id.isSome = true)
    (hrooms : ∀ id t, a.HasRoom t id → (a.roomById? id).isSome = true) (supply : IdSupply) :
    a.assignIds supply = some (0, a, supply) := by
  obtain ⟨id, hid⟩ := Option.isSome_iff_exists.1 hid
  have hcount : a.objects.countP (fun o => o.id.isNone) = 0 := by
    rw [List.countP_eq_zero]
    intro o ho
    obtain ⟨held, hheld⟩ := Option.isSome_iff_exists.1 (hobjects o ho)
    simp [hheld]
  have hmissing : a.missingIds = 0 := by
    rw [missingIds, hid, hcount]
    rfl
  have hfits : supply.next.toNat + a.missingIds < UInt32.size := by
    rw [hmissing]
    exact UInt32.toNat_lt_size supply.next
  obtain ⟨b, rest, hassign⟩ := exists_assignIds hfits
  obtain ⟨_, ids, hdrawn⟩ := assignIds_eq_some hassign
  have hrest : rest = supply := by
    refine IdSupply.eq_of_toNat_next ?_
    rw [hdrawn.next, hmissing, Nat.add_zero]
  have hids : ids = [] := List.length_eq_zero_iff.1 (hdrawn.length.trans hcount)
  have hsameId : b.id = a.id := (hdrawn.completed.kept id hid).trans hid.symm
  have hsameObjects : b.objects = a.objects := by
    rw [hdrawn.same, hids, fillIds_nil]
  have hsameIndex : b.roomsById = a.roomsById := by
    rw [roomsById_assignIds hassign, handled, hsameObjects, ← handled]
    refine indexRooms_eq_self fun x hx id hkind hid => ?_
    exact hrooms id x.1 ⟨x.2, mem_handled.1 hx, hkind, hid⟩
  have hsame : b = a := by
    rw [hdrawn.completed.same, hsameId, hsameObjects, hsameIndex]
  rw [hassign, hmissing, hsame, hrest]

/-- Handing out identifiers leaves nothing to be done. -/
theorem assignIds_of_assignIds {supply rest : IdSupply} {n : Nat}
    (h : a.assignIds supply = some (n, b, rest)) (other : IdSupply) :
    b.assignIds other = some (0, b, other) := by
  obtain ⟨_, ids, hdrawn⟩ := assignIds_eq_some h
  refine assignIds_of_complete hdrawn.completed.id_isSome hdrawn.completed.objects_isSome ?_ other
  intro id t hroom
  exact isSome_roomById?_assignIds h hroom

/-- Identifiers are handed out to exactly the gaps, in order, or not at all. If the block fits below the
sentinel, the gaps get its numbers in the order of the slots, the supply moves on by as many, and another
call finds nothing to do, with any supply. If it does not fit, the adventure and the supply stay as they
are. -/
theorem assignIds_fills_gaps (a : Adventure) (supply : IdSupply) :
    (supply.next.toNat + gaps a.slots ≤ IdSupply.sentinel.toNat →
      ∃ b rest, a.assignIds supply = some (gaps a.slots, b, rest) ∧
        a.GapsFilled supply.next.toNat b ∧
        rest.next.toNat = supply.next.toNat + gaps a.slots ∧
        ∀ other, b.assignIds other = some (0, b, other)) ∧
    (IdSupply.sentinel.toNat < supply.next.toNat + gaps a.slots →
      a.assignIds supply = none ∧ Action.assignIds.apply a supply = (a, supply)) := by
  have hsentinel : UInt32.size = IdSupply.sentinel.toNat + 1 := rfl
  rw [gaps_slots]
  constructor
  · intro hfits
    have hlt : supply.next.toNat + a.missingIds < UInt32.size := by omega
    obtain ⟨b, rest, hassign⟩ := exists_assignIds hlt
    obtain ⟨_, ids, hdrawn⟩ := assignIds_eq_some hassign
    exact ⟨b, rest, hassign, hdrawn.gapsFilled, hdrawn.next, assignIds_of_assignIds hassign⟩
  · intro hexceeds
    have hnone : a.assignIds supply = none := assignIds_eq_none_iff.2 (by omega)
    refine ⟨hnone, ?_⟩
    simp only [Action.apply, hnone]

/-- An adventure in which some objects come with identifiers and others do not. -/
def pier : Adventure where
  name := "Pier"
  supported := .atLeast ⟨0, 1, 0⟩
  objects := [
    { id := some ⟨7⟩, kind := .room { title := "Pier" } },
    { kind := .item "rope" },
    { id := some ⟨3⟩, kind := .item "hook" },
    { kind := .room { title := "Boat" } }]

/-- The last three numbers below the sentinel go to the pier itself, the rope and the boat. Then the
supply is exhausted, but there is nothing left to be handed out. -/
theorem assignIds_fills_gaps_pier : ∃ b rest,
    pier.assignIds (.startingAt 0xFFFFFFFC) = some (3, b, rest) ∧
    b.slots = [some ⟨0xFFFFFFFC⟩, some ⟨7⟩, some ⟨0xFFFFFFFD⟩, some ⟨3⟩, some ⟨0xFFFFFFFE⟩] ∧
    rest.take = none ∧ b.assignIds rest = some (0, b, rest) := by
  obtain ⟨b, rest, hassign, _, hnext, hagain⟩ :=
    (assignIds_fills_gaps pier (.startingAt 0xFFFFFFFC)).1 (by decide)
  refine ⟨b, rest, hassign, ?_, IdSupply.take_eq_none_iff.2 (UInt32.toNat_inj.1 hnext), hagain rest⟩
  cases hassign
  rfl

end TextAdventure.Adventure
