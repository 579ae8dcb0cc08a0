import Mathlib.Data.List.Nodup
import TextAdventure.Proofs.Adventure.Validation

/-!
# Handing out identifiers

Identifiers are handed out exactly if as many as are missing fit below the sentinel
(`assignIds_eq_none_iff`). Then every object and the adventure itself have one, those that had one
keep it, and beside identifiers and the index of rooms nothing changes (`Completed`). The
identifiers held afterwards are those of the block that was drawn together with those held before
(`Drawn.perm_heldIds`).
-/

namespace TextAdventure

/-! ## Blocks of identifiers -/

namespace IdBlock

/-- A block holds as many identifiers as it says. -/
@[simp] theorem length_ids (b : IdBlock) : b.ids.length = b.count := by
  simp [ids]

/-- A block of one identifier more starts with its first one. -/
theorem ids_succ (first count : Nat) :
    ids ⟨first, count + 1⟩ = ⟨UInt32.ofNat first⟩ :: ids ⟨first + 1, count⟩ := by
  simp [ids, List.range'_succ]

/-- The identifiers of a block that fits 32 bits are the numbers of its range. -/
theorem mem_ids {first count : Nat} (h : first + count ≤ UInt32.size) {id : ObjectId} :
    id ∈ ids ⟨first, count⟩ ↔ first ≤ id.val.toNat ∧ id.val.toNat < first + count := by
  simp only [ids, List.mem_map, List.mem_range'_1]
  constructor
  · rintro ⟨n, hn, rfl⟩
    rw [UInt32.toNat_ofNat_of_lt' (by omega)]
    exact hn
  · intro hid
    exact ⟨id.val.toNat, hid, by rw [UInt32.ofNat_toNat]⟩

/-- The identifiers of a block that fits 32 bits are distinct. -/
theorem nodup_ids {first count : Nat} (h : first + count ≤ UInt32.size) :
    (ids ⟨first, count⟩).Nodup := by
  refine List.Nodup.map_on ?_ List.nodup_range'
  intro n hn m hm heq
  simp only [List.mem_range'_1] at hn hm
  have hval : (UInt32.ofNat n).toNat = (UInt32.ofNat m).toNat :=
    congrArg (fun id : ObjectId => id.val.toNat) heq
  rw [UInt32.toNat_ofNat_of_lt' (by omega), UInt32.toNat_ofNat_of_lt' (by omega)] at hval
  exact hval

end IdBlock

namespace IdSupply

/-- A block is refused exactly if it does not fit below the sentinel. -/
theorem takeBlock_eq_none_iff {s : IdSupply} {count : Nat} :
    s.takeBlock count = none ↔ UInt32.size ≤ s.next.toNat + count := by
  unfold takeBlock
  split <;> simp <;> omega

/-- A block is the run of numbers from the next identifier on, and the supply goes on behind it. -/
theorem takeBlock_eq_some {s rest : IdSupply} {count : Nat} {block : IdBlock}
    (h : s.takeBlock count = some (block, rest)) :
    s.next.toNat + count < UInt32.size ∧ block = ⟨s.next.toNat, count⟩ ∧
      rest.next.toNat = s.next.toNat + count := by
  unfold takeBlock at h
  split at h
  next hfits =>
    cases h
    exact ⟨hfits, rfl, UInt32.toNat_ofNat_of_lt' hfits⟩
  next => cases h

end IdSupply

/-! ## Objects -/

/-- An object as it was before, but perhaps with an identifier where it had none. -/
structure GameObject.Completes (o before : GameObject) : Prop where
  same : o = { before with id := o.id }
  kept : ∀ id, before.id = some id → o.id = some id

namespace Adventure

/-- Filling in identifiers changes objects in no other way. -/
theorem forall₂_fillIds : ∀ (ids : List ObjectId) (objects : List GameObject),
    List.Forall₂ (fun before o => o.Completes before) objects (fillIds ids objects)
  | _, [] => .nil
  | ids, o :: rest => by
      unfold fillIds
      split
      next id ids ho =>
        refine .cons ⟨rfl, fun held h => ?_⟩ (forall₂_fillIds ids rest)
        cases ho.symm.trans h
      next => exact .cons ⟨rfl, fun _ h => h⟩ (forall₂_fillIds _ rest)

/-- With one identifier for each object that has none, all objects have one. -/
theorem isSome_of_mem_fillIds : ∀ {ids : List ObjectId} {objects : List GameObject},
    ids.length = objects.countP (fun o => o.id.isNone) →
      ∀ o ∈ fillIds ids objects, o.id.isSome = true
  | _, [], _ => fun _ h => nomatch h
  | ids, before :: rest, hlength => by
      rw [List.countP_cons] at hlength
      cases hid : before.id with
      | none =>
        simp only [hid, Option.isNone_none, if_true] at hlength
        obtain ⟨id, ids, rfl⟩ := List.exists_cons_of_length_eq_add_one hlength
        simp only [fillIds, hid]
        exact List.forall_mem_cons.2 ⟨rfl, isSome_of_mem_fillIds (Nat.succ.inj hlength)⟩
      | some id =>
        simp only [fillIds, hid]
        refine List.forall_mem_cons.2 ⟨by simp [hid], isSome_of_mem_fillIds ?_⟩
        simpa [hid] using hlength

/-- With one identifier for each object that has none, the objects hold these and those they had. -/
theorem perm_fillIds : ∀ {ids : List ObjectId} {objects : List GameObject},
    ids.length = objects.countP (fun o => o.id.isNone) →
      ((fillIds ids objects).filterMap GameObject.id).Perm (ids ++ objects.filterMap GameObject.id)
  | ids, [], hlength => by
      cases List.length_eq_zero_iff.1 hlength
      exact .nil
  | ids, before :: rest, hlength => by
      rw [List.countP_cons] at hlength
      cases hid : before.id with
      | none =>
        simp only [hid, Option.isNone_none, if_true] at hlength
        obtain ⟨id, ids, rfl⟩ := List.exists_cons_of_length_eq_add_one hlength
        simp only [fillIds, hid, List.filterMap_cons, List.cons_append]
        exact (perm_fillIds (Nat.succ.inj hlength)).cons id
      | some id =>
        simp only [fillIds, hid, List.filterMap_cons]
        exact ((perm_fillIds (by simpa [hid] using hlength)).cons id).trans List.perm_middle.symm

/-! ## Adventures -/

/-- An adventure as it was before, but with an identifier wherever there was none. -/
structure Completed (before a : Adventure) : Prop where
  /-- Beside the identifiers and the index of rooms nothing has changed. -/
  same : a = { before with id := a.id, objects := a.objects, roomsById := a.roomsById }
  /-- An identifier that the adventure had is kept. -/
  kept : ∀ id, before.id = some id → a.id = some id
  objects : List.Forall₂ (fun before o => o.Completes before) before.objects a.objects
  id_isSome : a.id.isSome = true
  objects_isSome : ∀ o ∈ a.objects, o.id.isSome = true

/-- The outcome of handing out identifiers: `ids` go to the objects. -/
structure Drawn (before : Adventure) (supply : IdSupply) (a : Adventure) (rest : IdSupply)
    (ids : List ObjectId) : Prop where
  fits : supply.next.toNat + before.missingIds < UInt32.size
  next : rest.next.toNat = supply.next.toNat + before.missingIds
  length : ids.length = before.objects.countP fun o => o.id.isNone
  /-- The adventure's own identifier is the first of the block, unless it had one. -/
  id : ∃ id, a.id = some id ∧ (before.id = none ∧
      IdBlock.ids ⟨supply.next.toNat, before.missingIds⟩ = id :: ids ∨
    before.id = some id ∧ IdBlock.ids ⟨supply.next.toNat, before.missingIds⟩ = ids)
  same : a = { before with
    id := a.id, objects := fillIds ids before.objects, roomsById := a.roomsById }

section
variable {a assigned : Adventure} {supply rest : IdSupply}

/-- Identifiers are refused exactly if too many are missing. -/
theorem assignIds_eq_none_iff :
    a.assignIds supply = none ↔ UInt32.size ≤ supply.next.toNat + a.missingIds := by
  rw [← IdSupply.takeBlock_eq_none_iff, assignIds]
  cases supply.takeBlock a.missingIds <;> simp

/-- What handing out identifiers gives. The block has one identifier for the adventure itself
exactly if it has none yet. -/
theorem assignIds_eq_some {n : Nat} (h : a.assignIds supply = some (n, assigned, rest)) :
    n = a.missingIds ∧ ∃ ids, a.Drawn supply assigned rest ids := by
  obtain ⟨⟨block, after⟩, hblock, h⟩ := Option.bind_eq_some_iff.1 h
  obtain ⟨hfits, rfl, hnext⟩ := IdSupply.takeBlock_eq_some hblock
  dsimp only at h
  cases hid : a.id with
  | none =>
    have hmissing : a.missingIds = a.objects.countP (fun o => o.id.isNone) + 1 := by
      simp [missingIds, hid, Nat.add_comm]
    have hids := IdBlock.ids_succ supply.next.toNat (a.objects.countP fun o => o.id.isNone)
    rw [← hmissing] at hids
    rw [hid, hids] at h
    cases h
    exact ⟨rfl, _, hfits, hnext, IdBlock.length_ids _, ⟨_, rfl, .inl ⟨hid, hids⟩⟩, rfl⟩
  | some id =>
    have hmissing : a.missingIds = a.objects.countP fun o => o.id.isNone := by
      simp [missingIds, hid]
    rw [hid] at h
    cases h
    refine ⟨rfl, _, hfits, hnext, ?_, ⟨id, rfl, .inr ⟨hid, rfl⟩⟩, rfl⟩
    rw [IdBlock.length_ids, hmissing]

/-- Identifiers are handed out if as many as are missing fit below the sentinel. -/
theorem exists_assignIds (h : supply.next.toNat + a.missingIds < UInt32.size) :
    ∃ named rest, a.assignIds supply = some (a.missingIds, named, rest) := by
  cases hassign : a.assignIds supply with
  | none => exact absurd h (Nat.not_lt.2 (assignIds_eq_none_iff.1 hassign))
  | some x =>
    obtain ⟨n, named, rest⟩ := x
    obtain ⟨rfl, _⟩ := assignIds_eq_some hassign
    exact ⟨named, rest, rfl⟩

variable {ids : List ObjectId}

/-- Handing out identifiers completes the adventure. -/
theorem Drawn.completed (h : a.Drawn supply assigned rest ids) : a.Completed assigned := by
  have hobjects : assigned.objects = fillIds ids a.objects := by rw [h.same]
  obtain ⟨id, hid, hcases⟩ := h.id
  refine ⟨hobjects ▸ h.same, ?_, ?_, by simp [hid], ?_⟩
  · intro held hheld
    rcases hcases with ⟨hnone, _⟩ | ⟨hsome, _⟩
    · cases hheld.symm.trans hnone
    · rw [hid, ← hsome, hheld]
  · rw [hobjects]
    exact forall₂_fillIds ids a.objects
  · rw [hobjects]
    exact isSome_of_mem_fillIds h.length

/-- The identifiers held afterwards are those drawn and those held before. -/
theorem Drawn.perm_heldIds (h : a.Drawn supply assigned rest ids) :
    assigned.heldIds.Perm (IdBlock.ids ⟨supply.next.toNat, a.missingIds⟩ ++ a.heldIds) := by
  have hobjects : assigned.objects = fillIds ids a.objects := by rw [h.same]
  have hperm := perm_fillIds h.length
  obtain ⟨id, hid, ⟨hnone, hids⟩ | ⟨hsome, hids⟩⟩ := h.id
  · rw [heldIds, heldIds, hid, hnone, hids, hobjects]
    exact hperm.cons id
  · rw [heldIds, heldIds, hid, hsome, hids, hobjects]
    exact (hperm.cons id).trans List.perm_middle.symm

end

end Adventure

end TextAdventure
