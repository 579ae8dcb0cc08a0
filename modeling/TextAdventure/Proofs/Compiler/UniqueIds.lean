import TextAdventure.Proofs.Compiler.Outcome

/-!
# Identifiers after compiling

Validation sees the identifiers that are held before new ones are drawn, so it cannot tell whether a
new one is already taken. After compiling, the adventure and its objects have distinct identifiers
exactly if none that was held before lies in the block that was drawn
(`compile_nodup_heldIds_iff`). It may lie there: an object that comes with an identifier from a
document, compiled with a supply that has not handed it out, shares it with another object
(`compile_ids_collide`).
-/

namespace TextAdventure

namespace Adventure

variable {a named : Adventure}

/-- The identifiers of the objects of a completed adventure, by the handles they had before. -/
theorem Completed.map_id (h : a.Completed named) :
    named.objects.map GameObject.id = a.handled.map fun x => named.idOf? x.1 := by
  have hhandles : a.handled.map (·.1) = named.handled.map (·.1) := by
    rw [← List.forall₂_eq_eq_eq, List.forall₂_map_left_iff, List.forall₂_map_right_iff]
    exact h.handled.imp fun _ _ hxy => hxy.1.symm
  calc named.objects.map GameObject.id
      = named.handled.map fun y => y.2.id := by rw [← map_snd_handled, List.map_map]; rfl
    _ = (named.handled.map (·.1)).map named.idOf? := by
        rw [List.map_map]
        exact List.map_congr_left fun y hy => (idOf?_of_mem_handled hy).symm
    _ = a.handled.map fun x => named.idOf? x.1 := by rw [← hhandles, List.map_map]; rfl

/-- The records of an artifact bear the identifiers of the objects, in order. -/
theorem WrittenAs.filterMap_id {config : CompilerConfig} {art : Artifact} (h : a.Completed named)
    (hart : a.WrittenAs named config art) :
    named.objects.filterMap GameObject.id = art.records.map Record.id := by
  have hrecords : (a.handled.map fun x => named.idOf? x.1) =
      art.records.map fun r => some r.id := by
    rw [← List.forall₂_eq_eq_eq, List.forall₂_map_left_iff, List.forall₂_map_right_iff]
    exact hart.records.imp fun _ _ hr => hr.id
  calc named.objects.filterMap GameObject.id
      = (named.objects.map GameObject.id).filterMap fun x => x := by rw [List.filterMap_map]; rfl
    _ = art.records.map Record.id := by
        rw [h.map_id, hrecords, List.filterMap_map]
        exact congrFun List.filterMap_eq_map _

/-- After identifiers were handed out to a sound adventure, they are distinct exactly if none that
was held before lies in the block that was drawn. The block is distinct in itself, and so is what
was held. -/
theorem Drawn.nodup_heldIds_iff {supply rest : IdSupply} {ids : List ObjectId}
    (h : a.Drawn supply named rest ids) (hsound : a.Sound) :
    named.heldIds.Nodup ↔ ∀ id ∈ a.heldIds, id.val.toNat < supply.next.toNat ∨
      supply.next.toNat + a.missingIds ≤ id.val.toNat := by
  have hfits : supply.next.toNat + a.missingIds ≤ UInt32.size := Nat.le_of_lt h.fits
  rw [h.perm_heldIds.nodup_iff, List.nodup_append]
  constructor
  · rintro ⟨_, _, hdisjoint⟩ id hid
    have hout : id ∉ IdBlock.ids ⟨supply.next.toNat, a.missingIds⟩ := fun hin =>
      hdisjoint id hin id hid rfl
    rw [IdBlock.mem_ids hfits] at hout
    omega
  · intro hout
    refine ⟨IdBlock.nodup_ids hfits, hsound.ids, ?_⟩
    rintro id hin _ hid rfl
    have hrange := (IdBlock.mem_ids hfits).1 hin
    have hheld := hout id hid
    omega

end Adventure

/-- After a successful compilation the adventure and all its objects have identifiers, and those of
the objects are the ones in the records. All of them are distinct exactly if no identifier that was
held before lies in the block of numbers that the missing ones were drawn from. -/
theorem compile_nodup_heldIds_iff {config : CompilerConfig} {a : Adventure} {supply : IdSupply}
    {bytes : List UInt8} (h : (compile config a supply).result = .ok bytes) :
    (∃ art id, Artifact.decode bytes = .ok art ∧ (compile config a supply).adventure.id = some id ∧
      (compile config a supply).adventure.heldIds = id :: art.records.map Record.id) ∧
    ((compile config a supply).adventure.heldIds.Nodup ↔
      ∀ id ∈ a.heldIds, id.val.toNat < supply.next.toNat ∨
        supply.next.toNat + a.missingIds ≤ id.val.toNat) := by
  obtain ⟨hcompilable, ⟨ids, hdrawn⟩, art, hart, rfl⟩ := compile_eq_ok h
  refine ⟨?_, hdrawn.nodup_heldIds_iff (Adventure.validate_eq_ok_iff.1 hcompilable.references)⟩
  obtain ⟨id, hid⟩ := Option.isSome_iff_exists.1 hdrawn.completed.id_isSome
  refine ⟨art, id, Artifact.decode_bytes (hart.writable hcompilable.payloads), hid, ?_⟩
  rw [Adventure.heldIds, hid, hart.filterMap_id hdrawn.completed]
  rfl

/-- The lamp room of the lighthouse holds the number right behind the block that is drawn, so all
identifiers are distinct. -/
theorem compile_lighthouse_nodup_heldIds : ∃ bytes,
    (compile {} lighthouse .fresh).result = .ok bytes ∧
    (compile {} lighthouse .fresh).adventure.heldIds.Nodup := by
  obtain ⟨bytes, h⟩ := exists_compile_lighthouse
  exact ⟨bytes, h, (compile_nodup_heldIds_iff h).2.2 (by decide)⟩

/-- An item that comes with an identifier from a document, and a room that has none yet. -/
def attic : Adventure where
  name := "Attic"
  supported := .atLeast ⟨0, 1, 0⟩
  start := some ⟨1⟩
  objects := [
    { id := some ⟨2⟩, kind := .item "trunk" },
    { kind := .room { title := "Attic" } }]

/-- Compiling the attic succeeds, and then the trunk and the room have the same identifier, as have
their records. -/
theorem compile_ids_collide : ∃ bytes art,
    (compile {} attic .fresh).result = .ok bytes ∧
    ¬ (compile {} attic .fresh).adventure.heldIds.Nodup ∧
    Artifact.decode bytes = .ok art ∧ ¬ (art.records.map Record.id).Nodup := by
  have hcompilable : attic.Compilable {} .fresh :=
    Adventure.compilable_iff.2 ⟨by rfl, by decide⟩
  obtain ⟨named, rest, ids, art, hdrawn, hart, heq⟩ := compile_of_compilable hcompilable
  have hids : (compile {} attic .fresh).adventure.heldIds = [⟨1⟩, ⟨2⟩, ⟨2⟩] := by rfl
  have hobjects : (compile {} attic .fresh).adventure.objects.filterMap GameObject.id =
      [⟨2⟩, ⟨2⟩] := by rfl
  rw [heq] at hids hobjects ⊢
  refine ⟨art.bytes, art, rfl, ?_, Artifact.decode_bytes (hart.writable hcompilable.payloads), ?_⟩
  · rw [hids]
    decide
  · rw [← hart.filterMap_id hdrawn.completed, hobjects]
    decide

end TextAdventure
