import TextAdventure.Proofs.Adventure.Identifiers

/-!
# Drawing from a supply of identifiers

Callers ask a supply for single identifiers and for blocks, in any order and with or without
success. A single identifier is a block of one (`take_eq_map`), so there is one condition for all
calls: as many identifiers as are asked for must fit below the sentinel (`draw_of_fits`,
`draw_of_not_fits`).

Refused calls leave the supply where it is and the others move it on by what they hand out. So the
identifiers handed out in a run are, together and in order, the block between the first and the last
place of the supply (`exists_drawAll`), however the calls cut it up. That they ascend, that the
supply never wraps and that a block is as good as single calls are facts about that block.
-/

namespace TextAdventure

/-! ## Blocks -/

namespace IdBlock

/-- A block is cut in two anywhere. -/
theorem ids_append (first m n : Nat) :
    ids ⟨first, m⟩ ++ ids ⟨first + m, n⟩ = ids ⟨first, m + n⟩ := by
  rw [ids, ids, ids, ← List.map_append, List.range'_append_1]

/-- The identifiers of a block that fits 32 bits ascend. -/
theorem pairwise_ids {first count : Nat} (h : first + count ≤ UInt32.size) :
    (ids ⟨first, count⟩).Pairwise fun a b => a.val < b.val := by
  rw [ids, List.pairwise_map]
  refine List.Pairwise.imp_of_mem ?_ List.pairwise_lt_range'
  intro n m hn hm hlt
  simp only [List.mem_range'_1] at hn hm
  rw [UInt32.lt_iff_toNat_lt, UInt32.toNat_ofNat_of_lt' (by omega),
    UInt32.toNat_ofNat_of_lt' (by omega)]
  exact hlt

end IdBlock

/-! ## Calls -/

/-- A call for identifiers. -/
inductive Draw where
  | one
  | block (count : Nat)

/-- How many identifiers a call asks for. -/
def Draw.count : Draw → Nat
  | .one => 1
  | .block count => count

namespace IdSupply

/-- What a call gives, `none` if it is refused, and the supply afterwards. -/
def draw (s : IdSupply) : Draw → Option (List ObjectId) × IdSupply
  | .one =>
    match s.take with
    | some (id, rest) => (some [id], rest)
    | none => (none, s)
  | .block count =>
    match s.takeBlock count with
    | some (block, rest) => (some block.ids, rest)
    | none => (none, s)

/-- What calls give that are made one after the other, and the supply after all of them. -/
def drawAll (s : IdSupply) : List Draw → List (Option (List ObjectId)) × IdSupply
  | [] => ([], s)
  | call :: calls =>
    let later := (s.draw call).2.drawAll calls
    ((s.draw call).1 :: later.1, later.2)

/-- All identifiers that calls were given, in order. -/
def issued (answers : List (Option (List ObjectId))) : List ObjectId :=
  answers.flatMap fun answer => answer.getD []

/-- A supply is known by the number that comes next. -/
theorem eq_of_toNat_next {s t : IdSupply} (h : s.next.toNat = t.next.toNat) : s = t := by
  cases s
  cases t
  cases UInt32.toNat_inj.1 h
  rfl

variable {s : IdSupply}

/-- A block that fits is handed out. -/
theorem exists_takeBlock {count : Nat} (h : s.next.toNat + count < UInt32.size) :
    ∃ rest, s.takeBlock count = some (⟨s.next.toNat, count⟩, rest) ∧
      rest.next.toNat = s.next.toNat + count := by
  cases hblock : s.takeBlock count with
  | none => exact absurd h (Nat.not_lt.2 (takeBlock_eq_none_iff.1 hblock))
  | some x =>
    obtain ⟨block, rest⟩ := x
    obtain ⟨_, rfl, hnext⟩ := takeBlock_eq_some hblock
    exact ⟨rest, rfl, hnext⟩

/-- A single identifier is a block of one. -/
theorem take_eq_map (s : IdSupply) :
    s.take = (s.takeBlock 1).map fun x => (⟨UInt32.ofNat x.1.first⟩, x.2) := by
  unfold take takeBlock
  split
  · rw [Option.map_some, UInt32.ofNat_toNat]
  · rfl

/-- A single identifier is refused exactly by an exhausted supply. -/
theorem take_eq_none_iff : s.take = none ↔ s.next = sentinel := by
  have hlt := UInt32.toNat_lt_size s.next
  rw [take_eq_map, Option.map_eq_none_iff, takeBlock_eq_none_iff, ← UInt32.toNat_inj]
  change UInt32.size ≤ s.next.toNat + 1 ↔ s.next.toNat = UInt32.size - 1
  omega

/-- The next identifier that is shown is the one that would be handed out. -/
theorem peek_eq_map_take (s : IdSupply) : s.peek = s.take.map Prod.fst := by
  by_cases hnext : s.next = sentinel
  · rw [peek, if_pos hnext, take_eq_none_iff.2 hnext]
    rfl
  · rw [peek, if_neg hnext]
    unfold take
    split
    · rfl
    next hfits =>
      refine absurd (take_eq_none_iff.1 ?_) hnext
      exact dif_neg hfits

/-- A call whose identifiers fit below the sentinel gets them, and the supply goes on behind them. -/
theorem draw_of_fits {call : Draw} (h : s.next.toNat + call.count < UInt32.size) :
    ∃ rest, s.draw call = (some (IdBlock.ids ⟨s.next.toNat, call.count⟩), rest) ∧
      rest.next.toNat = s.next.toNat + call.count := by
  obtain ⟨rest, htake, hnext⟩ := exists_takeBlock h
  refine ⟨rest, ?_, hnext⟩
  cases call with
  | one =>
    have hone : s.take = some (⟨UInt32.ofNat s.next.toNat⟩, rest) := by
      rw [take_eq_map, show s.takeBlock 1 = _ from htake]
      rfl
    simp only [draw, hone]
    rfl
  | block count => simp only [draw, show s.takeBlock count = _ from htake, Draw.count]

/-- Any other call gets nothing, and the supply stays as it is. -/
theorem draw_of_not_fits {call : Draw} (h : UInt32.size ≤ s.next.toNat + call.count) :
    s.draw call = (none, s) := by
  have hnone := takeBlock_eq_none_iff.2 h
  cases call with
  | one =>
    have hone : s.take = none := by
      rw [take_eq_map, show s.takeBlock 1 = _ from hnone]
      rfl
    simp only [draw, hone]
  | block count => simp only [draw, show s.takeBlock count = _ from hnone]

/-! ## Runs -/

/-- What calls are given together is the block by which the supply has moved on. -/
theorem exists_drawAll (s : IdSupply) (calls : List Draw) :
    ∃ count, (s.drawAll calls).2.next.toNat = s.next.toNat + count ∧
      issued (s.drawAll calls).1 = IdBlock.ids ⟨s.next.toNat, count⟩ := by
  induction calls generalizing s with
  | nil => exact ⟨0, rfl, rfl⟩
  | cons call calls ih =>
    obtain ⟨later, hnext, hissued⟩ := ih (s.draw call).2
    rw [drawAll, issued, List.flatMap_cons, ← issued, hissued]
    by_cases hfits : s.next.toNat + call.count < UInt32.size
    · obtain ⟨rest, hdraw, hrest⟩ := draw_of_fits hfits
      refine ⟨call.count + later, ?_, ?_⟩
      · rw [hnext, hdraw, hrest, Nat.add_assoc]
      · rw [hdraw, hrest, Option.getD_some, IdBlock.ids_append]
    · have hdraw := draw_of_not_fits (Nat.not_lt.1 hfits)
      rw [hdraw] at hnext ⊢
      exact ⟨later, hnext, rfl⟩

/-- Single calls get what a block gets, and leave the supply where the block leaves it. -/
theorem drawAll_replicate_one {rest : IdSupply} (count : Nat)
    (h : rest.next.toNat = s.next.toNat + count) :
    s.drawAll (List.replicate count .one) =
      ((IdBlock.ids ⟨s.next.toNat, count⟩).map fun id => some [id], rest) := by
  induction count generalizing s with
  | zero =>
    obtain rfl := eq_of_toNat_next h
    rfl
  | succ count ih =>
    have hlt := UInt32.toNat_lt_size rest.next
    have hfits : s.next.toNat + Draw.one.count < UInt32.size := by
      change s.next.toNat + 1 < UInt32.size
      omega
    obtain ⟨after, hdraw, hafter⟩ := draw_of_fits hfits
    change after.next.toNat = s.next.toNat + 1 at hafter
    have hlater := ih (s := after) (by omega)
    rw [List.replicate_succ, drawAll, hdraw, IdBlock.ids_succ, List.map_cons]
    simp only [hlater, hafter]
    rfl

/-- A supply never starts below the number it is given. -/
theorem le_next_startingAt (first : UInt32) : first.toNat ≤ (startingAt first).next.toNat := by
  unfold startingAt
  split
  · exact Nat.le_refl _
  next h =>
    have : ¬ 0 < first.toNat := fun hpos => h (UInt32.lt_iff_toNat_lt.2 hpos)
    omega

/-- What a supply promises, at any time, of the calls that can be made next. -/
structure AllOrNothing (s : IdSupply) : Prop where
  /-- A single identifier is refused exactly if only the sentinel is left. -/
  take_none : s.take = none ↔ s.next = sentinel
  /-- A block is refused exactly if it does not fit below the sentinel. -/
  block_none : ∀ count, s.takeBlock count = none ↔ sentinel.toNat < s.next.toNat + count
  /-- A refused call changes nothing. -/
  refused : ∀ call, (s.draw call).1 = none → (s.draw call).2 = s
  /-- The number that comes next is shown exactly if a single call would be served. -/
  peek_some : s.peek = some ⟨s.next⟩ ↔ s.take.isSome = true
  /-- What is shown is what a single call would be given. -/
  peek_eq : s.peek = s.take.map Prod.fst
  /-- A block consists of the identifiers that as many single calls are given one after the other,
  and leaves the supply where they leave it. -/
  block_some : ∀ count block rest, s.takeBlock count = some (block, rest) →
    s.drawAll (List.replicate count .one) = (block.ids.map fun id => some [id], rest)

/-- Every supply keeps its promises. -/
theorem allOrNothing (s : IdSupply) : s.AllOrNothing := by
  refine ⟨take_eq_none_iff, fun count => ?_, fun call h => ?_, ?_, s.peek_eq_map_take, ?_⟩
  · rw [takeBlock_eq_none_iff]
    exact Nat.succ_le_iff
  · by_cases hfits : s.next.toNat + call.count < UInt32.size
    · obtain ⟨rest, hdraw, _⟩ := draw_of_fits hfits
      rw [hdraw] at h
      cases h
    · rw [draw_of_not_fits (Nat.not_lt.1 hfits)]
  · rw [Option.isSome_iff_ne_none, ne_eq, take_eq_none_iff, peek]
    split <;> simp [*]
  · intro count block rest hblock
    obtain ⟨_, rfl, hnext⟩ := takeBlock_eq_some hblock
    exact drawAll_replicate_one count hnext

/-- A supply is a monotone source that never wraps. Whatever calls are made, the identifiers handed
out ascend strictly, none is zero, the sentinel or below the start, and calls are served as a whole
or not at all. -/
theorem drawAll_startingAt (first : UInt32) (calls : List Draw) :
    (issued ((startingAt first).drawAll calls).1).Pairwise (fun a b => a.val < b.val) ∧
      (∀ id ∈ issued ((startingAt first).drawAll calls).1,
        id.val ≠ 0 ∧ id.val ≠ sentinel ∧ first ≤ id.val) ∧
      ((startingAt first).drawAll calls).2.AllOrNothing := by
  obtain ⟨count, hnext, hissued⟩ := (startingAt first).exists_drawAll calls
  have hlast := UInt32.toNat_lt_size ((startingAt first).drawAll calls).2.next
  rw [hnext] at hlast
  have hfits : (startingAt first).next.toNat + count ≤ UInt32.size := Nat.le_of_lt hlast
  have hfirst := le_next_startingAt first
  have hpos : 0 < (startingAt first).next.toNat :=
    UInt32.lt_iff_toNat_lt.1 (startingAt first).next_pos
  rw [hissued]
  refine ⟨IdBlock.pairwise_ids hfits, fun id hid => ?_, allOrNothing _⟩
  obtain ⟨hge, hlt⟩ := (IdBlock.mem_ids hfits).1 hid
  refine ⟨?_, ?_, UInt32.le_iff_toNat_le.2 (Nat.le_trans hfirst hge)⟩
  · intro hzero
    rw [hzero] at hge
    exact absurd hge (Nat.not_le.2 hpos)
  · intro hsentinel
    rw [hsentinel] at hlt
    exact absurd hlast (Nat.not_lt.2 hlt)

end IdSupply

end TextAdventure
