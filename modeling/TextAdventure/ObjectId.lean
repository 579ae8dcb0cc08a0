/-!
# Identifiers

Every object of a compiled adventure has an identifier of 32 bits. A supply hands them out in
ascending order, one at a time or in blocks. Zero and the largest 32-bit number are never handed
out: the latter marks an exhausted supply.
-/

namespace TextAdventure

/-- The identifier of an object in a compiled adventure. -/
structure ObjectId where
  val : UInt32
deriving DecidableEq

namespace ObjectId

instance : Ord ObjectId := ⟨fun a b => compare a.val b.val⟩

instance : Std.TransOrd ObjectId where
  eq_swap {a b} := by
    change compare a.val b.val = (compare b.val a.val).swap
    exact Std.OrientedCmp.eq_swap
  isLE_trans {a b c} h₁ h₂ := by
    change (compare a.val b.val).isLE at h₁
    change (compare b.val c.val).isLE at h₂
    change (compare a.val c.val).isLE
    exact Std.TransCmp.isLE_trans h₁ h₂

end ObjectId

/-- A run of consecutive identifiers. -/
structure IdBlock where
  /-- The number of the first identifier. -/
  first : Nat
  /-- How many identifiers there are. -/
  count : Nat

/-- The identifiers of a block, ascending. -/
def IdBlock.ids (b : IdBlock) : List ObjectId :=
  (List.range' b.first b.count).map fun n => ⟨UInt32.ofNat n⟩

/-- The first identifiers of a block, at most `n`. -/
def IdBlock.take (b : IdBlock) (n : Nat) : List ObjectId :=
  { b with count := min n b.count : IdBlock }.ids

/-- A source of identifiers. -/
structure IdSupply where
  /-- The next identifier to be handed out; the largest number means that none is left. -/
  next : UInt32
  /-- Zero is never handed out. -/
  next_pos : 0 < next := by decide

namespace IdSupply

/-- How many identifiers a fresh supply can hand out. -/
def capacity : Nat := UInt32.size - 2

/-- The number that marks an exhausted supply. -/
def sentinel : UInt32 := 0xFFFFFFFF

/-- A supply whose next identifier is `first`, or one if that is zero. -/
def startingAt (first : UInt32) : IdSupply :=
  if h : 0 < first then { next := first, next_pos := h } else { next := 1 }

/-- A supply that has handed out nothing. -/
def fresh : IdSupply := startingAt 1

instance : Inhabited IdSupply := ⟨fresh⟩

/-- The identifier that would be handed out next. -/
def peek (s : IdSupply) : Option ObjectId :=
  if s.next = sentinel then none else some ⟨s.next⟩

/-- Adding to a positive number without overflow leaves it positive. -/
theorem ofNat_add_pos {first : UInt32} (hpos : 0 < first) {count : Nat}
    (hfits : first.toNat + count < UInt32.size) : 0 < UInt32.ofNat (first.toNat + count) := by
  have h : 0 < first.toNat := UInt32.lt_iff_toNat_lt.1 hpos
  rw [UInt32.lt_iff_toNat_lt, UInt32.toNat_ofNat_of_lt' hfits]
  exact Nat.lt_add_right count h

/-- Hands out `count` consecutive identifiers, or none at all if they do not fit below the
sentinel. -/
def takeBlock (s : IdSupply) (count : Nat) : Option (IdBlock × IdSupply) :=
  if h : s.next.toNat + count < UInt32.size then
    some (⟨s.next.toNat, count⟩,
      { next := UInt32.ofNat (s.next.toNat + count), next_pos := ofNat_add_pos s.next_pos h })
  else
    none

/-- Hands out one identifier, unless the supply is exhausted. -/
def take (s : IdSupply) : Option (ObjectId × IdSupply) :=
  if h : s.next.toNat + 1 < UInt32.size then
    some (⟨s.next⟩,
      { next := UInt32.ofNat (s.next.toNat + 1), next_pos := ofNat_add_pos s.next_pos h })
  else
    none

/-- What a refusal says. -/
def exhaustedMessage : String :=
  "too many game objects: the ID space of 4294967294 identifiers is exhausted"

end IdSupply

end TextAdventure
