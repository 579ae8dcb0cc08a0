/-!
# Maps in key order

A map is the list of its entries, strictly ascending by key. The order is part of the type, so a map
has exactly one representation and two maps are equal when they hold the same entries.
-/

namespace TextAdventure

/-- Puts an entry where its key belongs and replaces an entry that has the same key. -/
def insertEntry {κ β : Type} [Ord κ] (k : κ) (v : β) : List (κ × β) → List (κ × β)
  | [] => [(k, v)]
  | (l, w) :: rest =>
    match compare k l with
    | .lt => (k, v) :: (l, w) :: rest
    | .eq => (k, v) :: rest
    | .gt => (l, w) :: insertEntry k v rest

/-- An entry of the longer list is the new one or was there before. -/
theorem mem_insertEntry {κ β : Type} [Ord κ] {k : κ} {v : β} {e : κ × β} :
    ∀ {l : List (κ × β)}, e ∈ insertEntry k v l → e = (k, v) ∨ e ∈ l
  | [], h => by simpa [insertEntry] using h
  | (m, w) :: rest, h => by
      unfold insertEntry at h
      split at h
      · simpa using h
      · rcases List.mem_cons.1 h with h | h
        · exact .inl h
        · exact .inr (List.mem_cons_of_mem _ h)
      · rcases List.mem_cons.1 h with h | h
        · exact .inr (h ▸ List.mem_cons_self)
        · exact (mem_insertEntry h).imp id (List.mem_cons_of_mem _)

/-- Insertion keeps the entries strictly ascending. -/
theorem pairwise_insertEntry {κ β : Type} [Ord κ] [Std.TransOrd κ] (k : κ) (v : β) :
    ∀ {l : List (κ × β)}, l.Pairwise (fun a b => compare a.1 b.1 = .lt) →
      (insertEntry k v l).Pairwise (fun a b => compare a.1 b.1 = .lt)
  | [], _ => by simp [insertEntry]
  | (m, w) :: rest, h => by
      obtain ⟨hm, hrest⟩ := List.pairwise_cons.1 h
      unfold insertEntry
      split
      next hlt =>
        refine List.pairwise_cons.2 ⟨fun e he => ?_, h⟩
        rcases List.mem_cons.1 he with rfl | he
        · exact hlt
        · exact Std.TransCmp.lt_trans hlt (hm e he)
      next heq =>
        exact List.pairwise_cons.2 ⟨fun e he => Std.TransCmp.lt_of_eq_of_lt heq (hm e he), hrest⟩
      next hgt =>
        refine List.pairwise_cons.2 ⟨fun e he => ?_, pairwise_insertEntry k v hrest⟩
        rcases mem_insertEntry he with rfl | he
        · exact Std.OrientedCmp.gt_iff_lt.1 hgt
        · exact hm e he

/-- A map from `κ` to `β`, as its entries in ascending key order. -/
structure SortedMap (κ β : Type) [Ord κ] where
  /-- The entries, least key first. -/
  entries : List (κ × β)
  /-- No key occurs twice and the keys ascend. -/
  ascending : entries.Pairwise (fun a b => compare a.1 b.1 = .lt)

namespace SortedMap

variable {κ β : Type} [Ord κ]

/-- The map without entries. -/
def empty : SortedMap κ β := ⟨[], .nil⟩

instance : EmptyCollection (SortedMap κ β) := ⟨empty⟩

instance : Inhabited (SortedMap κ β) := ⟨empty⟩

@[ext] theorem ext {m n : SortedMap κ β} (h : m.entries = n.entries) : m = n := by
  cases m; cases n; simp_all

/-- The keys, least first. -/
def keys (m : SortedMap κ β) : List κ := m.entries.map (·.1)

/-- The values, in the order of their keys. -/
def values (m : SortedMap κ β) : List β := m.entries.map (·.2)

/-- The value at a key. -/
def get? (m : SortedMap κ β) (k : κ) : Option β :=
  (m.entries.find? fun e => compare k e.1 == .eq).map (·.2)

/-- Sets the value at a key; an earlier value is replaced. -/
def insert [Std.TransOrd κ] (m : SortedMap κ β) (k : κ) (v : β) : SortedMap κ β :=
  ⟨insertEntry k v m.entries, pairwise_insertEntry k v m.ascending⟩

/-- Sets the value at a key that has none yet; an earlier value stays. -/
def insertIfNew [Std.TransOrd κ] (m : SortedMap κ β) (k : κ) (v : β) : SortedMap κ β :=
  match m.get? k with
  | some _ => m
  | none => m.insert k v

/-- Inserts the entries of a list one after the other, so the last one for a key stays. -/
def insertMany [Std.TransOrd κ] (m : SortedMap κ β) (entries : List (κ × β)) : SortedMap κ β :=
  entries.foldl (fun m e => m.insert e.1 e.2) m

/-- The map of a list of entries, the last one for each key. -/
def ofList [Std.TransOrd κ] (entries : List (κ × β)) : SortedMap κ β :=
  empty.insertMany entries

end SortedMap

end TextAdventure
