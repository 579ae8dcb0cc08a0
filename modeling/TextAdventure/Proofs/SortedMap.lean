import TextAdventure.ObjectId
import TextAdventure.SortedMap

/-!
# Looking up what was entered

The value at a key after an entry was set (`get?_insert`) and after it was set only if there was
none (`get?_insertIfNew`), where the earlier value wins. Entries that ascend are kept in their order,
so a map is made again of its entries (`ofList_entries`).
-/

namespace TextAdventure

/-- Identifiers that compare as equal are equal. -/
instance : Std.LawfulEqOrd ObjectId where
  eq_of_compare {a b} h := by
    change compare a.val b.val = .eq at h
    exact congrArg ObjectId.mk (Std.LawfulEqOrd.eq_of_compare h)

namespace SortedMap

/-- The map with every value replaced. -/
def mapValues {κ β γ : Type} [Ord κ] (f : β → γ) (m : SortedMap κ β) : SortedMap κ γ where
  entries := m.entries.map fun e => (e.1, f e.2)
  ascending := List.pairwise_map.2 m.ascending

variable {κ β : Type} [Ord κ] [Std.TransOrd κ]

/-- A search meets the entry that was put in or, under any other key, what it met before. The key of
an entry that is replaced compares as the new one does. -/
theorem find?_insertEntry (k l : κ) (v : β) (entries : List (κ × β)) :
    ((insertEntry k v entries).find? fun e => compare l e.1 == .eq) =
      if compare l k = .eq then some (k, v) else entries.find? fun e => compare l e.1 == .eq := by
  fun_induction insertEntry k v entries with
  | case1 => by_cases h : compare l k = .eq <;> simp [h]
  | case2 m w rest hlt => by_cases h : compare l k = .eq <;> simp [h]
  | case3 m w rest heq =>
    have hm : compare l m = compare l k := (Std.TransCmp.congr_right heq).symm
    by_cases h : compare l k = .eq <;> simp [h, hm]
  | case4 m w rest hgt ih =>
    by_cases hm : compare l m = .eq
    · have hk : compare l k ≠ .eq := by
        intro hk
        have hkm : compare k m = .eq := Std.TransCmp.eq_trans (Std.OrientedCmp.eq_symm hk) hm
        rw [hgt] at hkm
        cases hkm
      simp [hm, hk]
    · simp [hm, ih]

/-- The value at a key after one was set. -/
theorem get?_insert (m : SortedMap κ β) (k l : κ) (v : β) :
    (m.insert k v).get? l = if compare l k = .eq then some v else m.get? l := by
  rw [get?, insert, find?_insertEntry]
  split <;> rfl

/-- Keys that compare as equal have the same value. -/
theorem get?_congr (m : SortedMap κ β) {k l : κ} (h : compare l k = .eq) :
    m.get? l = m.get? k := by
  simp only [get?, Std.TransCmp.congr_left h]

/-- The value at a key after one was set unless there was one. -/
theorem get?_insertIfNew (m : SortedMap κ β) (k l : κ) (v : β) :
    (m.insertIfNew k v).get? l = (m.get? l).or (if compare l k = .eq then some v else none) := by
  unfold insertIfNew
  by_cases h : compare l k = .eq
  · rw [if_pos h, m.get?_congr h]
    split
    next w hw => rw [m.get?_congr h, hw, Option.some_or]
    next hnone => rw [get?_insert, if_pos h, hnone, Option.none_or]
  · rw [if_neg h, Option.or_none]
    split
    · rfl
    · rw [get?_insert, if_neg h]

/-- A key behind all others goes to the end. -/
theorem insertEntry_of_lt {entries : List (κ × β)} {k : κ} (h : ∀ e ∈ entries, compare e.1 k = .lt)
    (v : β) : insertEntry k v entries = entries ++ [(k, v)] := by
  induction entries with
  | nil => rfl
  | cons e entries ih =>
    obtain ⟨he, hentries⟩ := List.forall_mem_cons.1 h
    have hgt : compare k e.1 = .gt := Std.OrientedCmp.gt_iff_lt.2 he
    rw [insertEntry, hgt, ih hentries, List.cons_append]

/-- Entries that ascend and come behind those of a map are added at its end. -/
theorem entries_insertMany (m : SortedMap κ β) {entries : List (κ × β)}
    (h : (m.entries ++ entries).Pairwise fun a b => compare a.1 b.1 = .lt) :
    (m.insertMany entries).entries = m.entries ++ entries := by
  induction entries generalizing m with
  | nil => rw [List.append_nil]; rfl
  | cons e entries ih =>
    have hlast : ∀ f ∈ m.entries, compare f.1 e.1 = .lt :=
      fun f hf => (List.pairwise_append.1 h).2.2 f hf e List.mem_cons_self
    have hinsert : (m.insert e.1 e.2).entries = m.entries ++ [e] := insertEntry_of_lt hlast e.2
    have hsplit : m.entries ++ e :: entries = (m.insert e.1 e.2).entries ++ entries := by
      rw [hinsert, List.append_assoc, List.singleton_append]
    rw [hsplit] at h ⊢
    exact ih (m.insert e.1 e.2) h

/-- The map of entries that ascend holds them in their order. -/
theorem entries_ofList {entries : List (κ × β)}
    (h : entries.Pairwise fun a b => compare a.1 b.1 = .lt) : (ofList entries).entries = entries :=
  entries_insertMany empty h

/-- A map is made of its entries. -/
theorem ofList_entries (m : SortedMap κ β) : ofList m.entries = m :=
  ext (entries_ofList m.ascending)

end SortedMap

end TextAdventure
