import Mathlib.Data.List.Forall2
import TextAdventure.Steps

/-!
# Steps on lists

When a step that can fail is made on each element of a list: a check of all elements passes if each
passes (`forM_eq_ok_iff`), and a list is transformed if each element is (`mapM_eq_ok_iff`).

The elements of a transformed list correspond to those it came from, one by one and in order, so
correspondences are carried from list to list (`exists_mem_right`, `forall₂_trans`). A step that
changes one element in place is not seen by what the change keeps (`map_modify_of_eq`).
-/

namespace TextAdventure.Steps

variable {ε α β : Type}

/-- A check of all elements of a list passes if each passes. -/
theorem forM_eq_ok_iff {f : α → Except ε Unit} {l : List α} :
    l.forM f = .ok () ↔ ∀ x ∈ l, f x = .ok () := by
  induction l with
  | nil => exact ⟨fun _ _ h => (nomatch h), fun _ => rfl⟩
  | cons x l ih =>
    change (f x >>= fun _ => l.forM f) = .ok () ↔ _
    rw [andThen_eq_ok_iff, ih, List.forall_mem_cons]

/-- A list is transformed if each of its elements is, in order. -/
theorem mapM_eq_ok_iff {f : α → Except ε β} {l : List α} {r : List β} :
    l.mapM f = .ok r ↔ List.Forall₂ (fun x y => f x = .ok y) l r := by
  induction l generalizing r with
  | nil =>
    rw [List.mapM_nil, List.forall₂_nil_left_iff]
    exact ⟨fun h => (Except.ok.inj h).symm, fun h => h ▸ rfl⟩
  | cons x l ih =>
    rw [List.mapM_cons, bind_eq_ok_iff, List.forall₂_cons_left_iff]
    constructor
    · rintro ⟨y, hy, h⟩
      obtain ⟨ys, hys, h⟩ := bind_eq_ok_iff.1 h
      exact ⟨y, ys, hy, ih.1 hys, (Except.ok.inj h).symm⟩
    · rintro ⟨y, ys, hy, hys, rfl⟩
      exact ⟨y, hy, bind_eq_ok_iff.2 ⟨ys, ih.2 hys, rfl⟩⟩

/-- If each element has a result under a condition, and then a known one, the list has a result
under that condition on all its elements, and it is the list of the known ones. -/
theorem mapM_eq_ok_iff_of {f : α → Except ε β} {P : α → Prop} {g : α → β}
    (h : ∀ x y, f x = .ok y ↔ P x ∧ y = g x) {l : List α} {r : List β} :
    l.mapM f = .ok r ↔ (∀ x ∈ l, P x) ∧ r = l.map g := by
  rw [mapM_eq_ok_iff]
  induction l generalizing r with
  | nil => simp
  | cons x l ih =>
    rw [List.forall₂_cons_left_iff, List.forall_mem_cons, List.map_cons]
    constructor
    · rintro ⟨y, ys, hy, hys, rfl⟩
      obtain ⟨hx, rfl⟩ := (h x y).1 hy
      obtain ⟨hl, rfl⟩ := ih.1 hys
      exact ⟨⟨hx, hl⟩, rfl⟩
    · rintro ⟨⟨hx, hl⟩, rfl⟩
      exact ⟨g x, l.map g, (h x _).2 ⟨hx, rfl⟩, ih.2 ⟨hl, rfl⟩, rfl⟩

/-- What is read back element by element is read back as a list. -/
theorem mapM_map_eq_ok {f : β → Except ε α} {g : α → β} {l : List α}
    (h : ∀ x ∈ l, f (g x) = .ok x) : (l.map g).mapM f = .ok l := by
  rw [mapM_eq_ok_iff, List.forall₂_map_left_iff, List.forall₂_same]
  exact h

/-- If each element gives a known value, a list gives the list of the known ones. -/
theorem mapM_eq_some_map {f : α → Option β} {g : α → β} {l : List α} (h : ∀ x ∈ l, f x = some (g x)) :
    l.mapM f = some (l.map g) := by
  induction l with
  | nil => rfl
  | cons x l ih =>
    obtain ⟨hx, hl⟩ := List.forall_mem_cons.1 h
    rw [List.mapM_cons, hx, ih hl]
    rfl

/-- What is found again element by element is found again as a list. -/
theorem mapM_map_eq_some {f : β → Option α} {g : α → β} {l : List α}
    (h : ∀ x ∈ l, f (g x) = some x) : (l.map g).mapM f = some l := by
  have hl : l.mapM (f ∘ g) = some (l.map id) := mapM_eq_some_map h
  rw [List.mapM_map, hl, List.map_id]

/-- If each element has a counterpart, a list corresponds to the list. -/
theorem exists_forall₂ {R : α → β → Prop} {l : List α} (h : ∀ x ∈ l, ∃ y, R x y) :
    ∃ m, List.Forall₂ R l m := by
  induction l with
  | nil => exact ⟨[], .nil⟩
  | cons x l ih =>
    obtain ⟨⟨y, hy⟩, hl⟩ := List.forall_mem_cons.1 h
    obtain ⟨m, hm⟩ := ih hl
    exact ⟨y :: m, .cons hy hm⟩

/-- If each element has a result, so has the list. -/
theorem exists_mapM_eq_ok {f : α → Except ε β} {l : List α} (h : ∀ x ∈ l, ∃ y, f x = .ok y) :
    ∃ r, l.mapM f = .ok r := by
  simp only [mapM_eq_ok_iff]
  exact exists_forall₂ h

/-! ## Corresponding lists -/

variable {γ : Type} {R : α → β → Prop} {S : β → γ → Prop} {T : α → γ → Prop}

/-- Every element of a list has a counterpart in the corresponding one. -/
theorem exists_mem_right {l : List α} {m : List β} (h : List.Forall₂ R l m) {x : α} (hx : x ∈ l) :
    ∃ y ∈ m, R x y := by
  induction h with
  | nil => cases hx
  | cons hxy _ ih =>
    rcases List.mem_cons.1 hx with rfl | hx
    · exact ⟨_, List.mem_cons_self, hxy⟩
    · obtain ⟨y, hy, hR⟩ := ih hx
      exact ⟨y, List.mem_cons_of_mem _ hy, hR⟩

/-- Every element of a corresponding list is a counterpart. -/
theorem exists_mem_left {l : List α} {m : List β} (h : List.Forall₂ R l m) {y : β} (hy : y ∈ m) :
    ∃ x ∈ l, R x y :=
  exists_mem_right h.flip hy

/-- The element at a place corresponds to the one at the same place. -/
theorem exists_getElem?_right {l : List α} {m : List β} (h : List.Forall₂ R l m) {i : Nat} {x : α}
    (hx : l[i]? = some x) : ∃ y, m[i]? = some y ∧ R x y := by
  induction h generalizing i with
  | nil => cases hx
  | cons hxy _ ih =>
    cases i with
    | zero =>
      cases hx
      exact ⟨_, rfl, hxy⟩
    | succ i => exact ih hx

/-- The element at a place of a corresponding list is a counterpart of the one at the same place. -/
theorem exists_getElem?_left {l : List α} {m : List β} (h : List.Forall₂ R l m) {i : Nat} {y : β}
    (hy : m[i]? = some y) : ∃ x, l[i]? = some x ∧ R x y :=
  exists_getElem?_right h.flip hy

/-- Two correspondences in a row make one. -/
theorem forall₂_trans (hT : ∀ x y z, R x y → S y z → T x z) :
    ∀ {l : List α} {m : List β} {n : List γ},
      List.Forall₂ R l m → List.Forall₂ S m n → List.Forall₂ T l n
  | _, _, _, .nil, .nil => .nil
  | _, _, _, .cons hR hRs, .cons hS hSs => .cons (hT _ _ _ hR hS) (forall₂_trans hT hRs hSs)

/-- What tells the members of two lists apart tells the lists apart. -/
theorem map_eq_map_of_map_eq {f : α → β} {g : α → γ} {l m : List α}
    (hg : ∀ a ∈ l, ∀ b ∈ m, f a = f b → g a = g b) (h : l.map f = m.map f) : l.map g = m.map g := by
  induction l generalizing m with
  | nil => rw [List.map_eq_nil_iff.1 h.symm]
  | cons a l ih =>
    cases m with
    | nil => cases h
    | cons b m =>
      obtain ⟨hhead, htail⟩ := List.cons.inj h
      have hrest := ih (fun a ha b hb => hg a (.tail _ ha) b (.tail _ hb)) htail
      exact congrArg₂ List.cons (hg a (.head _) b (.head _) hhead) hrest

/-- Changing an element and then transforming the list is transforming the list and then changing the
element in the way that corresponds. -/
theorem map_modify {f : α → β} {change : α → α} {change' : β → β}
    (h : ∀ x, f (change x) = change' (f x)) (l : List α) (i : Nat) :
    (l.modify i change).map f = (l.map f).modify i change' := by
  induction l generalizing i with
  | nil => cases i <;> rfl
  | cons x l ih =>
    cases i with
    | zero => exact congrArg (· :: l.map f) (h x)
    | succ i => exact congrArg (f x :: ·) (ih i)

/-- What a change of one element keeps is the same for the whole list. -/
theorem map_modify_of_eq {f : α → β} {change : α → α} (h : ∀ x, f (change x) = f x) (l : List α)
    (i : Nat) : (l.modify i change).map f = l.map f := by
  have hmodify : (l.modify i change).map f = (l.map f).modify i id := map_modify h l i
  rw [hmodify, List.modify_id]

/-- A list corresponds to the one in which an element was changed in a way that keeps to the
correspondence. -/
theorem forall₂_modify {R : α → α → Prop} (hrefl : ∀ x, R x x) {change : α → α}
    (h : ∀ x, R x (change x)) (l : List α) (i : Nat) : List.Forall₂ R l (l.modify i change) := by
  induction l generalizing i with
  | nil => cases i <;> exact .nil
  | cons x l ih =>
    cases i with
    | zero => exact .cons (h x) (List.forall₂_same.2 fun y _ => hrefl y)
    | succ i => exact .cons (hrefl x) (ih i)

/-- What all elements have and a change keeps, all elements have after the change of one of them. -/
theorem forall_mem_modify {P : α → Prop} {change : α → α} (h : ∀ x, P x → P (change x)) {l : List α}
    (hl : ∀ x ∈ l, P x) (i : Nat) : ∀ x ∈ l.modify i change, P x := by
  induction l generalizing i with
  | nil => cases i <;> exact hl
  | cons x l ih =>
    obtain ⟨hx, hl⟩ := List.forall_mem_cons.1 hl
    cases i with
    | zero => exact List.forall_mem_cons.2 ⟨h x hx, hl⟩
    | succ i => exact List.forall_mem_cons.2 ⟨hx, ih hl i⟩

end TextAdventure.Steps
