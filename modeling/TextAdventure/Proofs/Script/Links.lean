import TextAdventure.Script.Outline

/-!
# Links of an outline

An outline is built by two kinds of calls: one creates a node, the other attaches a node to another. Any
two nodes may be attached, at any time and more than once; if one of them does not exist, nothing happens.
A node has a link to its parent, and a parent keeps the set of its children; an attachment writes both.

The set only grows: a node is a child of all nodes that it was ever attached to (`Recorded.children`),
and its parent is one of them. So a node is always among the children of its parent, but a node that was
attached to a second one is still among the children of the first. Links agree in both directions exactly
if that never happens (`linksAgree_after_iff`, `links_disagree`).
-/

namespace TextAdventure.Script

namespace Outline

/-- A call that builds an outline. -/
inductive Call where
  | create (content : Content) (span : Span)
  | attach (parent child : NodeId)

/-- The outline after a call. -/
def call (o : Outline) : Call → Outline
  | .create content span => o.create content span
  | .attach parent child => o.attach parent child

/-- The outline after calls, from the one that has only a root. -/
def after (calls : List Call) : Outline := calls.foldl call empty

/-- A node is among the children of another exactly if it has a link to it. -/
def LinksAgree (o : Outline) : Prop :=
  ∀ p c m n, o.get? p = some m → o.get? c = some n → (c ∈ m.children ↔ n.parent = some p)

/-- The attachments, of a parent and a child each, that calls make in an outline with a number of nodes: a
call makes one if both nodes exist by then. -/
def attachments : (nodes : Nat) → List Call → List (NodeId × NodeId)
  | _, [] => []
  | nodes, .create _ _ :: calls => attachments (nodes + 1) calls
  | nodes, .attach parent child :: calls =>
    if parent < nodes ∧ child < nodes then
      (parent, child) :: attachments nodes calls
    else
      attachments nodes calls

/-! ## One call -/

section
variable {o : Outline} {p c i : NodeId} {m : Node}

/-- A created node has no links, and the others stay as they are. -/
theorem of_get?_create {content : Content} {span : Span}
    (h : (o.create content span).get? i = some m) :
    o.get? i = some m ∨ i = o.nodes.length ∧ m.children = [] ∧ m.parent = none := by
  rw [create, get?, List.getElem?_append] at h
  split at h
  next => exact .inl h
  next hi =>
    rw [List.getElem?_singleton] at h
    split at h
    next hzero =>
      cases h
      exact .inr ⟨Nat.le_antisymm (Nat.sub_eq_zero_iff_le.1 hzero) (Nat.le_of_not_lt hi), rfl, rfl⟩
    next => cases h

/-- An attachment changes the link of the child and the children of the parent. -/
theorem exists_of_get?_attach (hp : p < o.nodes.length) (hc : c < o.nodes.length)
    (h : (o.attach p c).get? i = some m) :
    ∃ n, o.get? i = some n ∧ m.children = (if p = i then insertId c n.children else n.children) ∧
      m.parent = if c = i then some p else n.parent := by
  rw [attach, if_pos ⟨hp, hc⟩, get?, List.getElem?_modify, List.getElem?_modify] at h
  obtain ⟨n', hn', rfl⟩ := Option.map_eq_some_iff.1 h
  obtain ⟨n, hn, rfl⟩ := Option.map_eq_some_iff.1 hn'
  refine ⟨n, hn, ?_⟩
  by_cases hpi : p = i <;> by_cases hci : c = i <;> simp [hpi, hci, Node.adopt]

/-- A new node is one node more. -/
theorem length_create (o : Outline) (content : Content) (span : Span) :
    (o.create content span).nodes.length = o.nodes.length + 1 := by
  simp [create]

/-- Attaching makes no node. -/
theorem length_attach (o : Outline) (p c : NodeId) :
    (o.attach p c).nodes.length = o.nodes.length := by
  unfold attach
  split <;> simp

/-- There is a node at every number below the number of nodes. -/
theorem exists_get? (h : i < o.nodes.length) : ∃ m, o.get? i = some m :=
  ⟨_, List.getElem?_eq_getElem h⟩

end

/-! ## Many calls -/

/-- The links of an outline are those of the attachments that were made. -/
structure Recorded (o : Outline) (made : List (NodeId × NodeId)) : Prop where
  /-- Attachments were made between nodes that exist. -/
  lt_length : ∀ e ∈ made, e.1 < o.nodes.length ∧ e.2 < o.nodes.length
  /-- A node is a child of all nodes that it was attached to. -/
  children : ∀ {p m}, o.get? p = some m → ∀ c, c ∈ m.children ↔ (p, c) ∈ made
  /-- The parent of a node is one that it was attached to. -/
  parent : ∀ {c n p}, o.get? c = some n → n.parent = some p → (p, c) ∈ made
  /-- A node that was attached has a parent. -/
  parent_ne_none : ∀ {c n p}, o.get? c = some n → (p, c) ∈ made → n.parent ≠ none

/-- Nothing is attached in an outline without nodes. -/
theorem recorded_nil : Recorded ⟨[]⟩ [] where
  lt_length := by simp
  children := by simp [get?]
  parent := by simp [get?]
  parent_ne_none := by simp

namespace Recorded

variable {o : Outline} {made : List (NodeId × NodeId)} (h : o.Recorded made)
include h

/-- Making a node keeps the record, since the node is not linked. -/
theorem create (content : Content) (span : Span) : (o.create content span).Recorded made where
  lt_length := by
    intro e he
    rw [length_create]
    exact (h.lt_length e he).imp Nat.lt_succ_of_lt Nat.lt_succ_of_lt
  children := by
    intro p m hm c
    rcases of_get?_create hm with hm | ⟨rfl, hchildren, _⟩
    · exact h.children hm c
    · rw [hchildren]
      constructor
      · intro hc
        cases hc
      · intro hc
        exact absurd (h.lt_length _ hc).1 (Nat.lt_irrefl _)
  parent := by
    intro c n p hn hp
    rcases of_get?_create hn with hn | ⟨_, _, hnone⟩
    · exact h.parent hn hp
    · rw [hnone] at hp
      cases hp
  parent_ne_none := by
    intro c n p hn hmade
    rcases of_get?_create hn with hn | ⟨rfl, _, _⟩
    · exact h.parent_ne_none hn hmade
    · exact absurd (h.lt_length _ hmade).2 (Nat.lt_irrefl _)

/-- Attaching a node records one attachment more. -/
theorem attach {p c : NodeId} (hp : p < o.nodes.length) (hc : c < o.nodes.length) :
    (o.attach p c).Recorded (made ++ [(p, c)]) where
  lt_length := by
    intro e he
    rw [length_attach]
    rcases List.mem_append.1 he with he | he
    · exact h.lt_length e he
    · rw [List.mem_singleton.1 he]
      exact ⟨hp, hc⟩
  children := by
    intro i m hm d
    obtain ⟨n, hn, hchildren, _⟩ := exists_of_get?_attach hp hc hm
    rw [hchildren, List.mem_append, List.mem_singleton, Prod.mk.injEq, ← h.children hn]
    split
    next hpi => rw [mem_insertId, or_comm, and_iff_right hpi.symm]
    next hpi => simp [Ne.symm hpi]
  parent := by
    intro i m q hm hq
    obtain ⟨n, hn, _, hparent⟩ := exists_of_get?_attach hp hc hm
    rw [hparent] at hq
    split at hq
    next hci =>
      cases hq
      rw [hci]
      exact List.mem_append_right _ List.mem_cons_self
    next => exact List.mem_append_left _ (h.parent hn hq)
  parent_ne_none := by
    intro i m q hm hmade
    obtain ⟨n, hn, _, hparent⟩ := exists_of_get?_attach hp hc hm
    rw [hparent]
    split
    next => simp
    next hci =>
      rcases List.mem_append.1 hmade with hmade | hmade
      · exact h.parent_ne_none hn hmade
      · cases List.mem_singleton.1 hmade
        exact absurd rfl hci

/-- Calls record the attachments that they make. The attachments to come depend on the outline only
through the number of its nodes. -/
theorem foldl (calls : List Call) :
    (calls.foldl call o).Recorded (made ++ attachments o.nodes.length calls) := by
  induction calls generalizing o made with
  | nil =>
    rw [attachments, List.append_nil]
    exact h
  | cons first calls ih =>
    rw [List.foldl_cons]
    cases first with
    | create content span =>
      have hrest := ih (h.create content span)
      rw [length_create] at hrest
      exact hrest
    | attach p c =>
      rw [attachments]
      by_cases hexist : p < o.nodes.length ∧ c < o.nodes.length
      · have hrest := ih (h.attach hexist.1 hexist.2)
        rw [length_attach, List.append_assoc] at hrest
        rw [if_pos hexist]
        exact hrest
      · rw [if_neg hexist]
        have hcall : o.call (.attach p c) = o := if_neg hexist
        rw [hcall]
        exact ih h

end Recorded

/-- The links after calls are those of the attachments that the calls make. -/
theorem recorded_after (calls : List Call) : (after calls).Recorded (attachments 1 calls) :=
  (recorded_nil.create _ _).foldl calls

/-! ## When links agree -/

/-- A node is always among the children of its parent. The links agree in both directions exactly if the
calls attach no node to two different ones. -/
theorem linksAgree_after_iff (calls : List Call) :
    (∀ p c m n, (after calls).get? p = some m → (after calls).get? c = some n →
      n.parent = some p → c ∈ m.children) ∧
    ((after calls).LinksAgree ↔ ∀ p q c, (p, c) ∈ attachments 1 calls →
      (q, c) ∈ attachments 1 calls → p = q) := by
  have h := recorded_after calls
  refine ⟨?_, ?_, ?_⟩
  · intro p c m n hm hn hparent
    exact (h.children hm c).2 (h.parent hn hparent)
  · intro hagree p q c hp hq
    obtain ⟨n, hn⟩ := exists_get? (h.lt_length _ hp).2
    have hlink {r : NodeId} (hr : (r, c) ∈ attachments 1 calls) : n.parent = some r := by
      obtain ⟨m, hm⟩ := exists_get? (h.lt_length _ hr).1
      exact (hagree r c m n hm hn).1 ((h.children hm c).2 hr)
    exact Option.some.inj ((hlink hp).symm.trans (hlink hq))
  · intro hone p c m n hm hn
    rw [h.children hm]
    constructor
    · intro hp
      obtain ⟨q, hq⟩ := Option.ne_none_iff_exists'.1 (h.parent_ne_none hn hp)
      rw [hq, hone p q c hp (h.parent hn hq)]
    · exact h.parent hn

/-- The third node is attached to the first one and then to the second. -/
def moving : List Call :=
  [.create ⟨.grouping, 0, ['a'], []⟩ ⟨0, 0⟩, .create ⟨.grouping, 0, ['b'], []⟩ ⟨0, 0⟩,
    .create ⟨.value, 1, ['c'], []⟩ ⟨0, 0⟩, .attach 1 3, .attach 2 3]

/-- The first node keeps the third one among its children. -/
theorem links_disagree : ¬ (after moving).LinksAgree := by
  intro h
  have hparent := (h 1 3 _ _ rfl rfl).1 (by decide)
  exact absurd hparent (by decide)

end Outline

end TextAdventure.Script
