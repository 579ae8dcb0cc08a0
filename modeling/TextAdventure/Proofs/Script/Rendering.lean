import Mathlib.Data.List.Sort
import TextAdventure.Proofs.Script.Links
import TextAdventure.Proofs.Steps

/-!
# Showing an outline

A node is shown by going through all numbers between the least and the greatest of its children and
passing over those that are not among them. Nothing in this bounds how deep it goes: a node that was
attached to a node below it would be shown forever. In an outline whose children all have greater numbers
than their parents it comes to an end, and its outcome is that of going through the set of children
(`render_after`).

* The two bounds that a node keeps beside the set are its least and its greatest element, in whatever order
  and however often nodes are attached (`Node.Bounded`). So going from one to the other meets all children,
  and each of them once (`Node.Bounded.filter_childRange`).
* A run of the recursion is a finite derivation that puts no limit on the levels (`Outline.Shows`). If
  numbers ascend, what holds of the children of a node can be used for the node
  (`Outline.Ascending.induction`): there is a run for every node, and the levels that are allowed for are
  enough.
-/

namespace TextAdventure.Script

/-! ## The bounds of the children -/

/-- Putting in a number keeps numbers ascending. -/
theorem pairwise_insertId (id : NodeId) : ∀ {ids : List NodeId}, ids.Pairwise (· < ·) →
    (insertId id ids).Pairwise (· < ·)
  | [], _ => List.pairwise_singleton _ id
  | first :: rest, h => by
    obtain ⟨hfirst, hrest⟩ := List.pairwise_cons.1 h
    unfold insertId
    split
    next hlt =>
      exact .cons (List.forall_mem_cons.2 ⟨hlt, fun other ho => Nat.lt_trans hlt (hfirst other ho)⟩) h
    next hlt =>
      split
      next => exact h
      next hne =>
        refine .cons ?_ (pairwise_insertId id hrest)
        intro other hother
        rcases mem_insertId.1 hother with rfl | hother
        · exact Nat.lt_of_le_of_ne (Nat.le_of_not_lt hlt) (Ne.symm hne)
        · exact hfirst other hother

/-- The least number after one is put in. -/
theorem min?_insertId (id : NodeId) (ids : List NodeId) :
    (insertId id ids).min? = some (ids.min?.elim id (min · id)) := by
  cases hmin : ids.min? with
  | none =>
    rw [List.min?_eq_none_iff.1 hmin]
    rfl
  | some first =>
    obtain ⟨hmem, hle⟩ := List.min?_eq_some_iff.1 hmin
    rw [Option.elim_some]
    refine List.min?_eq_some_iff.2 ⟨?_, ?_⟩
    · rcases Nat.le_total first id with h | h
      · rw [Nat.min_eq_left h]
        exact mem_insertId.2 (.inr hmem)
      · exact mem_insertId.2 (.inl (Nat.min_eq_right h))
    · intro other hother
      rcases mem_insertId.1 hother with rfl | hother
      · exact Nat.min_le_right first other
      · exact Nat.le_trans (Nat.min_le_left first id) (hle other hother)

/-- The greatest number after one is put in. -/
theorem max?_insertId (id : NodeId) (ids : List NodeId) :
    (insertId id ids).max? = some (ids.max?.elim id (max · id)) := by
  cases hmax : ids.max? with
  | none =>
    rw [List.max?_eq_none_iff.1 hmax]
    rfl
  | some last =>
    obtain ⟨hmem, hle⟩ := List.max?_eq_some_iff.1 hmax
    rw [Option.elim_some]
    refine List.max?_eq_some_iff.2 ⟨?_, ?_⟩
    · rcases Nat.le_total last id with h | h
      · exact mem_insertId.2 (.inl (Nat.max_eq_right h))
      · rw [Nat.max_eq_left h]
        exact mem_insertId.2 (.inr hmem)
    · intro other hother
      rcases mem_insertId.1 hother with rfl | hother
      · exact Nat.le_max_right last other
      · exact Nat.le_trans (hle other hother) (Nat.le_max_left last id)

/-- The numbers from the first child to the last ascend. -/
theorem Node.pairwise_childRange (n : Node) : n.childRange.Pairwise (· < ·) := by
  unfold childRange
  split
  next => exact List.pairwise_lt_range' 1
  next => exact .nil

/-- The children of a node ascend, and its bounds are the least and the greatest of them. -/
structure Node.Bounded (n : Node) : Prop where
  ascending : n.children.Pairwise (· < ·)
  firstChild : n.firstChild = n.children.min?
  lastChild : n.lastChild = n.children.max?

namespace Node.Bounded

variable {n : Node}

/-- One more child keeps to the bounds, wherever its number lies. -/
theorem adopt (h : n.Bounded) (child : NodeId) : (n.adopt child).Bounded where
  ascending := pairwise_insertId child h.ascending
  firstChild := by
    rw [Node.adopt, min?_insertId, h.firstChild]
    cases n.children.min? <;> rfl
  lastChild := by
    rw [Node.adopt, max?_insertId, h.lastChild]
    cases n.children.max? <;> rfl

/-- All children lie between the bounds. -/
theorem mem_childRange (h : n.Bounded) {child : NodeId} (hchild : child ∈ n.children) :
    child ∈ n.childRange := by
  have hrange {first last : Nat} (hle : first ≤ child) (hge : child ≤ last) :
      child ∈ List.range' first (last + 1 - first) := by
    refine List.mem_range'_1.2 ⟨hle, ?_⟩
    rw [Nat.add_sub_cancel' (Nat.le_succ_of_le (Nat.le_trans hle hge))]
    exact Nat.lt_succ_of_le hge
  obtain ⟨first, hfirst⟩ := Option.ne_none_iff_exists'.1
    (mt List.min?_eq_none_iff.1 (List.ne_nil_of_mem hchild))
  obtain ⟨last, hlast⟩ := Option.ne_none_iff_exists'.1
    (mt List.max?_eq_none_iff.1 (List.ne_nil_of_mem hchild))
  unfold Node.childRange
  rw [h.firstChild, hfirst, h.lastChild, hlast]
  exact hrange ((List.min?_eq_some_iff.1 hfirst).2 child hchild)
    ((List.max?_eq_some_iff.1 hlast).2 child hchild)

/-- The numbers between the bounds that are children are the children, in their order. -/
theorem filter_childRange (h : n.Bounded) : n.childRange.filter (· ∈ n.children) = n.children := by
  refine (n.pairwise_childRange.filter _).eq_of_mem_iff h.ascending ?_
  intro child
  rw [List.mem_filter, decide_eq_true_iff]
  exact ⟨fun hboth => hboth.2, fun hchild => ⟨h.mem_childRange hchild, hchild⟩⟩

end Node.Bounded

namespace Outline

/-- A call leaves all nodes bounded. -/
theorem bounded_call {o : Outline} (h : ∀ n ∈ o.nodes, n.Bounded) (c : Call) :
    ∀ n ∈ (o.call c).nodes, n.Bounded := by
  cases c with
  | create content span =>
    refine List.forall_mem_append.2 ⟨h, List.forall_mem_singleton.2 ?_⟩
    exact ⟨.nil, rfl, rfl⟩
  | attach parent child =>
    rw [call, attach]
    split
    next =>
      refine Steps.forall_mem_modify (fun (n : Node) (hn : n.Bounded) => hn.adopt child) ?_ parent
      exact Steps.forall_mem_modify (fun n hn => ⟨hn.ascending, hn.firstChild, hn.lastChild⟩) h child
    next => exact h

/-- Calls keep the bounds of all nodes right. -/
theorem bounded_foldl {o : Outline} (h : ∀ n ∈ o.nodes, n.Bounded) (calls : List Call) :
    ∀ n ∈ (calls.foldl call o).nodes, n.Bounded := by
  induction calls generalizing o with
  | nil => exact h
  | cons c calls ih => exact ih (bounded_call h c)

/-- The nodes of an outline that calls build are bounded. -/
theorem bounded_after (calls : List Call) : ∀ n ∈ (after calls).nodes, n.Bounded := by
  refine bounded_foldl (List.forall_mem_singleton.2 ?_) calls
  exact ⟨.nil, rfl, rfl⟩

/-! ## Levels -/

section
variable {o : Outline} {id : NodeId} {n : Node}

/-- Nothing is shown of a node that is not there. -/
theorem showNode_missing (h : o.get? id = none) (levels : Nat) (after : List Char) :
    o.showNode levels id after = after := by
  cases levels with
  | zero => rfl
  | succ levels => rw [showNode, h]

/-- Texts in a row that are each made in front of what follows. -/
theorem foldr_showNode {levels : Nat}
    (h : ∀ id after, o.showNode levels id after = o.showNode levels id [] ++ after)
    (ids : List NodeId) (after : List Char) :
    ids.foldr (fun c more => o.showNode levels c (',' :: ' ' :: more)) after =
      (ids.flatMap fun c => o.showNode levels c [] ++ [',', ' ']) ++ after := by
  induction ids with
  | nil => rfl
  | cons c ids ih =>
    rw [List.foldr_cons, ih, h, List.flatMap_cons]
    simp only [List.append_assoc, List.cons_append, List.nil_append]

/-- What follows a node does not change how it is shown. -/
theorem showNode_append (o : Outline) (levels : Nat) (id : NodeId) (after : List Char) :
    o.showNode levels id after = o.showNode levels id [] ++ after := by
  induction levels generalizing id after with
  | zero => rfl
  | succ levels ih =>
    rw [showNode, showNode]
    cases o.get? id with
    | none => rfl
    | some n =>
      simp only [foldr_showNode ih, List.append_assoc, List.cons_append, List.nil_append]

/-- A node is shown by its heading and its children, which are shown with one level less. -/
theorem showNode_succ (h : o.get? id = some n) {levels : Nat} {text : NodeId → List Char}
    (htext : ∀ c ∈ n.children, o.showNode levels c [] = text c) :
    o.showNode (levels + 1) id [] = n.heading ++
      ((n.childRange.filter (· ∈ n.children)).flatMap fun c => text c ++ [',', ' ']) ++ ['\x7d'] := by
  have hshown : ((n.childRange.filter (· ∈ n.children)).flatMap fun c =>
        o.showNode levels c [] ++ [',', ' ']) =
      (n.childRange.filter (· ∈ n.children)).flatMap fun c => text c ++ [',', ' '] := by
    refine List.flatMap_congr ?_
    intro c hc
    rw [htext c (of_decide_eq_true (List.mem_filter.1 hc).2)]
  rw [showNode, h, List.append_assoc, ← hshown]
  exact congrArg (n.heading ++ ·) (foldr_showNode (o.showNode_append levels) _ _)

end

/-- All children have greater numbers than their parents. -/
def Ascending (o : Outline) : Prop :=
  ∀ {id : Nat} {n}, o.get? id = some n → ∀ c : Nat, c ∈ n.children → id < c

/-- In an ascending outline, what is to be proved of a node may be used of its children. The numbers
of nodes are bounded, so only so many come after a node. -/
theorem Ascending.induction {o : Outline} (h : o.Ascending) {motive : Nat → Prop}
    (missing : ∀ id : Nat, o.get? id = none → motive id)
    (node : ∀ (id : Nat) n, o.get? id = some n → (∀ c : Nat, c ∈ n.children → motive c) → motive id)
    (id : Nat) : motive id := by
  induction hafter : o.nodes.length - id using Nat.strongRecOn generalizing id with
  | ind count ih =>
    cases hget : o.get? id with
    | none => exact missing id hget
    | some n =>
      have hlt : id < o.nodes.length := (List.getElem?_eq_some_iff.1 hget).1
      refine node id n hget ?_
      intro c hc
      have hidc := h hget c hc
      exact ih (o.nodes.length - c) (by omega) c rfl

namespace Ascending

variable {o : Outline} (h : o.Ascending)
include h

/-- There are enough levels for all nodes that can come. One level less is enough for the children,
whose numbers are greater. -/
theorem showNode_eq (id : Nat) : ∀ levels, o.nodes.length ≤ levels + id →
    o.showNode levels id [] = o.render id := by
  induction id using h.induction with
  | missing id hget =>
    intro levels _
    rw [render, showNode_missing hget, showNode_missing hget]
  | node id n hget ih =>
    intro levels hlevels
    have hlt : id < o.nodes.length := (List.getElem?_eq_some_iff.1 hget).1
    obtain ⟨fewer, rfl⟩ := Nat.exists_eq_add_one_of_ne_zero (show levels ≠ 0 by omega)
    obtain ⟨most, hmost⟩ := Nat.exists_eq_add_one_of_ne_zero (show o.nodes.length ≠ 0 by omega)
    have hchildren : ∀ less, o.nodes.length ≤ less + 1 + id → ∀ c : Nat, c ∈ n.children →
        o.showNode less c [] = o.render c := by
      intro less hless c hc
      have hidc := h hget c hc
      exact ih c hc less (by omega)
    rw [render, hmost, showNode_succ hget (hchildren fewer hlevels),
      showNode_succ hget (hchildren most (by omega))]

/-- A node is shown by its heading and what is shown of its children. -/
theorem render_of_get? {id : Nat} {n : Node} (hget : o.get? id = some n) :
    o.render id = n.heading ++
      ((n.childRange.filter (· ∈ n.children)).flatMap fun c => o.render c ++ [',', ' ']) ++
      ['\x7d'] := by
  have hlt : id < o.nodes.length := (List.getElem?_eq_some_iff.1 hget).1
  obtain ⟨most, hmost⟩ := Nat.exists_eq_add_one_of_ne_zero (show o.nodes.length ≠ 0 by omega)
  have hchildren : ∀ c : Nat, c ∈ n.children → o.showNode most c [] = o.render c := by
    intro c hc
    have hidc := h hget c hc
    exact h.showNode_eq c most (by omega)
  rw [render, hmost, showNode_succ hget hchildren]

end Ascending

/-! ## Runs -/

mutual

/-- A run that shows a node, with the text that comes of it. A number without a node has no text. -/
inductive Shows (o : Outline) : NodeId → List Char → Prop
  | missing {id : NodeId} : o.get? id = none → Shows o id []
  | node {id : NodeId} {n : Node} {inside : List Char} : o.get? id = some n →
      Scans o n n.childRange inside → Shows o id (n.heading ++ inside ++ ['\x7d'])

/-- A run through numbers, which shows those that are children of a node and passes over the others. -/
inductive Scans (o : Outline) : Node → List NodeId → List Char → Prop
  | done {n : Node} : Scans o n [] []
  | skip {n : Node} {id : NodeId} {ids : List NodeId} {text : List Char} : id ∉ n.children →
      Scans o n ids text → Scans o n (id :: ids) text
  | child {n : Node} {id : NodeId} {ids : List NodeId} {shown text : List Char} : id ∈ n.children →
      Shows o id shown → Scans o n ids text → Scans o n (id :: ids) (shown ++ [',', ' '] ++ text)

end

/-- If the children of a node are shown in one way each, a run through numbers has one outcome. -/
theorem scans_iff {o : Outline} {n : Node} {text : NodeId → List Char}
    (h : ∀ c ∈ n.children, ∀ shown, o.Shows c shown ↔ shown = text c) (ids : List NodeId)
    (inside : List Char) : o.Scans n ids inside ↔
      inside = (ids.filter (· ∈ n.children)).flatMap fun c => text c ++ [',', ' '] := by
  induction ids generalizing inside with
  | nil =>
    refine ⟨?_, ?_⟩
    · intro hscan
      cases hscan
      rfl
    · rintro rfl
      exact .done
  | cons id ids ih =>
    by_cases hid : id ∈ n.children
    · rw [List.filter_cons_of_pos (by simpa using hid), List.flatMap_cons]
      refine ⟨?_, ?_⟩
      · intro hscan
        cases hscan with
        | skip hskip _ => exact absurd hid hskip
        | child _ hshown hrest => rw [(h id hid _).1 hshown, (ih _).1 hrest]
      · rintro rfl
        exact .child hid ((h id hid _).2 rfl) ((ih _).2 rfl)
    · rw [List.filter_cons_of_neg (by simpa using hid)]
      refine ⟨?_, ?_⟩
      · intro hscan
        cases hscan with
        | skip _ hrest => exact (ih _).1 hrest
        | child hchild _ _ => exact absurd hchild hid
      · intro hinside
        exact .skip hid ((ih _).2 hinside)

/-- In an ascending outline there is a run for every number, and what is shown is its outcome. -/
theorem Ascending.shows_iff {o : Outline} (h : o.Ascending) (id : NodeId) :
    ∀ text, o.Shows id text ↔ text = o.render id := by
  induction id using h.induction with
  | missing id hget =>
    intro text
    rw [render, showNode_missing hget]
    refine ⟨?_, ?_⟩
    · intro hshow
      cases hshow with
      | missing _ => rfl
      | node hn _ => cases hget.symm.trans hn
    · rintro rfl
      exact .missing hget
  | node id n hget ih =>
    intro text
    rw [h.render_of_get? hget]
    refine ⟨?_, ?_⟩
    · intro hshow
      cases hshow with
      | missing hnone => cases hget.symm.trans hnone
      | node hn hscan =>
        cases hget.symm.trans hn
        rw [(scans_iff ih _ _).1 hscan]
    · rintro rfl
      exact .node hget ((scans_iff ih _ _).2 rfl)

/-! ## Going through the children -/

/-- Texts of all numbers such that the text of a node lists exactly its children, in their order: the
heading comes first, then the text of each child with a comma and a space, then a brace. A number without a
node has no text. -/
structure IsListing (o : Outline) (text : NodeId → List Char) : Prop where
  missing : ∀ {id}, o.get? id = none → text id = []
  node : ∀ {id n}, o.get? id = some n →
    text id = n.heading ++ (n.children.flatMap fun c => text c ++ [',', ' ']) ++ ['\x7d']

/-- In an ascending outline of bounded nodes, texts list the children exactly if they are what is shown. -/
theorem Ascending.isListing_iff {o : Outline} (h : o.Ascending) (hbounded : ∀ n ∈ o.nodes, n.Bounded)
    (text : NodeId → List Char) : o.IsListing text ↔ text = o.render := by
  have hnode : ∀ {id n}, o.get? id = some n → o.render id =
      n.heading ++ (n.children.flatMap fun c => o.render c ++ [',', ' ']) ++ ['\x7d'] := by
    intro id n hget
    have hn : n.Bounded := hbounded n (List.mem_of_getElem? hget)
    rw [h.render_of_get? hget, hn.filter_childRange]
  refine ⟨?_, ?_⟩
  · intro hlisting
    funext id
    induction id using h.induction with
    | missing id hget => rw [hlisting.missing hget, render, showNode_missing hget]
    | node id n hget ih =>
      have hchildren : (n.children.flatMap fun c => text c ++ [',', ' ']) =
          n.children.flatMap fun c => o.render c ++ [',', ' '] := by
        refine List.flatMap_congr ?_
        intro c hc
        rw [ih c hc]
      rw [hlisting.node hget, hnode hget, hchildren]
  · rintro rfl
    exact ⟨fun hget => showNode_missing hget _ _, hnode⟩

/-- Suppose that calls build an outline, in any order, in which every node that is attached has a greater
number than the one it is attached to. Then the children of a node are the nodes that were attached to it,
in ascending order, and its bounds are the least and the greatest of them. Showing any node comes to an
end, with the text that it is shown as. This text lists the children of the node and is the only one that
does. -/
theorem render_after (calls : List Call) (hgreater : ∀ e ∈ attachments 1 calls, e.1 < e.2) :
    (∀ id n, (after calls).get? id = some n →
      n.firstChild = n.children.min? ∧ n.lastChild = n.children.max? ∧
      n.children.Pairwise (· < ·) ∧ ∀ c, c ∈ n.children ↔ (id, c) ∈ attachments 1 calls) ∧
    (∀ id text, (after calls).Shows id text ↔ text = (after calls).render id) ∧
    (∀ text, (after calls).IsListing text ↔ text = (after calls).render) := by
  have hrecorded := recorded_after calls
  have hascending : (after calls).Ascending := by
    intro id n hget c hc
    exact hgreater (id, c) ((hrecorded.children hget c).1 hc)
  refine ⟨?_, hascending.shows_iff, hascending.isListing_iff (bounded_after calls)⟩
  intro id n hget
  have hn := bounded_after calls n (List.mem_of_getElem? hget)
  exact ⟨hn.firstChild, hn.lastChild, hn.ascending, hrecorded.children hget⟩

/-- The children of the root are attached in descending order and one of them twice, the third node is also
attached to the first one, and a call names a node that does not exist. -/
def scattered : List Call :=
  [.create ⟨.groupingCommand, 0, ['a'], []⟩ ⟨0, 0⟩, .create ⟨.command, 1, ['b'], []⟩ ⟨0, 0⟩,
    .create ⟨.value, 0, ['c'], []⟩ ⟨0, 0⟩, .attach 0 3, .attach 1 2, .attach 0 1, .attach 0 3,
    .attach 9 2, .attach 1 3]

/-- The third node is shown in both nodes that it is attached to, and each child once. -/
theorem render_scattered : (∀ e ∈ attachments 1 scattered, e.1 < e.2) ∧
    (after scattered).Shows 0
      ("0 (grouping): \x7b\n1 a(grouping_command): \x7b\n2 b(command): \x7b\n\t\x7d, " ++
        "3 c(value): \x7b\n\x7d, \x7d, 3 c(value): \x7b\n\x7d, \x7d").toList := by
  have hgreater : ∀ e ∈ attachments 1 scattered, e.1 < e.2 := by decide
  exact ⟨hgreater, ((render_after scattered hgreater).2.1 0 _).2 (by decide +kernel)⟩

end Outline

end TextAdventure.Script
