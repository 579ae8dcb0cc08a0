import TextAdventure.Proofs.Script.Forest

/-!
# Outlines in preorder

What is read from statements is a tree whose nodes are numbered in the order of a depth-first walk
(`ofStatements_wellFormed`). Nothing of this is kept up while reading: it holds of the outline of any
forest (`Outline.wellFormed_ofForest`), by induction on the forest for an arbitrary number of its
first statement, and all outlines that are read are of this form.
-/

namespace TextAdventure.Script

/-! ## Walks and lineages -/

/-- Goes through a node and all below it, down to a number of levels. The list for a node is made by
`visit` from the lists for its children, which come in the order of the children. -/
def Outline.collect {β : Type} (o : Outline) (visit : Node → List β → List β) :
    (levels : Nat) → NodeId → List β
  | 0, _ => []
  | levels + 1, id =>
    match o.get? id with
    | none => []
    | some n => visit n (n.children.flatMap (o.collect visit levels))

/-- The numbers that a walk from the root meets, a node before its children. No branch of a tree has
more levels than the tree has nodes. -/
def Outline.walk (o : Outline) : List NodeId :=
  o.collect (fun n below => n.id :: below) o.nodes.length root

/-- The nodes above a node, from its parent upwards. -/
inductive Outline.Lineage (o : Outline) : NodeId → List NodeId → Prop
  | nil {id : NodeId} : o.parent? id = none → Lineage o id []
  | cons {id parent : NodeId} {above : List NodeId} :
      o.parent? id = some parent → Lineage o parent above → Lineage o id (parent :: above)

/-- An outline is a tree, and its nodes are numbered in preorder. -/
structure Outline.WellFormed (o : Outline) : Prop where
  numbered : o.nodes.map Node.id = List.range o.nodes.length
  /-- There is a root, and it stands in nothing. -/
  root : ∃ n, o.get? root = some n ∧ n.parent = none
  /-- Every other node stands in the root or in a group, which comes before it. -/
  parent : ∀ n ∈ o.nodes, n.id ≠ Outline.root → ∃ p ∈ o.nodes, n.parent = some p.id ∧ p.id < n.id ∧
    (p.id = Outline.root ∨ p.content.kind.isGrouping = true)
  /-- The children of a node are exactly the nodes that have it as their parent. -/
  mem_children_iff : ∀ p ∈ o.nodes, ∀ c, c ∈ p.children ↔ o.parent? c = some p.id
  ascending : ∀ n ∈ o.nodes, n.children.Pairwise (· < ·)
  firstChild : ∀ n ∈ o.nodes, n.firstChild = n.children.min?
  lastChild : ∀ n ∈ o.nodes, n.lastChild = n.children.max?
  /-- The depth of a node is the number of nodes above it, without the root. -/
  depth : ∀ n ∈ o.nodes, n.id ≠ Outline.root →
    ∃ above, o.Lineage n.id above ∧ n.content.depth = above.countP (· ≠ Outline.root)
  walk : o.walk = List.range o.nodes.length

/-! ## Nodes of a forest -/

namespace Forest

variable {table : KeywordTable} {f : Forest} {parent depth first : Nat}

/-- The nodes of a forest are numbered one after the other. -/
theorem map_id_nodes (table : KeywordTable) (f : Forest) (parent depth first : Nat) :
    (f.nodes table parent depth first).map Node.id = List.range' first f.size := by
  induction f generalizing parent depth first with
  | nil => rfl
  | say keyword arguments span after ih =>
    rw [nodes, size, List.range'_succ, List.map_cons, ih]
    rfl
  | group keyword span inside after ihinside ihafter =>
    rw [nodes, size, List.range'_succ, List.map_cons, List.map_append, ihinside, ihafter,
      ← List.range'_append_1]
    rfl

/-- The numbers of the nodes of a forest are bounded by its size. -/
theorem le_id_of_mem_nodes {n : Node} (h : n ∈ f.nodes table parent depth first) :
    first ≤ n.id ∧ n.id < first + f.size := by
  have hid : n.id ∈ (f.nodes table parent depth first).map Node.id := List.mem_map_of_mem h
  rw [map_id_nodes] at hid
  exact List.mem_range'_1.1 hid

/-- A node stands in the group around the forest, or in a group of the forest that comes before it
and is less deep by one. -/
theorem parent_of_mem_nodes {n : Node} (h : n ∈ f.nodes table parent depth first) :
    (n.parent = some parent ∧ n.content.depth = depth) ∨
      ∃ p ∈ f.nodes table parent depth first, n.parent = some p.id ∧ p.id < n.id ∧
        p.content.kind.isGrouping = true ∧ n.content.depth = p.content.depth + 1 := by
  induction f generalizing parent depth first with
  | nil => cases h
  | say keyword arguments span after ih =>
    rcases List.mem_cons.1 h with rfl | h
    · exact .inl ⟨rfl, rfl⟩
    · rcases ih h with hp | ⟨p, hp, hrest⟩
      · exact .inl hp
      · exact .inr ⟨p, List.mem_cons_of_mem _ hp, hrest⟩
  | group keyword span inside after ihinside ihafter =>
    rcases List.mem_cons.1 h with rfl | h
    · exact .inl ⟨rfl, rfl⟩
    rcases List.mem_append.1 h with h | h
    · rcases ihinside h with ⟨hp, hdepth⟩ | ⟨p, hp, hrest⟩
      · have hid := le_id_of_mem_nodes h
        refine .inr ⟨_, List.mem_cons_self, hp, hid.1, ?_, hdepth⟩
        exact NodeKind.isGrouping_grouped _
      · exact .inr ⟨p, List.mem_cons_of_mem _ (List.mem_append_left _ hp), hrest⟩
    · rcases ihafter h with hp | ⟨p, hp, hrest⟩
      · exact .inl hp
      · exact .inr ⟨p, List.mem_cons_of_mem _ (List.mem_append_right _ hp), hrest⟩

/-- The links upwards are the links downwards: a node that stands in `p` is a root of the forest, if
`p` is around the forest, or a child of `p`. In a group, only the group itself has its number, and
the roots inside it have that number as their parent. -/
theorem exists_parent_iff {p c : Nat} :
    (∃ n ∈ f.nodes table parent depth first, n.id = c ∧ n.parent = some p) ↔
      (p = parent ∧ c ∈ f.roots first) ∨
        ∃ n ∈ f.nodes table parent depth first, n.id = p ∧ c ∈ n.children := by
  induction f generalizing parent depth first with
  | nil => simp [nodes, roots]
  | say keyword arguments span after ih =>
    have hhead : ∀ n : Node, n = .ofSay table keyword arguments span parent depth first →
        n.id = first ∧ n.parent = some parent ∧ n.children = [] := by
      rintro n rfl
      exact ⟨rfl, rfl, rfl⟩
    rw [nodes, roots, List.exists_mem_cons_iff, List.exists_mem_cons_iff, ih]
    grind
  | group keyword span inside after ihinside ihafter =>
    have hhead : ∀ n : Node, n = .ofGroup table keyword span parent depth first
        (inside.roots (first + 1)) →
        n.id = first ∧ n.parent = some parent ∧ n.children = inside.roots (first + 1) := by
      rintro n rfl
      exact ⟨rfl, rfl, rfl⟩
    simp only [nodes, roots, List.exists_mem_cons_iff, List.mem_append, or_and_right, exists_or,
      ihinside, ihafter]
    grind

/-- The roots of a forest ascend. -/
theorem pairwise_roots (f : Forest) (first : Nat) : (f.roots first).Pairwise (· < ·) := by
  induction f generalizing first with
  | nil => exact .nil
  | say keyword arguments span after ih =>
    refine List.pairwise_cons.2 ⟨fun id hid => ?_, ih (first + 1)⟩
    exact (bounds_of_mem_roots hid).1
  | group keyword span inside after _ ih =>
    refine List.pairwise_cons.2 ⟨fun id hid => ?_, ih (first + 1 + inside.size)⟩
    have := bounds_of_mem_roots hid
    omega

/-- The children of a node are the roots of a forest, and its bounds are the ends of their list. -/
theorem children_of_mem_nodes {n : Node} (h : n ∈ f.nodes table parent depth first) :
    ∃ (inside : Forest) (start : Nat), n.children = inside.roots start ∧
      n.firstChild = n.children.head? ∧ n.lastChild = n.children.getLast? := by
  induction f generalizing parent depth first with
  | nil => cases h
  | say keyword arguments span after ih =>
    rcases List.mem_cons.1 h with rfl | h
    · exact ⟨.nil, first, rfl, rfl, rfl⟩
    · exact ih h
  | group keyword span inside after ihinside ihafter =>
    rcases List.mem_cons.1 h with rfl | h
    · exact ⟨inside, first + 1, rfl, rfl, rfl⟩
    rcases List.mem_append.1 h with h | h
    · exact ihinside h
    · exact ihafter h

/-- What a walk makes of a forest. -/
def collect {β : Type} (table : KeywordTable) (visit : Node → List β → List β) :
    Forest → (parent depth first : Nat) → List β
  | nil, _, _, _ => []
  | say keyword arguments span after, parent, depth, first =>
    visit (.ofSay table keyword arguments span parent depth first) [] ++
      after.collect table visit parent depth (first + 1)
  | group keyword span inside after, parent, depth, first =>
    visit (.ofGroup table keyword span parent depth first (inside.roots (first + 1)))
        (inside.collect table visit first (depth + 1) (first + 1)) ++
      after.collect table visit parent depth (first + 1 + inside.size)

/-- A walk over a forest meets the numbers in their order. -/
theorem collect_id (table : KeywordTable) (f : Forest) (parent depth first : Nat) :
    f.collect table (fun n below => n.id :: below) parent depth first =
      List.range' first f.size := by
  rw [← map_id_nodes table f parent depth first]
  induction f generalizing parent depth first with
  | nil => rfl
  | say keyword arguments span after ih => rw [collect, ih, nodes, List.map_cons]; rfl
  | group keyword span inside after ihinside ihafter =>
    rw [collect, ihinside, ihafter, nodes, List.map_cons, List.map_append]
    rfl

end Forest

/-! ## Outlines of forests -/

namespace Outline

variable {o : Outline} {β : Type} {visit : Node → List β → List β}

/-- A walk with a level left visits a node and goes on with its children. -/
theorem collect_succ {id : NodeId} {n : Node} (h : o.get? id = some n) (levels : Nat) :
    o.collect visit (levels + 1) id = visit n (n.children.flatMap (o.collect visit levels)) := by
  rw [collect, h]

/-- A walk over an outline that holds a forest is a walk over the forest, if it goes as many levels
down as the forest has statements. -/
theorem flatMap_collect_roots {table : KeywordTable} {f : Forest} {parent depth first levels : Nat}
    (hget : ∀ n ∈ f.nodes table parent depth first, o.get? n.id = some n) (hlevels : f.size ≤ levels) :
    (f.roots first).flatMap (o.collect visit levels) = f.collect table visit parent depth first := by
  induction f generalizing parent depth first levels with
  | nil => rfl
  | say keyword arguments span after ih =>
    obtain ⟨hhead, hafter⟩ := List.forall_mem_cons.1 hget
    obtain ⟨levels, rfl⟩ := Nat.exists_eq_add_of_le' (Nat.le_trans (Nat.le_add_left 1 _) hlevels)
    rw [Forest.size] at hlevels
    rw [Forest.roots, List.flatMap_cons, Forest.collect, ih hafter (by omega)]
    exact congrArg (· ++ _) (collect_succ hhead levels)
  | group keyword span inside after ihinside ihafter =>
    obtain ⟨hhead, hrest⟩ := List.forall_mem_cons.1 hget
    obtain ⟨hinside, hafter⟩ := List.forall_mem_append.1 hrest
    obtain ⟨levels, rfl⟩ := Nat.exists_eq_add_of_le' (Nat.le_trans (Nat.le_add_left 1 _) hlevels)
    rw [Forest.size] at hlevels
    have hlevels' : inside.size ≤ levels := by omega
    rw [Forest.roots, List.flatMap_cons, Forest.collect, ihafter hafter (by omega),
      ← ihinside hinside hlevels']
    exact congrArg (· ++ _) (collect_succ hhead levels)

/-- A node that is found by a number has this number. -/
theorem id_of_get? (h : o.nodes.map Node.id = List.range o.nodes.length) {id : NodeId} {n : Node}
    (hn : o.get? id = some n) : n.id = id := by
  obtain ⟨hlt, _⟩ := List.getElem?_eq_some_iff.1 hn
  have hid : (o.nodes.map Node.id)[id]? = some n.id := by
    rw [List.getElem?_map]
    exact congrArg (Option.map Node.id) hn
  rw [h, List.getElem?_range hlt] at hid
  exact (Option.some.inj hid).symm

/-- A node is found by its number. -/
theorem get?_of_mem (h : o.nodes.map Node.id = List.range o.nodes.length) {n : Node}
    (hn : n ∈ o.nodes) : o.get? n.id = some n := by
  obtain ⟨id, hget⟩ : ∃ id : NodeId, o.get? id = some n := List.mem_iff_getElem?.1 hn
  rw [id_of_get? h hget]
  exact hget

/-- The parent that is found by a number is that of a node with this number. -/
theorem parent?_eq_some_iff (h : o.nodes.map Node.id = List.range o.nodes.length) {c p : NodeId} :
    o.parent? c = some p ↔ ∃ n ∈ o.nodes, n.id = c ∧ n.parent = some p := by
  refine ⟨fun hp => ?_, ?_⟩
  · obtain ⟨n, hn, hparent⟩ := Option.bind_eq_some_iff.1 hp
    exact ⟨n, List.mem_of_getElem? hn, id_of_get? h hn, hparent⟩
  · rintro ⟨n, hn, rfl, hparent⟩
    rw [parent?, get?_of_mem h hn]
    exact hparent

/-- The greatest of ascending numbers is the last one. -/
theorem max?_of_pairwise_lt {ids : List Nat} (h : ids.Pairwise (· < ·)) :
    ids.max? = ids.getLast? := by
  rcases List.eq_nil_or_concat ids with rfl | ⟨front, last, rfl⟩
  · rfl
  · rw [List.concat_eq_append] at h ⊢
    rw [List.getLast?_concat, List.max?_eq_some_iff]
    refine ⟨by simp, fun id hid => ?_⟩
    rcases List.mem_append.1 hid with hid | hid
    · exact Nat.le_of_lt ((List.pairwise_append.1 h).2.2 id hid last List.mem_cons_self)
    · exact Nat.le_of_eq (List.mem_singleton.1 hid)

section
variable (table : KeywordTable) (f : Forest)

/-- The nodes of the outline of a forest are numbered from the root on. -/
theorem map_id_ofForest : (ofForest table f).nodes.map Node.id =
    List.range (ofForest table f).nodes.length := by
  rw [List.range_eq_range', ofForest, List.map_cons, List.length_cons, List.range'_succ,
    Forest.map_id_nodes, Forest.length_nodes]
  rfl

/-- A node of the outline of a forest is found by its number. -/
theorem get?_ofForest {n : Node} (hn : n ∈ (ofForest table f).nodes) :
    (ofForest table f).get? n.id = some n :=
  get?_of_mem (map_id_ofForest table f) hn

/-- A walk from the root of the outline of a forest. -/
theorem collect_ofForest :
    (ofForest table f).collect visit (ofForest table f).nodes.length root =
      visit (.ofRoot (f.roots 1)) (f.collect table visit root 0 1) := by
  have hget : ∀ n ∈ f.nodes table root 0 1, (ofForest table f).get? n.id = some n := fun n hn =>
    get?_ofForest table f (List.mem_cons_of_mem _ hn)
  have hroot : (ofForest table f).get? root = some (.ofRoot (f.roots 1)) := rfl
  rw [← flatMap_collect_roots hget (Nat.le_refl _), ← Forest.length_nodes table f root 0 1]
  exact collect_succ hroot _

/-- Every node of the outline of a forest, other than the root, stands in a group with a smaller
number, one level deeper unless that is the root. -/
theorem parent_ofForest {n : Node} (hn : n ∈ (ofForest table f).nodes) (hroot : n.id ≠ root) :
    ∃ p ∈ (ofForest table f).nodes, n.parent = some p.id ∧ p.id < n.id ∧
      p.content.kind.isGrouping = true ∧
      n.content.depth = if p.id = root then 0 else p.content.depth + 1 := by
  rcases List.mem_cons.1 hn with rfl | hn
  · exact absurd rfl hroot
  have hid := Forest.le_id_of_mem_nodes hn
  rcases Forest.parent_of_mem_nodes hn with ⟨hparent, hdepth⟩ | ⟨p, hp, hparent, hlt, hgroup, hdepth⟩
  · exact ⟨.ofRoot (f.roots 1), List.mem_cons_self, hparent, hid.1, rfl, hdepth⟩
  · have hpid : ¬ p.id = root := Nat.ne_of_gt (Forest.le_id_of_mem_nodes hp).1
    refine ⟨p, List.mem_cons_of_mem _ hp, hparent, hlt, hgroup, ?_⟩
    rw [if_neg hpid, hdepth]

/-- The children of a node are exactly the nodes that have it as their parent. A number has only one
node. -/
theorem mem_children_ofForest {p : Node} (hp : p ∈ (ofForest table f).nodes) (c : NodeId) :
    c ∈ p.children ↔ (ofForest table f).parent? c = some p.id := by
  have hchild : c ∈ p.children ↔
      ∃ n ∈ (ofForest table f).nodes, n.id = p.id ∧ c ∈ n.children := by
    refine ⟨fun hc => ⟨p, hp, rfl, hc⟩, ?_⟩
    rintro ⟨n, hn, hid, hc⟩
    have hsame := get?_ofForest table f hn
    rw [hid, get?_ofForest table f hp] at hsame
    rwa [Option.some.inj hsame]
  have hroot : ∀ n : Node, n = .ofRoot (f.roots 1) →
      n.id = root ∧ n.parent = none ∧ n.children = f.roots 1 := by
    rintro n rfl
    exact ⟨rfl, rfl, rfl⟩
  rw [parent?_eq_some_iff (map_id_ofForest table f), hchild, ofForest, List.exists_mem_cons_iff,
    List.exists_mem_cons_iff, Forest.exists_parent_iff]
  grind

/-- The depth of a node is the number of nodes above it, without the root. The induction is on the
number of the node, which is greater than that of its parent. -/
theorem exists_lineage_ofForest {n : Node} (hn : n ∈ (ofForest table f).nodes)
    (hroot : n.id ≠ root) : ∃ above, (ofForest table f).Lineage n.id above ∧
      n.content.depth = above.countP (· ≠ root) := by
  induction hid : n.id using Nat.strongRecOn generalizing n with
  | ind id ih =>
    subst hid
    obtain ⟨p, hp, hparent, hlt, _, hdepth⟩ := parent_ofForest table f hn hroot
    have hparent? : (ofForest table f).parent? n.id = some p.id := by
      rw [parent?, get?_ofForest table f hn]
      exact hparent
    by_cases hpid : p.id = root
    · refine ⟨[p.id], .cons hparent? (.nil ?_), ?_⟩
      · rw [hpid]
        rfl
      · simp [hdepth, hpid]
    · obtain ⟨above, habove, hcount⟩ := ih p.id hlt hp hpid rfl
      refine ⟨p.id :: above, .cons hparent? habove, ?_⟩
      rw [hdepth, if_neg hpid, hcount, List.countP_cons_of_pos (by simpa using hpid)]

/-- The outline of a forest is a tree in preorder. -/
theorem wellFormed_ofForest : (ofForest table f).WellFormed := by
  have hlinks : ∀ n ∈ (ofForest table f).nodes, ∃ (inside : Forest) (start : Nat),
      n.children = inside.roots start ∧ n.firstChild = n.children.head? ∧
        n.lastChild = n.children.getLast? :=
    List.forall_mem_cons.2 ⟨⟨f, 1, rfl, rfl, rfl⟩, fun n hn => Forest.children_of_mem_nodes hn⟩
  have hascending : ∀ n ∈ (ofForest table f).nodes, n.children.Pairwise (· < ·) := by
    intro n hn
    obtain ⟨inside, start, hchildren, _⟩ := hlinks n hn
    rw [hchildren]
    exact inside.pairwise_roots start
  refine ⟨map_id_ofForest table f, ⟨_, rfl, rfl⟩, fun n hn hroot => ?_,
    fun p hp c => mem_children_ofForest table f hp c, hascending, fun n hn => ?_, fun n hn => ?_,
    fun n hn hroot => exists_lineage_ofForest table f hn hroot, ?_⟩
  · obtain ⟨p, hp, hparent, hlt, hgroup, _⟩ := parent_ofForest table f hn hroot
    exact ⟨p, hp, hparent, hlt, .inr hgroup⟩
  · obtain ⟨_, _, _, hfirst, _⟩ := hlinks n hn
    rw [hfirst, List.min?_eq_head?]
    exact (hascending n hn).imp fun hlt => Nat.min_eq_left (Nat.le_of_lt hlt)
  · obtain ⟨_, _, _, _, hlast⟩ := hlinks n hn
    rw [hlast, max?_of_pairwise_lt (hascending n hn)]
  · rw [walk, collect_ofForest, Forest.collect_id, List.range_eq_range', ofForest, List.length_cons,
      List.range'_succ, Forest.length_nodes]
    rfl

end

end Outline

/-- What is read from statements, whatever they are, is a tree, and its nodes are numbered in the
order of a depth-first walk. -/
theorem ofStatements_wellFormed (table : KeywordTable) (statements : List Statement) :
    (Reading.ofStatements table statements).outline.WellFormed := by
  rw [ofStatements_eq]
  exact Outline.wellFormed_ofForest table _

end TextAdventure.Script
