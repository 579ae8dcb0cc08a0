import TextAdventure.Proofs.Script.Passage

/-!
# Outlines as forests

A script says statements one after the other, and a group has statements inside it. That is a forest,
and an outline is nothing else: `Outline.ofForest` numbers the statements of a forest in the order in
which they stand, gives each its depth, and links groups with what is inside them.

While a script is read, some groups are open. A `Zipper` is a forest of which only the part before a
place is known: the statements so far of the innermost open group, and for every open group what
stands before it. Each clause is a move of the zipper, and reading it makes the same move
(`Zipper.progress_read`): the outline, the current node, the depth and the open groups of a `Progress`
are all determined by the zipper. A closing leaves the outline as it is, so in the end all groups may
be thought closed, and the outline is that of a forest (`ofStatements_eq`).
-/

namespace TextAdventure.Script

/-- Statements one after the other, those of a group inside it. -/
inductive Forest where
  | nil
  | say (keyword : List Char) (arguments : List (List Char)) (span : Span) (after : Forest)
  | group (keyword : List Char) (span : Span) (inside after : Forest)

/-! ## Links -/

/-- A node whose least child is its first and whose greatest child is its last. -/
def Node.linked (id : NodeId) (content : Content) (span : Span) (parent : Option NodeId)
    (children : List NodeId) : Node :=
  { id, content, span, parent, children
    firstChild := children.head?
    lastChild := children.getLast? }

/-- The node of a statement that opens no group. -/
def Node.ofSay (table : KeywordTable) (keyword : List Char) (arguments : List (List Char))
    (span : Span) (parent depth id : Nat) : Node :=
  .linked id ⟨Progress.kindOf table keyword, depth, keyword, arguments⟩ span (some parent) []

/-- The node of a group. -/
def Node.ofGroup (table : KeywordTable) (keyword : List Char) (span : Span) (parent depth id : Nat)
    (children : List Nat) : Node :=
  .linked id ⟨(Progress.kindOf table keyword).grouped, depth, keyword, []⟩ span (some parent) children

/-- The root. -/
def Node.ofRoot (children : List Nat) : Node :=
  .linked Outline.root ⟨.grouping, 0, [], []⟩ ⟨0, 0⟩ none children

/-- The kind of a group is a grouping one. -/
theorem NodeKind.isGrouping_grouped (kind : NodeKind) : kind.grouped.isGrouping = true := by
  cases kind <;> rfl

/-- A keyword alone makes no group. -/
theorem Progress.isGrouping_kindOf (table : KeywordTable) (keyword : List Char) :
    (kindOf table keyword).isGrouping = false := by
  unfold kindOf
  split <;> rfl

/-- A number above all others is put in last. -/
theorem insertId_of_forall_lt {id : Nat} {ids : List Nat} (h : ∀ other ∈ ids, other < id) :
    insertId id ids = ids ++ [id] := by
  induction ids with
  | nil => rfl
  | cons other ids ih =>
    obtain ⟨hother, hids⟩ := List.forall_mem_cons.1 h
    have hlt : ¬ id < other := Nat.lt_asymm hother
    have hne : ¬ id = other := Nat.ne_of_gt hother
    rw [insertId, if_neg hlt, if_neg hne, ih hids, List.cons_append]

/-- A child whose number is above all others comes last. -/
theorem Node.adopt_linked {id child : Nat} {content : Content} {span : Span} {parent : Option Nat}
    {children : List Nat} (h : ∀ other ∈ children, other < child) :
    (linked id content span parent children).adopt child =
      linked id content span parent (children ++ [child]) := by
  cases hlast : children.getLast? with
  | none =>
    cases List.getLast?_eq_none_iff.1 hlast
    rfl
  | some last =>
    obtain ⟨first, rest, rfl⟩ : ∃ first rest, children = first :: rest :=
      List.exists_cons_of_ne_nil (by rintro rfl; cases hlast)
    have hmin : min first child = first := Nat.min_eq_left (Nat.le_of_lt (h first (by simp)))
    have hmax : max last child = child :=
      Nat.max_eq_right (Nat.le_of_lt (h last (List.mem_of_getLast? hlast)))
    simp only [linked, adopt, hlast, hmin, hmax, insertId_of_forall_lt h, List.head?_cons,
      List.cons_append]
    simp only [← List.cons_append, List.getLast?_concat]

/-- The element behind a front is changed at the length of the front. -/
theorem modify_length_append (front : List Node) (n : Node) (back : List Node)
    (change : Node → Node) :
    (front ++ n :: back).modify front.length change = front ++ change n :: back := by
  induction front with
  | nil => rfl
  | cons first front ih => exact congrArg (first :: ·) ih

/-- A new node that is attached to an earlier one: it comes last and names the earlier one, which
adopts it. -/
theorem Outline.attach_create {front inner : List Node} {owner : Node} {id : Nat}
    (h : (front ++ owner :: inner).length = id) (content : Content) (span : Span) :
    (create ⟨front ++ owner :: inner⟩ content span).attach front.length id =
      ⟨front ++ owner.adopt id :: (inner ++ [.linked id content span (some front.length) []])⟩ := by
  subst h
  unfold attach create
  rw [if_pos (by simp)]
  congr 1
  rw [modify_length_append (front ++ owner :: inner), List.append_assoc, List.cons_append,
    modify_length_append front]
  rfl

/-! ## Numbering a forest -/

namespace Forest

/-- One forest after the other. -/
def append : Forest → Forest → Forest
  | nil, more => more
  | say keyword arguments span after, more => say keyword arguments span (after.append more)
  | group keyword span inside after, more => group keyword span inside (after.append more)

instance : Append Forest := ⟨append⟩

/-- Nothing before a forest is the forest. -/
@[simp] theorem nil_append (f : Forest) : nil ++ f = f := rfl

/-- What comes after a statement comes after all that follows the statement. -/
@[simp] theorem say_append (keyword : List Char) (arguments : List (List Char)) (span : Span)
    (after f : Forest) :
    say keyword arguments span after ++ f = say keyword arguments span (after ++ f) := rfl

/-- What comes after a group comes after all that follows the group. -/
@[simp] theorem group_append (keyword : List Char) (span : Span) (inside after f : Forest) :
    group keyword span inside after ++ f = group keyword span inside (after ++ f) := rfl

/-- Three forests one after the other. -/
theorem append_assoc (f g h : Forest) : f ++ g ++ h = f ++ (g ++ h) := by
  induction f with
  | nil => rfl
  | say keyword arguments span after ih => simp [ih]
  | group keyword span inside after _ ih => simp [ih]

/-- Nothing after a forest is the forest. -/
theorem append_nil (f : Forest) : f ++ nil = f := by
  induction f with
  | nil => rfl
  | say keyword arguments span after ih => rw [say_append, ih]
  | group keyword span inside after _ ih => rw [group_append, ih]

/-- The number of statements. -/
def size : Forest → Nat
  | nil => 0
  | say _ _ _ after => after.size + 1
  | group _ _ inside after => inside.size + after.size + 1

/-- The numbers of the statements that stand in no group, if the first statement has number
`first`. -/
def roots : Forest → (first : Nat) → List Nat
  | nil, _ => []
  | say _ _ _ after, first => first :: after.roots (first + 1)
  | group _ _ inside after, first => first :: after.roots (first + 1 + inside.size)

/-- The nodes of the statements that stand in the group `parent`, at a depth, if the first statement
has number `first`. -/
def nodes (table : KeywordTable) : Forest → (parent depth first : Nat) → List Node
  | nil, _, _, _ => []
  | say keyword arguments span after, parent, depth, first =>
    .ofSay table keyword arguments span parent depth first ::
      after.nodes table parent depth (first + 1)
  | group keyword span inside after, parent, depth, first =>
    .ofGroup table keyword span parent depth first (inside.roots (first + 1)) ::
      (inside.nodes table first (depth + 1) (first + 1) ++
        after.nodes table parent depth (first + 1 + inside.size))

/-- Behind the first statement the numbers go on. -/
theorem next_say (first size : Nat) : first + 1 + size = first + (size + 1) := by
  omega

/-- The number behind a group and what follows it. -/
theorem next_group (first inside after : Nat) :
    first + 1 + inside + after = first + (inside + after + 1) := by
  omega

/-- The second of two forests is numbered behind the first. -/
theorem roots_append (f g : Forest) (first : Nat) :
    (f ++ g).roots first = f.roots first ++ g.roots (first + f.size) := by
  induction f generalizing first with
  | nil => simp [roots, size]
  | say keyword arguments span after ih =>
    simp only [say_append, roots, size, ih, next_say, List.cons_append]
  | group keyword span inside after _ ih =>
    simp only [group_append, roots, size, ih, next_group, List.cons_append]

/-- The nodes of two forests are those of the first, and then those of the second behind them. -/
theorem nodes_append (table : KeywordTable) (f g : Forest) (parent depth first : Nat) :
    (f ++ g).nodes table parent depth first =
      f.nodes table parent depth first ++ g.nodes table parent depth (first + f.size) := by
  induction f generalizing first with
  | nil => simp [nodes, size]
  | say keyword arguments span after ih =>
    simp only [say_append, nodes, size, ih, next_say, List.cons_append]
  | group keyword span inside after _ ih =>
    simp only [group_append, nodes, size, ih, next_group, List.cons_append, List.append_assoc]

/-- A forest has as many nodes as statements. -/
@[simp] theorem length_nodes (table : KeywordTable) (f : Forest) (parent depth first : Nat) :
    (f.nodes table parent depth first).length = f.size := by
  induction f generalizing parent depth first with
  | nil => rfl
  | say keyword arguments span after ih => simp only [nodes, size, List.length_cons, ih]
  | group keyword span inside after ihinside ihafter =>
    simp only [nodes, size, List.length_cons, List.length_append, ihinside, ihafter]

/-- The roots of a forest are among its numbers. -/
theorem bounds_of_mem_roots {f : Forest} {first id : Nat} (h : id ∈ f.roots first) :
    first ≤ id ∧ id < first + f.size := by
  induction f generalizing first with
  | nil => cases h
  | say keyword arguments span after ih =>
    rw [size]
    rcases List.mem_cons.1 h with rfl | h
    · omega
    · have := ih h
      omega
  | group keyword span inside after _ ih =>
    rw [size]
    rcases List.mem_cons.1 h with rfl | h
    · omega
    · have := ih h
      omega

end Forest

/-! ## Open groups -/

/-- An open group, with what stands before it in the group around it. -/
structure Frame where
  keyword : List Char
  span : Span
  before : Forest

/-- The number of the innermost open group, or of the root if none is open. -/
def ownerId : List Frame → Nat
  | [] => Outline.root
  | frame :: outer => ownerId outer + 1 + frame.before.size

/-- The node of the innermost open group, or of the root. -/
def ownerNode (table : KeywordTable) (children : List Nat) : List Frame → Node
  | [] => .ofRoot children
  | frame :: outer =>
    .ofGroup table frame.keyword frame.span (ownerId outer) outer.length (ownerId (frame :: outer))
      children

/-- The nodes before the innermost open group. -/
def nodesBefore (table : KeywordTable) : List Frame → List Node
  | [] => []
  | frame :: outer =>
    nodesBefore table outer ++
      ownerNode table (frame.before.roots (ownerId outer + 1) ++ [ownerId (frame :: outer)]) outer ::
        frame.before.nodes table (ownerId outer) outer.length (ownerId outer + 1)

/-- The open groups as they are kept while reading. -/
def openGroups : List Frame → List OpenGroup
  | [] => []
  | frame :: outer => ⟨ownerId (frame :: outer), frame.keyword, frame.span⟩ :: openGroups outer

/-- The number of the innermost open group is the number of nodes before it. -/
@[simp] theorem length_nodesBefore (table : KeywordTable) (frames : List Frame) :
    (nodesBefore table frames).length = ownerId frames := by
  induction frames with
  | nil => rfl
  | cons frame outer ih =>
    simp only [nodesBefore, ownerId, List.length_append, List.length_cons, Forest.length_nodes, ih]
    omega

/-- A child whose number is above all others comes last in the innermost open group. -/
theorem adopt_ownerNode (table : KeywordTable) {children : List Nat} {child : Nat}
    (h : ∀ other ∈ children, other < child) (frames : List Frame) :
    (ownerNode table children frames).adopt child = ownerNode table (children ++ [child]) frames := by
  cases frames with
  | nil => exact Node.adopt_linked h
  | cons frame outer => exact Node.adopt_linked h

/-! ## Zippers -/

/-- A forest up to a place: the open groups, the innermost first, and what stands inside the
innermost one. -/
structure Zipper where
  inside : Forest
  frames : List Frame

namespace Zipper

/-- Before the first statement. -/
def start : Zipper := ⟨.nil, []⟩

/-- The place after the innermost group, which is now closed. -/
def close (z : Zipper) : Zipper :=
  match z.frames with
  | [] => z
  | frame :: outer => ⟨frame.before ++ .group frame.keyword frame.span z.inside .nil, outer⟩

/-- The place after a clause. -/
def read (z : Zipper) (span : Span) : Clause → Zipper
  | .close _ => z.close
  | .opening keyword _ => ⟨.nil, ⟨keyword, span, z.inside⟩ :: z.frames⟩
  | .say keyword arguments => { z with inside := z.inside ++ .say keyword arguments span .nil }

/-- The problem with a clause: a closing closes no group. -/
def problem (z : Zipper) (span : Span) : Clause → List Diagnostic
  | .close _ => if z.frames.isEmpty then [Progress.unmatched span] else []
  | .opening .. => []
  | .say .. => []

/-- The nodes of all statements up to the place. -/
def nodes (table : KeywordTable) (z : Zipper) : List Node :=
  nodesBefore table z.frames ++
    ownerNode table (z.inside.roots (ownerId z.frames + 1)) z.frames ::
      z.inside.nodes table (ownerId z.frames) z.frames.length (ownerId z.frames + 1)

/-- How far reading has come at the place. -/
def progress (table : KeywordTable) (z : Zipper) (problems : List Diagnostic) : Progress :=
  ⟨⟨z.nodes table⟩, ownerId z.frames, z.frames.length, openGroups z.frames, problems⟩

/-- The forest up to the place, with all groups closed. -/
def whole (z : Zipper) : Forest :=
  z.frames.foldl (fun inside frame => frame.before ++ .group frame.keyword frame.span inside .nil)
    z.inside

variable (table : KeywordTable)

/-- At the beginning nothing is open and nothing is read. -/
theorem progress_start : start.progress table [] = Progress.start := rfl

/-- Closing a group changes no node. -/
theorem nodes_close (z : Zipper) : z.close.nodes table = z.nodes table := by
  obtain ⟨inside, _ | ⟨frame, outer⟩⟩ := z
  · rfl
  · simp only [close, nodes, nodesBefore, Forest.nodes_append, Forest.roots_append, Forest.nodes,
      Forest.roots, ownerNode, ownerId, List.append_nil, List.append_assoc, List.cons_append,
      List.length_cons]

/-- The nodes are those before the innermost open group, the group itself and those inside it. -/
theorem length_nodes (z : Zipper) :
    (z.nodes table).length = ownerId z.frames + 1 + z.inside.size := by
  simp only [nodes, List.length_append, List.length_cons, length_nodesBefore, Forest.length_nodes]
  omega

/-- A node that is added while reading is the last child of the innermost open group. -/
theorem outline_add (z : Zipper) (problems : List Diagnostic) (kind : NodeKind)
    (keyword : List Char) (arguments : List (List Char)) (span : Span) :
    ((z.progress table problems).add kind keyword arguments span).outline =
      ⟨nodesBefore table z.frames ++
        ownerNode table (z.inside.roots (ownerId z.frames + 1) ++
          [ownerId z.frames + 1 + z.inside.size]) z.frames ::
        (z.inside.nodes table (ownerId z.frames) z.frames.length (ownerId z.frames + 1) ++
          [.linked (ownerId z.frames + 1 + z.inside.size)
            ⟨kind, z.frames.length, keyword, arguments⟩ span (some (ownerId z.frames)) []])⟩ := by
  have hattach := Outline.attach_create (z.length_nodes table)
    ⟨kind, z.frames.length, keyword, arguments⟩ span
  rw [adopt_ownerNode table fun _ h => (Forest.bounds_of_mem_roots h).2, length_nodesBefore] at hattach
  rw [← hattach, ← z.length_nodes table]
  rfl

/-- A statement that opens no group is the last node of the moved zipper. -/
theorem outline_say (z : Zipper) (problems : List Diagnostic) (keyword : List Char)
    (arguments : List (List Char)) (span : Span) :
    ((z.progress table problems).add (Progress.kindOf table keyword) keyword arguments span).outline =
      ⟨(z.read span (.say keyword arguments)).nodes table⟩ := by
  rw [outline_add, read, nodes, Forest.roots_append, Forest.nodes_append]
  rfl

/-- A statement that opens a group is the last node of the moved zipper. -/
theorem outline_opening (z : Zipper) (problems : List Diagnostic) (keyword rest : List Char)
    (span : Span) :
    ((z.progress table problems).add (Progress.kindOf table keyword).grouped keyword [] span).outline =
      ⟨(z.read span (.opening keyword rest)).nodes table⟩ := by
  rw [outline_add, read, nodes, nodesBefore, List.append_assoc, List.cons_append]
  rfl

/-- The innermost open group stands at its number. -/
theorem get?_ownerId (z : Zipper) : Outline.get? ⟨z.nodes table⟩ (ownerId z.frames) =
    some (ownerNode table (z.inside.roots (ownerId z.frames + 1)) z.frames) := by
  rw [Outline.get?, nodes, ← length_nodesBefore table z.frames,
    List.getElem?_append_right (Nat.le_refl _), Nat.sub_self]
  rfl

/-- The parent of the innermost open group is the group around it. -/
theorem parent?_ownerId (z : Zipper) : Outline.parent? ⟨z.nodes table⟩ (ownerId z.frames) =
    (ownerNode table (z.inside.roots (ownerId z.frames + 1)) z.frames).parent := by
  rw [Outline.parent?, get?_ownerId]
  rfl

/-- Reading a clause is the move of the zipper. -/
theorem progress_read (z : Zipper) (problems : List Diagnostic) (span : Span) (c : Clause) :
    (z.progress table problems).read table span c =
      (z.read span c).progress table (problems ++ z.problem span c) := by
  cases c with
  | close rest =>
    have hnodes := z.nodes_close table
    have hparent := z.parent?_ownerId table
    obtain ⟨inside, _ | ⟨frame, outer⟩⟩ := z
    · rfl
    · simp only [Progress.read, Progress.close, read, progress, problem, hparent, hnodes]
      rw [List.isEmpty_cons, if_neg Bool.false_ne_true, List.append_nil]
      rfl
  | opening keyword rest =>
    have hnext : Outline.nextId ⟨z.nodes table⟩ = ownerId z.frames + 1 + z.inside.size :=
      z.length_nodes table
    have houtline := z.outline_opening table problems keyword rest span
    change Progress.mk (Progress.add _ _ _ _ _).outline (Outline.nextId ⟨z.nodes table⟩) _
      (⟨Outline.nextId ⟨z.nodes table⟩, keyword, span⟩ :: _) problems = _
    rw [houtline, hnext, problem, List.append_nil]
    rfl
  | say keyword arguments =>
    have houtline := z.outline_say table problems keyword arguments span
    change Progress.mk (Progress.add _ _ _ _ _).outline _ _ _ problems = _
    rw [houtline, problem, List.append_nil]
    rfl

/-- All problems of passages that are read from a place on. -/
def problems (z : Zipper) : List Statement → List Diagnostic
  | [] => []
  | s :: rest => z.problem s.span s.clause ++ (z.read s.span s.clause).problems rest

/-- The place after passages. -/
def readAll (z : Zipper) (queue : List Statement) : Zipper :=
  queue.foldl (fun z s => z.read s.span s.clause) z

/-- Reading clauses one after the other is moving the zipper. -/
theorem progress_foldl (z : Zipper) (earlier : List Diagnostic) (queue : List Statement) :
    queue.foldl (fun p s => p.read table s.span s.clause) (z.progress table earlier) =
      (z.readAll queue).progress table (earlier ++ z.problems queue) := by
  induction queue generalizing z earlier with
  | nil => rw [problems, List.append_nil]; rfl
  | cons s queue ih => rw [List.foldl_cons, progress_read, ih, problems, List.append_assoc]; rfl

/-- How far reading has come after statements is given by the place after their passages. -/
theorem progress_readAll (statements : List Statement) : Progress.start.readAll table statements =
    (start.readAll (passages statements)).progress table (start.problems (passages statements)) := by
  rw [Progress.readAll_eq_foldl, ← progress_start table, progress_foldl, List.nil_append]

/-- The nodes up to a place are those of the forest in which all groups are closed. -/
theorem nodes_whole (z : Zipper) : nodes table ⟨z.whole, []⟩ = z.nodes table := by
  obtain ⟨inside, frames⟩ := z
  induction frames generalizing inside with
  | nil => rfl
  | cons frame outer ih => exact (ih _).trans (nodes_close table ⟨inside, frame :: outer⟩)

end Zipper

/-! ## The outline of a forest -/

/-- The outline of a forest: the root, then its statements. -/
def Outline.ofForest (table : KeywordTable) (f : Forest) : Outline :=
  ⟨.ofRoot (f.roots 1) :: f.nodes table root 0 1⟩

/-- The forest of a script: that of its passages, with all groups closed. -/
def Forest.ofStatements (statements : List Statement) : Forest :=
  (Zipper.start.readAll (passages statements)).whole

/-- What is read from statements: the outline of their forest, a warning for every closing that
closes nothing, and one for every group that stays open, the outermost first. -/
theorem ofStatements_eq (table : KeywordTable) (statements : List Statement) :
    Reading.ofStatements table statements =
      ⟨.ofForest table (.ofStatements statements),
        Zipper.start.problems (passages statements) ++
          (openGroups (Zipper.start.readAll (passages statements)).frames).reverse.map
            Progress.neverClosed⟩ := by
  have houtline : Outline.ofForest table (.ofStatements statements) =
      ⟨(Zipper.start.readAll (passages statements)).nodes table⟩ :=
    congrArg Outline.mk (Zipper.nodes_whole table _)
  rw [Reading.ofStatements, Zipper.progress_readAll, houtline]
  rfl

end TextAdventure.Script
