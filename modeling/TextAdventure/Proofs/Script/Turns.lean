import TextAdventure.Proofs.Script.Braces
import TextAdventure.Proofs.Script.Links

/-!
# Turns of reading

Reading is a loop over a queue of statements. A turn takes the first statement off the queue, reads it,
and puts what follows inside it back to the front (`Turn`). So the queue need not get shorter, and the
statement that goes back is not a part of the first one as it stands: behind an opening, a space is put in
and blanks are cut off.

The loop ends because what goes back is shorter than what was taken, so that every turn lowers the length
of all that is still to be read (`Turn.workload_lt`). Each turn makes a node or reads a closing, and hence
the length at the beginning bounds the number of both together (`ofStatements_drains`).
-/

namespace TextAdventure.Script

/-- The state of the loop: how far reading has come, and the statements still to be read. -/
structure Work where
  progress : Progress
  queue : List Statement

/-- A turn of the loop, with the statement that it takes off the queue. -/
inductive Turn (table : KeywordTable) : Work → Statement → Work → Prop
  | take (p : Progress) (s : Statement) (queue : List Statement) :
      Turn table ⟨p, s :: queue⟩ s ⟨p.read table s.span s.clause, s.inner ++ queue⟩

/-- Turns one after the other, with the statements that they take. -/
inductive Turns (table : KeywordTable) : Work → List Statement → Work → Prop
  | none (w : Work) : Turns table w [] w
  | next {w v w' : Work} {s : Statement} {taken : List Statement} :
      Turn table w s v → Turns table v taken w' → Turns table w (s :: taken) w'

/-! ## One turn -/

/-- What goes back to the queue is a statement that is not empty, and shorter than the one that was
taken. -/
theorem Statement.length_of_mem_inner {s rest : Statement} (h : rest ∈ s.inner) :
    rest.text ≠ [] ∧ rest.text.length < s.text.length := by
  unfold inner at h
  split at h
  next => cases h
  next hrest =>
    rw [List.mem_singleton.1 h]
    exact ⟨hrest, Clause.length_rest_lt hrest⟩

namespace Progress

/-- The workload is the number of characters and of statements together. -/
theorem workload_eq (queue : List Statement) :
    workload queue = (queue.flatMap Statement.text).length + queue.length := by
  induction queue with
  | nil => rfl
  | cons s queue ih =>
    rw [workload, ih, List.flatMap_cons, List.length_append, List.length_cons]
    omega

/-- The workload of two queues is the sum of theirs. -/
theorem workload_append (front back : List Statement) :
    workload (front ++ back) = workload front + workload back := by
  simp only [workload_eq, List.flatMap_append, List.length_append]
  omega

/-- What follows inside a statement is less work than its text. -/
theorem workload_inner_le (s : Statement) : workload s.inner ≤ s.text.length := by
  unfold Statement.inner
  split
  next => exact Nat.zero_le _
  next hrest => exact Clause.length_rest_lt hrest

/-- A clause makes a node, unless it is a closing. -/
theorem length_read (table : KeywordTable) (p : Progress) (span : Span) (c : Clause) :
    (p.read table span c).outline.nodes.length =
      p.outline.nodes.length + if c.brace? = some .closing then 0 else 1 := by
  have hadd : ∀ kind keyword arguments,
      (p.add kind keyword arguments span).outline.nodes.length = p.outline.nodes.length + 1 := by
    intro kind keyword arguments
    rw [add, Outline.length_attach, Outline.length_create]
  cases c with
  | close rest => rfl
  | opening keyword rest => exact hadd _ keyword []
  | say keyword arguments => exact hadd _ keyword arguments

end Progress

/-- A statement adds one closing if it closes a group. -/
theorem count_closing_braces_cons (s : Statement) (queue : List Statement) :
    (braces (s :: queue)).count .closing =
      (braces queue).count .closing + if s.clause.brace? = some .closing then 1 else 0 := by
  cases hb : s.clause.brace? with
  | none =>
    rw [braces_cons_of_none hb]
    rfl
  | some b =>
    rw [braces_cons_of_some hb, List.count_cons]
    simp

namespace Turn

variable {table : KeywordTable} {w v : Work} {s : Statement}

/-- Every turn lowers the length of what is still to be read. -/
theorem workload_lt (h : Turn table w s v) :
    Progress.workload v.queue < Progress.workload w.queue := by
  cases h with
  | take p s queue =>
    have hinner := Progress.workload_inner_le s
    rw [Progress.workload_append, Progress.workload]
    omega

/-- A turn makes a node or reads a closing. -/
theorem length_nodes (h : Turn table w s v) :
    v.progress.outline.nodes.length + (if s.clause.brace? = some .closing then 1 else 0) =
      w.progress.outline.nodes.length + 1 := by
  cases h with
  | take p s queue =>
    rw [Progress.length_read]
    split <;> rfl

end Turn

/-! ## Many turns -/

namespace Turns

variable {table : KeywordTable} {w w' : Work} {taken : List Statement}

/-- The length of what is to be read bounds the number of turns. -/
theorem length_le (h : Turns table w taken w') :
    taken.length + Progress.workload w'.queue ≤ Progress.workload w.queue := by
  induction h with
  | none w => simp
  | next hturn _ ih =>
    have hlt := hturn.workload_lt
    rw [List.length_cons]
    omega

/-- As many nodes are made and closings read as there are turns. -/
theorem length_nodes (h : Turns table w taken w') :
    w'.progress.outline.nodes.length + (braces taken).count .closing =
      w.progress.outline.nodes.length + taken.length := by
  induction h with
  | none w => rfl
  | next hturn _ ih =>
    have hfirst := hturn.length_nodes
    rw [count_closing_braces_cons, List.length_cons]
    omega

/-- Turns take the passages in their order. -/
theorem append_passages (h : Turns table w taken w') :
    taken ++ passages w'.queue = passages w.queue := by
  induction h with
  | none w => rfl
  | next hturn _ ih =>
    cases hturn with
    | take p s queue => rw [List.cons_append, ih, passages_cons]

/-- Turns do not change what reading comes to. -/
theorem readAll_eq (h : Turns table w taken w') :
    w'.progress.readAll table w'.queue = w.progress.readAll table w.queue := by
  induction h with
  | none w => rfl
  | next hturn _ ih =>
    cases hturn with
    | take p s queue => rw [ih, Progress.readAll_cons]

end Turns

/-- From any state, the loop takes all passages and ends with nothing to read. -/
theorem turns_passages (table : KeywordTable) (p : Progress) (queue : List Statement) :
    Turns table ⟨p, queue⟩ (passages queue) ⟨p.readAll table queue, []⟩ := by
  induction queue using queue_induction generalizing p with
  | nil =>
    rw [passages_nil, Progress.readAll_nil]
    exact .none _
  | cons s queue ih =>
    rw [passages_cons, Progress.readAll_cons]
    exact .next (.take p s queue) (ih _)

/-- The queue of any statements is drained. There is a run of the loop that ends with nothing to read and
with what is read of the statements, and every run that has begun goes on to that end. What a turn puts
back is not empty, and shorter than the statement that it took. The number of nodes that are made and of
closings that are read is the number of turns, which is at most the number of characters and of
statements together. -/
theorem ofStatements_drains (table : KeywordTable) (statements : List Statement) :
    ∃ taken p, Turns table ⟨.start, statements⟩ taken ⟨p, []⟩ ∧
      Reading.ofStatements table statements =
        ⟨p.outline, p.problems ++ p.groups.reverse.map Progress.neverClosed⟩ ∧
      (∀ begun w, Turns table ⟨.start, statements⟩ begun w →
        ∃ more, taken = begun ++ more ∧ Turns table w more ⟨p, []⟩) ∧
      (∀ s ∈ taken, ∀ rest ∈ s.inner, rest.text ≠ [] ∧ rest.text.length < s.text.length) ∧
      p.outline.count + (braces taken).count .closing = taken.length ∧
      taken.length ≤ (statements.flatMap Statement.text).length + statements.length := by
  have hrun := turns_passages table .start statements
  refine ⟨_, _, hrun, rfl, ?_, ?_, ?_, ?_⟩
  · intro begun w hbegun
    refine ⟨passages w.queue, hbegun.append_passages.symm, ?_⟩
    rw [← hbegun.readAll_eq]
    exact turns_passages table w.progress w.queue
  · intro s _ rest hrest
    exact Statement.length_of_mem_inner hrest
  · have hnodes : (Progress.start.readAll table statements).outline.nodes.length +
        (braces (passages statements)).count .closing = 1 + (passages statements).length :=
      hrun.length_nodes
    have hcount : (braces (passages statements)).count .closing ≤ (passages statements).length :=
      Nat.le_trans List.count_le_length (List.length_filterMap_le ..)
    rw [Outline.count]
    omega
  · rw [← Progress.workload_eq]
    exact Nat.le_trans (Nat.le_add_right _ _) hrun.length_le

end TextAdventure.Script
