import TextAdventure.Script.Clause
import TextAdventure.Script.Include
import TextAdventure.Script.KeywordTable
import TextAdventure.Script.Outline

/-!
# Reading a script

Statements are read one after the other, each by its clause. A node is attached to the group that is
current; an opening makes its own node current, and a closing goes back to the node above. The rest of
a clause is read next. Reading never fails: closings that match nothing and groups that stay open are
reported.
-/

namespace TextAdventure.Script

/-- A group that has not been closed. -/
structure OpenGroup where
  node : NodeId
  keyword : List Char
  span : Span
deriving DecidableEq

/-- How far reading has come. -/
structure Progress where
  outline : Outline
  /-- The node to which the next one is attached. -/
  current : NodeId
  depth : Nat
  /-- The groups that are open, the innermost first. -/
  groups : List OpenGroup
  /-- The closings that matched nothing. -/
  problems : List Diagnostic
deriving DecidableEq

namespace Progress

/-- Nothing has been read. -/
def start : Progress := ⟨.empty, Outline.root, 0, [], []⟩

/-- The warning about a closing that matches nothing. -/
def unmatched (span : Span) : Diagnostic := .warning span "unmatched `\x7d`" "no grouping is open here"

/-- The warning about a group that stays open. -/
def neverClosed (group : OpenGroup) : Diagnostic :=
  .warning group.span ("grouping `" ++ String.ofList group.keyword ++ "` is never closed")
    ("node " ++ Numeral.print group.node ++ " opened here")

/-- One group less. -/
def close (p : Progress) (span : Span) : Progress where
  outline := p.outline
  current := (p.outline.parent? p.current).getD Outline.root
  depth := p.depth - 1
  groups := p.groups.tail
  problems := if p.groups.isEmpty then p.problems ++ [unmatched span] else p.problems

/-- One node more, attached to the current one. -/
def add (p : Progress) (kind : NodeKind) (keyword : List Char) (arguments : List (List Char))
    (span : Span) : Progress :=
  { p with
    outline := (p.outline.create ⟨kind, p.depth, keyword, arguments⟩ span).attach p.current
      p.outline.nextId }

/-- One group more, which is now current. -/
def descend (p : Progress) (kind : NodeKind) (keyword : List Char) (span : Span) : Progress :=
  { p.add kind keyword [] span with
    current := p.outline.nextId
    depth := p.depth + 1
    groups := ⟨p.outline.nextId, keyword, span⟩ :: p.groups }

/-- The kind of a statement under a word. -/
def kindOf (table : KeywordTable) (keyword : List Char) : NodeKind :=
  if table.contains (String.ofList keyword) then .command else .value

/-- Reads a clause, apart from its rest. -/
def read (table : KeywordTable) (p : Progress) (span : Span) : Clause → Progress
  | .close _ => p.close span
  | .opening keyword _ => p.descend (kindOf table keyword).grouped keyword span
  | .say keyword arguments => p.add (kindOf table keyword) keyword arguments span

/-- The length of all statements, each counted with the end that it has. -/
def workload : List Statement → Nat
  | [] => 0
  | s :: queue => s.text.length + 1 + workload queue

/-- Reads statements. -/
def readAll (table : KeywordTable) (p : Progress) : List Statement → Progress
  | [] => p
  | s :: queue =>
    let clause := Clause.ofText s.text
    if h : clause.rest = [] then
      readAll table (p.read table s.span clause) queue
    else
      have := Clause.length_rest_lt h
      readAll table (p.read table s.span clause) (⟨clause.rest, s.span⟩ :: queue)
termination_by queue => workload queue
decreasing_by
  · exact Nat.lt_add_of_pos_left (Nat.succ_pos s.text.length)
  · exact Nat.add_lt_add_right (Nat.succ_lt_succ this) (workload queue)

end Progress

/-- An outline with all that is worth telling the author about it. -/
structure Reading where
  outline : Outline
  problems : List Diagnostic
deriving DecidableEq

namespace Reading

/-- Reads statements into an outline. -/
def ofStatements (table : KeywordTable) (statements : List Statement) : Reading :=
  let p := Progress.start.readAll table statements
  ⟨p.outline, p.problems ++ p.groups.reverse.map Progress.neverClosed⟩

/-- Reads a script whose libraries are put in. -/
def ofExpanded (table : KeywordTable) (source : List Char) : Reading :=
  let r := ofStatements table (statements source)
  ⟨r.outline, scanProblems source ++ r.problems⟩

/-- Whether the script has an error. -/
def hasErrors (r : Reading) : Bool := r.problems.any Diagnostic.isError

end Reading

/-- A script that was read, with the text that the places of its nodes and problems refer to. -/
structure ReadScript where
  expanded : List Char
  reading : Reading

/-- Puts in the libraries of a script and reads it. -/
def readScript (table : KeywordTable) (library : Library) (source : List Char) :
    Except IncludeError ReadScript := do
  let expanded ← expand library source
  return ⟨expanded, .ofExpanded table expanded⟩

end TextAdventure.Script
