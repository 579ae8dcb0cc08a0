import TextAdventure.Script.Span
import TextAdventure.Text.Numeral

/-!
# Outlines

The outline of a script is a tree of its statements. Nodes are numbered in the order of their
creation, the root first. A node keeps the set of its children and, beside it, the least and the
greatest of them; a node is shown by going through the numbers between these two.
-/

namespace TextAdventure.Script

/-- The number of a node. The root has number 0. -/
abbrev NodeId := Nat

/-- What a node of an outline is. -/
inductive NodeKind where
  /-- A statement under a reserved word. -/
  | command
  /-- A group under a word that is not reserved. -/
  | grouping
  /-- A group under a reserved word. -/
  | groupingCommand
  /-- A statement under a word that is not reserved. -/
  | value
deriving DecidableEq

namespace NodeKind

/-- The kind of a group under the same word. -/
def grouped : NodeKind → NodeKind
  | .command | .groupingCommand => .groupingCommand
  | .value | .grouping => .grouping

/-- Whether a node of this kind is a group. -/
def isGrouping : NodeKind → Bool
  | .grouping | .groupingCommand => true
  | .command | .value => false

/-- Whether a node of this kind stands under a reserved word. -/
def isCommand : NodeKind → Bool
  | .command | .groupingCommand => true
  | .grouping | .value => false

/-- The name of the kind. -/
def name : NodeKind → String
  | .command => "command"
  | .grouping => "grouping"
  | .groupingCommand => "grouping_command"
  | .value => "value"

/-- The kind with a name. -/
def ofName? (text : String) : Option NodeKind :=
  [command, grouping, groupingCommand, value].find? (·.name = text)

end NodeKind

/-- What a statement says. -/
structure Content where
  kind : NodeKind
  /-- How many groups the statement stands in. A group counts from before it opens. -/
  depth : Nat
  keyword : List Char
  arguments : List (List Char)
deriving DecidableEq

/-- A node of an outline. -/
structure Node where
  id : NodeId
  content : Content
  /-- The place of the statement. -/
  span : Span
  /-- The node that this one was last attached to. -/
  parent : Option NodeId := none
  /-- The children, ascending. -/
  children : List NodeId := []
  /-- The least child. -/
  firstChild : Option NodeId := none
  /-- The greatest child. -/
  lastChild : Option NodeId := none
deriving DecidableEq

/-- A number put into an ascending list of numbers, unless it is there. -/
def insertId (id : NodeId) : List NodeId → List NodeId
  | [] => [id]
  | other :: rest =>
    if id < other then id :: other :: rest
    else if id = other then other :: rest
    else other :: insertId id rest

theorem mem_insertId {id other : NodeId} :
    ∀ {ids : List NodeId}, other ∈ insertId id ids ↔ other = id ∨ other ∈ ids
  | [] => by simp [insertId]
  | first :: rest => by
    unfold insertId
    split
    · simp
    · split
      next h => simp [h]
      next => simp [@mem_insertId id other rest, or_left_comm]

/-- The node with one more child. -/
def Node.adopt (n : Node) (child : NodeId) : Node :=
  { n with
    children := insertId child n.children
    firstChild := match n.firstChild with
      | some first => some (min first child)
      | none => some child
    lastChild := match n.lastChild with
      | some last => some (max last child)
      | none => some child }

/-- The numbers from a node's least to its greatest child. -/
def Node.childRange (n : Node) : List NodeId :=
  match n.firstChild, n.lastChild with
  | some first, some last => List.range' first (last + 1 - first)
  | _, _ => []

/-- What is shown of a node before its children: its number, word and kind, a brace, and on the next
line as many tabs as the node is deep. -/
def Node.heading (n : Node) : List Char :=
  Numeral.digits n.id ++ ' ' :: (n.content.keyword ++ '(' :: (n.content.kind.name.toList ++
    [')', ':', ' ', '\x7b', '\n'] ++ List.replicate n.content.depth '\t'))

/-- An outline: its nodes, in the order of their numbers. -/
structure Outline where
  nodes : List Node
deriving DecidableEq

namespace Outline

/-- The number of the root. -/
def root : NodeId := 0

/-- The node with a number. -/
def get? (o : Outline) (id : NodeId) : Option Node := o.nodes[id]?

/-- The number that the next node receives. -/
def nextId (o : Outline) : NodeId := o.nodes.length

/-- The outline with one more node, which is attached to nothing. -/
def create (o : Outline) (content : Content) (span : Span) : Outline :=
  ⟨o.nodes ++ [{ id := o.nextId, content := content, span := span }]⟩

/-- The outline with a root and nothing else. -/
def empty : Outline := create ⟨[]⟩ ⟨.grouping, 0, [], []⟩ ⟨0, 0⟩

/-- Attaches a node to another. Nothing happens if one of them does not exist. The node that it was
attached to before keeps it among its children. -/
def attach (o : Outline) (parent child : NodeId) : Outline :=
  if parent < o.nodes.length ∧ child < o.nodes.length then
    ⟨(o.nodes.modify child fun n => { n with parent := some parent }).modify parent (·.adopt child)⟩
  else
    o

/-- The node that a node is attached to. -/
def parent? (o : Outline) (id : NodeId) : Option NodeId := (o.get? id).bind Node.parent

/-- The children of a node. -/
def children (o : Outline) (id : NodeId) : List Node :=
  match o.get? id with
  | some n => n.children.filterMap o.get?
  | none => []

/-- The number of nodes besides the root. -/
def count (o : Outline) : Nat := o.nodes.length - 1

/-! ## Showing an outline -/

/-- A text that starts with a node and all below it, down to a number of levels, and goes on with
`after`: the node's heading and its children between braces, each followed by a comma. -/
def showNode (o : Outline) : (levels : Nat) → NodeId → (after : List Char) → List Char
  | 0, _, after => after
  | levels + 1, id, after =>
    match o.get? id with
    | none => after
    | some n =>
      n.heading ++ (n.childRange.filter (· ∈ n.children)).foldr
        (fun child more => showNode o levels child (',' :: ' ' :: more)) ('\x7d' :: after)

/-- A node and all below it as text. No branch of a tree has more levels than the tree has nodes. -/
def render (o : Outline) (id : NodeId) : List Char := o.showNode o.nodes.length id []

/-- The whole outline as text. -/
def print (o : Outline) : String := String.ofList (o.render root)

end Outline

end TextAdventure.Script
