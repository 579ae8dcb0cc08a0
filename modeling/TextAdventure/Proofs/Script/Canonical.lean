import TextAdventure.Proofs.Script.Preorder

/-!
# Writing an outline back

An outline can be written as statements again, each node by the text of its clause, and a group with
a closing behind what is inside it (`Outline.canonical`). Reading these statements gives the outline
back, with nothing to complain about (`ofStatements_canonical`), even if the outline was read from
statements with surplus or missing closings.

The statements of an outline are those of its forest (`canonical_ofForest`), and the words of the
forest are spelled as they were when they were read (`Forest.Spelled`). So each text reads as its
clause, and reading a forest from any place on puts the forest there (`Zipper.readAll_texts`).
-/

namespace TextAdventure.Script

/-- The statements of a node, with those inside it. -/
def Content.statements (c : Content) (inside : List (List Char)) : List (List Char) :=
  if c.kind.isGrouping then
    (Clause.opening c.keyword []).text :: inside ++ [(Clause.close []).text]
  else
    [(Clause.say c.keyword c.arguments).text]

/-- An outline as statements, in preorder. The root is not written. -/
def Outline.canonical (o : Outline) : List (List Char) :=
  ((o.get? root).elim [] Node.children).flatMap
    (o.collect (fun n inside => n.content.statements inside) o.nodes.length)

/-- The node without its place in the script. -/
def Node.unplaced (n : Node) : Node := { n with span := ⟨0, 0⟩ }

namespace Forest

/-! ## Statements of a forest -/

/-- A forest as statements. -/
def texts : Forest → List (List Char)
  | nil => []
  | say keyword arguments _ after => (Clause.say keyword arguments).text :: after.texts
  | group keyword _ inside after =>
    (Clause.opening keyword []).text :: (inside.texts ++ (Clause.close []).text :: after.texts)

/-- A walk over the nodes of a forest writes the statements of the forest. -/
theorem collect_statements (table : KeywordTable) (f : Forest) (parent depth first : Nat) :
    f.collect table (fun n inside => n.content.statements inside) parent depth first = f.texts := by
  induction f generalizing parent depth first with
  | nil => rfl
  | say keyword arguments span after ih =>
    have hsay : (Node.ofSay table keyword arguments span parent depth first).content.statements [] =
        [(Clause.say keyword arguments).text] :=
      if_neg (Bool.eq_false_iff.1 (Progress.isGrouping_kindOf table keyword))
    rw [collect, ih, hsay]
    rfl
  | group keyword span inside after ihinside ihafter =>
    have hgroup : (Node.ofGroup table keyword span parent depth first
        (inside.roots (first + 1))).content.statements inside.texts =
        (Clause.opening keyword []).text :: inside.texts ++ [(Clause.close []).text] :=
      if_pos (NodeKind.isGrouping_grouped _)
    rw [collect, ihinside, ihafter, hgroup, texts, List.append_assoc, List.cons_append]
    rfl

/-- All words of a forest are such as statements can have. -/
def Spelled : Forest → Prop
  | nil => True
  | say keyword arguments _ after => (Clause.say keyword arguments).Spelled ∧ after.Spelled
  | group keyword _ inside after => IsKeyword keyword ∧ inside.Spelled ∧ after.Spelled

/-- A forest is spelled if its two parts are. -/
theorem spelled_append {f g : Forest} (hf : f.Spelled) (hg : g.Spelled) : (f ++ g).Spelled := by
  induction f with
  | nil => exact hg
  | say keyword arguments span after ih => exact ⟨hf.1, ih hf.2⟩
  | group keyword span inside after _ ih => exact ⟨hf.1, hf.2.1, ih hf.2.2⟩

/-- The text of every statement of a forest reads as a clause that leaves nothing to read. -/
theorem rest_of_mem_texts {f : Forest} (hf : f.Spelled) {text : List Char} (h : text ∈ f.texts) :
    (Clause.ofText text).rest = [] := by
  induction f with
  | nil => cases h
  | say keyword arguments span after ih =>
    rcases List.mem_cons.1 h with rfl | h
    · rw [Clause.ofText_text hf.1, Clause.rest_alone]
    · exact ih hf.2 h
  | group keyword span inside after ihinside ihafter =>
    rcases List.mem_cons.1 h with rfl | h
    · have hspelled : (Clause.opening keyword []).Spelled := hf.1
      rw [Clause.ofText_text hspelled, Clause.rest_alone]
    rcases List.mem_append.1 h with h | h
    · exact ihinside hf.2.1 h
    rcases List.mem_cons.1 h with rfl | h
    · rfl
    · exact ihafter hf.2.2 h

/-! ## Forests without places -/

/-- The forest without places in the script. -/
def unplaced : Forest → Forest
  | nil => nil
  | say keyword arguments _ after => say keyword arguments ⟨0, 0⟩ after.unplaced
  | group keyword _ inside after => group keyword ⟨0, 0⟩ inside.unplaced after.unplaced

/-- Without its places, a forest has as many nodes as with them. -/
theorem size_unplaced (f : Forest) : f.unplaced.size = f.size := by
  induction f with
  | nil => rfl
  | say keyword arguments span after ih => rw [unplaced, size, size, ih]
  | group keyword span inside after ihinside ihafter =>
    rw [unplaced, size, size, ihinside, ihafter]

/-- Without its places, a forest has the same roots. -/
theorem roots_unplaced (f : Forest) (first : Nat) : f.unplaced.roots first = f.roots first := by
  induction f generalizing first with
  | nil => rfl
  | say keyword arguments span after ih => rw [unplaced, roots, roots, ih]
  | group keyword span inside after _ ih => rw [unplaced, roots, roots, ih, size_unplaced]

/-- The nodes of a forest without its places are the nodes without theirs. -/
theorem nodes_unplaced (table : KeywordTable) (f : Forest) (parent depth first : Nat) :
    f.unplaced.nodes table parent depth first =
      (f.nodes table parent depth first).map Node.unplaced := by
  induction f generalizing parent depth first with
  | nil => rfl
  | say keyword arguments span after ih => rw [unplaced, nodes, nodes, ih]; rfl
  | group keyword span inside after ihinside ihafter =>
    rw [unplaced, nodes, nodes, ihinside, ihafter, roots_unplaced, size_unplaced, List.map_cons,
      List.map_append]
    rfl

end Forest

/-- The canonical statements of an outline are those of its forest. -/
theorem Outline.canonical_ofForest (table : KeywordTable) (f : Forest) :
    (ofForest table f).canonical = f.texts := by
  have hget : ∀ n ∈ f.nodes table root 0 1, (ofForest table f).get? n.id = some n := fun n hn =>
    get?_ofForest table f (List.mem_cons_of_mem _ hn)
  have hsize : f.size ≤ (ofForest table f).nodes.length := by
    rw [ofForest, List.length_cons, Forest.length_nodes]
    exact Nat.le_succ f.size
  rw [← Forest.collect_statements table f root 0 1]
  exact flatMap_collect_roots hget hsize

/-- The nodes of an outline without their places are those of the forest without its places. -/
theorem Outline.map_unplaced_ofForest (table : KeywordTable) (f : Forest) :
    (ofForest table f).nodes.map Node.unplaced = (ofForest table f.unplaced).nodes := by
  rw [ofForest, ofForest, List.map_cons, Forest.nodes_unplaced, Forest.roots_unplaced]
  rfl

/-! ## Words that are read -/

namespace Zipper

/-- All words up to a place are such as statements can have. -/
structure Spelled (z : Zipper) : Prop where
  inside : z.inside.Spelled
  frames : ∀ frame ∈ z.frames, IsKeyword frame.keyword ∧ frame.before.Spelled

/-- Closing a group puts together what is spelled. -/
theorem Spelled.close {z : Zipper} (h : z.Spelled) : z.close.Spelled := by
  obtain ⟨inside, _ | ⟨frame, outer⟩⟩ := z
  · exact h
  · obtain ⟨⟨hkeyword, hbefore⟩, houter⟩ := List.forall_mem_cons.1 h.frames
    exact ⟨Forest.spelled_append hbefore ⟨hkeyword, h.inside, trivial⟩, houter⟩

/-- A clause that is spelled adds what is spelled. -/
theorem Spelled.read {z : Zipper} (h : z.Spelled) (span : Span) {c : Clause} (hc : c.Spelled) :
    (z.read span c).Spelled := by
  cases c with
  | close rest => exact h.close
  | opening keyword rest => exact ⟨trivial, List.forall_mem_cons.2 ⟨⟨hc, h.inside⟩, h.frames⟩⟩
  | say keyword arguments => exact ⟨Forest.spelled_append h.inside ⟨hc, trivial⟩, h.frames⟩

/-- Whatever statements are read, what is made of them is spelled. -/
theorem Spelled.readAll {z : Zipper} (h : z.Spelled) (queue : List Statement) :
    (z.readAll queue).Spelled := by
  induction queue generalizing z with
  | nil => exact h
  | cons s queue ih => exact ih (h.read s.span (Clause.spelled_ofText s.text))

/-- Closing all groups puts together what is spelled. -/
theorem Spelled.whole {z : Zipper} (h : z.Spelled) : z.whole.Spelled := by
  obtain ⟨inside, frames⟩ := z
  induction frames generalizing inside with
  | nil => exact h.inside
  | cons frame outer ih => exact ih _ h.close

end Zipper

/-- A forest that was read can be written. -/
theorem Forest.spelled_ofStatements (statements : List Statement) :
    (Forest.ofStatements statements).Spelled := by
  have hstart : Zipper.start.Spelled := ⟨trivial, List.forall_mem_nil _⟩
  exact (hstart.readAll (passages statements)).whole

/-! ## Reading a forest -/

namespace Zipper

/-- Statements may be read in two parts, and each part has its own problems. -/
theorem problems_append (z : Zipper) (queue more : List Statement) :
    z.problems (queue ++ more) = z.problems queue ++ (z.readAll queue).problems more := by
  induction queue generalizing z with
  | nil => rfl
  | cons s queue ih => rw [List.cons_append, problems, problems, ih, List.append_assoc]; rfl

/-- Statements are read from the first one on. -/
theorem readAll_cons (z : Zipper) (s : Statement) (queue : List Statement) :
    z.readAll (s :: queue) = (z.read s.span s.clause).readAll queue := rfl

/-- Statements may be read in two parts. -/
theorem readAll_append (z : Zipper) (queue more : List Statement) :
    z.readAll (queue ++ more) = (z.readAll queue).readAll more :=
  List.foldl_append

/-- Reading the statements of a forest at a place puts the forest there. The closing behind the
inside of a group takes the group that was opened before it. -/
theorem readAll_texts {f : Forest} (hf : f.Spelled) (z : Zipper) {queue : List Statement}
    (h : queue.map Statement.text = f.texts) :
    ∃ g : Forest, g.unplaced = f.unplaced ∧ z.readAll queue = ⟨z.inside ++ g, z.frames⟩ ∧
      z.problems queue = [] := by
  induction f generalizing z queue with
  | nil =>
    cases List.map_eq_nil_iff.1 h
    exact ⟨.nil, rfl, by rw [Forest.append_nil]; rfl, rfl⟩
  | say keyword arguments span after ih =>
    obtain ⟨s, rest, rfl, htext, hrest⟩ := List.map_eq_cons_iff.1 h
    have hclause : s.clause = .say keyword arguments := by
      rw [Statement.clause, htext, Clause.ofText_text hf.1]
      rfl
    obtain ⟨g, hg, hread, hproblems⟩ := ih hf.2 (z.read s.span (.say keyword arguments)) hrest
    refine ⟨.say keyword arguments s.span g, by rw [Forest.unplaced, hg]; rfl, ?_, ?_⟩
    · rw [readAll_cons, hclause, hread]
      exact congrArg (Zipper.mk · z.frames) (Forest.append_assoc ..)
    · rw [problems, hclause, hproblems]
      rfl
  | group keyword span inside after ihinside ihafter =>
    obtain ⟨s, _, rfl, htext, hrest⟩ := List.map_eq_cons_iff.1 h
    obtain ⟨within, _, rfl, hwithin, hrest⟩ := List.map_eq_append_iff.1 hrest
    obtain ⟨closing, behind, rfl, hclosing, hbehind⟩ := List.map_eq_cons_iff.1 hrest
    have hs : s.clause = .opening keyword [] := by
      have hspelled : (Clause.opening keyword []).Spelled := hf.1
      rw [Statement.clause, htext, Clause.ofText_text hspelled]
      rfl
    have hc : closing.clause = .close [] := by
      rw [Statement.clause, hclosing]
      rfl
    obtain ⟨g, hg, hread, hproblems⟩ := ihinside hf.2.1 (z.read s.span (.opening keyword [])) hwithin
    obtain ⟨g', hg', hread', hproblems'⟩ := ihafter hf.2.2
      ⟨z.inside ++ .group keyword s.span g .nil, z.frames⟩ hbehind
    refine ⟨.group keyword s.span g g', by rw [Forest.unplaced, hg, hg']; rfl, ?_, ?_⟩
    · rw [readAll_cons, hs, readAll_append, hread, readAll_cons, hc]
      exact hread'.trans (congrArg (Zipper.mk · z.frames) (Forest.append_assoc ..))
    · rw [problems, hs, problems_append, hproblems, hread, problems, hc]
      exact hproblems'

end Zipper

/-- Reading the statements of an outline that was read gives the outline back, apart from places in
the script, and no problems. -/
theorem ofStatements_canonical (table : KeywordTable) (statements again : List Statement)
    (h : again.map Statement.text = (Reading.ofStatements table statements).outline.canonical) :
    (Reading.ofStatements table again).outline.nodes.map Node.unplaced =
        (Reading.ofStatements table statements).outline.nodes.map Node.unplaced ∧
      (Reading.ofStatements table again).problems = [] := by
  have hspelled := Forest.spelled_ofStatements statements
  rw [ofStatements_eq, Outline.canonical_ofForest] at h
  have hpassages : passages again = again := by
    refine passages_of_rest_eq_nil fun s hs => Forest.rest_of_mem_texts hspelled ?_
    rw [← h]
    exact List.mem_map_of_mem hs
  obtain ⟨g, hg, hread, hproblems⟩ := Zipper.readAll_texts hspelled .start h
  rw [ofStatements_eq, ofStatements_eq, Forest.ofStatements, hpassages, hread, hproblems]
  refine ⟨?_, rfl⟩
  rw [Outline.map_unplaced_ofForest, Outline.map_unplaced_ofForest, ← hg]
  rfl

/-- A closing without a group, a group that stays open, blanks of several kinds, text behind braces,
and no text at all. -/
def untidy : List Statement :=
  [⟨"\x7d room: \x7bsay:  a  b".toList, ⟨0, 20⟩⟩, ⟨" look:\x7b \x7b".toList, ⟨21, 29⟩⟩,
    ⟨" \x7d\x7d: x".toList, ⟨30, 36⟩⟩, ⟨[], ⟨37, 37⟩⟩, ⟨"if :\x7b".toList, ⟨38, 43⟩⟩]

/-- The same script with one statement for each node and all groups closed. -/
def tidy : List Statement :=
  [⟨"room: \x7b".toList, ⟨0, 7⟩⟩, ⟨"say: a  b".toList, ⟨8, 17⟩⟩, ⟨"look: \x7b".toList, ⟨18, 25⟩⟩,
    ⟨"\x7b: ".toList, ⟨26, 29⟩⟩, ⟨"\x7d".toList, ⟨30, 31⟩⟩, ⟨"\x7d".toList, ⟨32, 33⟩⟩,
    ⟨": x".toList, ⟨34, 37⟩⟩, ⟨": ".toList, ⟨38, 40⟩⟩, ⟨"if: \x7b".toList, ⟨41, 46⟩⟩,
    ⟨"\x7d".toList, ⟨47, 48⟩⟩]

/-- The untidy statements and the tidy ones that are written for them make the same outline. -/
theorem ofStatements_canonical_untidy :
    tidy.map Statement.text = (Reading.ofStatements .standard untidy).outline.canonical ∧
    (Reading.ofStatements .standard tidy).outline.nodes.map Node.unplaced =
        (Reading.ofStatements .standard untidy).outline.nodes.map Node.unplaced ∧
      (Reading.ofStatements .standard tidy).problems = [] := by
  have h : tidy.map Statement.text = (Reading.ofStatements .standard untidy).outline.canonical := by
    decide +kernel
  exact ⟨h, ofStatements_canonical .standard untidy tidy h⟩

end TextAdventure.Script
