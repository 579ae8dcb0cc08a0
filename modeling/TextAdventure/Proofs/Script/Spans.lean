import TextAdventure.Proofs.Script.Expansion
import TextAdventure.Proofs.Script.Passage
import TextAdventure.Proofs.Script.Sentence

/-!
# Spans of nodes and problems

Whatever is read from a script has a place in its expanded text (`placed_of_readScript`). A statement
goes from one of its tokens to a later one, so its span points into the text and ends before the next
statement starts. A passage has the span of the statement that it is part of, hence the spans of two
passages are equal or in order. A node, a closing that matches nothing and a group that stays open all
have the span of a passage.
-/

namespace TextAdventure.Script

/-! ## Statements -/

/-- The ends of an extent are two of its spans, in order. -/
theorem exists_of_extent {spans : List Span} {s : Span} (h : extent spans = some s)
    (horder : spans.Pairwise Span.Precedes) : ∃ first ∈ spans, ∃ last ∈ spans,
      s = first.through last ∧ (first = last ∨ first.Precedes last) := by
  cases spans with
  | nil => cases h
  | cons first rest =>
    obtain ⟨hfirst, _⟩ := List.pairwise_cons.1 horder
    refine ⟨first, List.mem_cons_self, rest.getLastD first, ?_, (Option.some.inj h).symm, ?_⟩
    · exact List.getLastD_mem_cons
    · cases rest with
      | nil => exact .inl rfl
      | cons second rest =>
        have hlast : (second :: rest).getLastD first ∈ second :: rest := by
          rw [List.getLastD_cons]
          exact List.getLastD_mem_cons
        exact .inr (hfirst _ hlast)

/-- A statement goes from one token of its sentence to a later one. -/
theorem exists_of_statement? {sentence : List Token} {s : Statement}
    (h : statement? sentence = some s)
    (horder : sentence.Pairwise fun t u => t.span.Precedes u.span) :
    ∃ first ∈ sentence, ∃ last ∈ sentence, s.span = first.span.through last.span ∧
      (first.span = last.span ∨ first.span.Precedes last.span) := by
  obtain ⟨span, hspan, rfl⟩ := Option.map_eq_some_iff.1 h
  have horder' : (textSpans sentence).Pairwise Span.Precedes :=
    List.pairwise_map.2 (horder.sublist List.filter_sublist)
  obtain ⟨_, hfirst, _, hlast, hends⟩ := exists_of_extent hspan horder'
  obtain ⟨first, hf, rfl⟩ := List.mem_map.1 hfirst
  obtain ⟨last, hl, rfl⟩ := List.mem_map.1 hlast
  exact ⟨first, List.mem_of_mem_filter hf, last, List.mem_of_mem_filter hl, hends⟩

/-- The tokens of sentences stand one behind the other. -/
theorem pairwise_flatten_sentences (source : List Char) :
    (sentences (tokens source)).flatten.Pairwise fun t u => t.span.Precedes u.span :=
  (pairwise_tokens source).sublist (flatten_sentences_sublist _)

/-- The span of a statement points into the script. -/
theorem pointsInto_of_mem_statements {source : List Char} {s : Statement}
    (h : s ∈ statements source) : s.span.PointsInto source := by
  rw [statements_eq] at h
  obtain ⟨sentence, hmem, hs⟩ := List.mem_filterMap.1 h
  obtain ⟨first, hfirst, last, hlast, hspan, horder⟩ := exists_of_statement? hs
    ((List.pairwise_flatten.1 (pairwise_flatten_sentences source)).1 sentence hmem)
  have hfirst' := pointsInto_of_mem_tokens (mem_of_mem_sentences hmem hfirst)
  have hlast' := pointsInto_of_mem_tokens (mem_of_mem_sentences hmem hlast)
  rw [hspan]
  refine hfirst'.through hlast' ?_
  rcases horder with heq | hlt
  · rw [heq]
  · exact Nat.le_trans (Nat.le_of_lt hfirst'.start_lt_stop) hlt

/-- Statements stand one behind the other. -/
theorem pairwise_statements (source : List Char) :
    (statements source).Pairwise fun s t => s.span.Precedes t.span := by
  obtain ⟨hinside, hbetween⟩ := List.pairwise_flatten.1 (pairwise_flatten_sentences source)
  rw [statements_eq, List.pairwise_filterMap]
  refine hbetween.imp_of_mem ?_
  intro g g' hg hg' hprecedes s hs s' hs'
  obtain ⟨_, _, last, hlast, hspan, _⟩ := exists_of_statement? hs (hinside g hg)
  obtain ⟨first, hfirst, _, _, hspan', _⟩ := exists_of_statement? hs' (hinside g' hg')
  rw [hspan, hspan']
  exact hprecedes last hlast first hfirst

/-! ## Passages -/

/-- Two spans are equal, or one ends before the other starts. -/
def Span.InOrder (s t : Span) : Prop := s = t ∨ s.Precedes t

/-- A passage has the span of the statement that it is part of. -/
theorem exists_statement_of_mem_passages {queue : List Statement} {s : Statement}
    (h : s ∈ passages queue) : ∃ t ∈ queue, s.span = t.span := by
  induction queue using queue_induction with
  | nil =>
    rw [passages_nil] at h
    cases h
  | cons t queue ih =>
    rw [passages_cons] at h
    rcases List.mem_cons.1 h with rfl | h
    · exact ⟨s, List.mem_cons_self, rfl⟩
    · obtain ⟨u, hu, hspan⟩ := ih h
      rcases List.mem_append.1 hu with hu | hu
      · exact ⟨t, List.mem_cons_self, hspan.trans (Statement.span_of_mem_inner hu)⟩
      · exact ⟨u, List.mem_cons_of_mem t hu, hspan⟩

/-- Passages stand in the order of their statements, since what follows inside a statement has its
span. -/
theorem pairwise_passages {queue : List Statement}
    (h : queue.Pairwise fun s t => s.span.InOrder t.span) :
    (passages queue).Pairwise fun s t => s.span.InOrder t.span := by
  induction queue using queue_induction with
  | nil =>
    rw [passages_nil]
    exact .nil
  | cons s queue ih =>
    obtain ⟨hs, hqueue⟩ := List.pairwise_cons.1 h
    have hinner : ∀ t ∈ s.inner, t.span = s.span := fun t => Statement.span_of_mem_inner
    rw [passages_cons]
    refine .cons ?_ (ih (List.pairwise_append.2 ⟨?_, hqueue, ?_⟩))
    · intro t ht
      obtain ⟨u, hu, hspan⟩ := exists_statement_of_mem_passages ht
      rw [hspan]
      rcases List.mem_append.1 hu with hu | hu
      · exact .inl (hinner u hu).symm
      · exact hs u hu
    · unfold Statement.inner
      split
      next => exact .nil
      next => exact List.pairwise_singleton ..
    · intro t ht u hu
      rw [hinner t ht]
      exact hs u hu

/-! ## Nodes and problems -/

/-- A passage has at most one node, at its span. -/
theorem gather_span_sublist (queue : List Statement) :
    (queue.flatMap fun s => s.clause.gather (fun _ _ span => [span]) s.span).Sublist
      (queue.map Statement.span) := by
  induction queue with
  | nil => exact .slnil
  | cons s queue ih =>
    rw [List.flatMap_cons, List.map_cons]
    cases s.clause with
    | close rest => exact ih.cons s.span
    | opening keyword rest => exact ih.cons_cons s.span
    | say keyword arguments => exact ih.cons_cons s.span

/-- The spans of the nodes: that of the root, then those of passages. -/
theorem exists_map_span_nodes (table : KeywordTable) (queue : List Statement) :
    ∃ spans : List Span, spans.Sublist ((passages queue).map Statement.span) ∧
      (Reading.ofStatements table queue).outline.nodes.map Node.span = ⟨0, 0⟩ :: spans := by
  refine ⟨_, gather_span_sublist (passages queue), ?_⟩
  rw [List.map_eq_flatMap]
  exact ofStatements_gather (fun _ _ span => [span]) table queue

/-- The open groups and the problems met so far stand at spans of a list. -/
structure Progress.Within (p : Progress) (spans : List Span) : Prop where
  groups : ∀ g ∈ p.groups, g.span ∈ spans
  problems : ∀ d ∈ p.problems, d.span ∈ spans

namespace Progress

/-- At the beginning nothing is open and no problem is met. -/
theorem within_start (spans : List Span) : start.Within spans where
  groups := List.forall_mem_nil _
  problems := List.forall_mem_nil _

/-- Reading a clause adds no span but its own. -/
theorem Within.read {p : Progress} {spans : List Span} (h : p.Within spans) {span : Span}
    (hspan : span ∈ spans) (table : KeywordTable) (c : Clause) :
    (p.read table span c).Within spans := by
  cases c with
  | close rest =>
    refine ⟨fun g hg => h.groups g (List.mem_of_mem_tail hg), ?_⟩
    intro d hd
    change d ∈ (if p.groups.isEmpty then p.problems ++ [unmatched span] else p.problems) at hd
    split at hd
    · rcases List.mem_append.1 hd with hd | hd
      · exact h.problems d hd
      · rw [List.mem_singleton.1 hd]
        exact hspan
    · exact h.problems d hd
  | opening keyword rest => exact ⟨List.forall_mem_cons.2 ⟨hspan, h.groups⟩, h.problems⟩
  | say keyword arguments => exact ⟨h.groups, h.problems⟩

/-- Reading clauses adds no spans but theirs. -/
theorem Within.foldl {p : Progress} {spans : List Span} (h : p.Within spans) (table : KeywordTable)
    {queue : List Statement} (hqueue : ∀ s ∈ queue, s.span ∈ spans) :
    (queue.foldl (fun p s => p.read table s.span s.clause) p).Within spans := by
  induction queue generalizing p with
  | nil => exact h
  | cons s queue ih =>
    obtain ⟨hs, hrest⟩ := List.forall_mem_cons.1 hqueue
    exact ih (h.read hs table s.clause) hrest

end Progress

/-- The problems of statements stand at passages. -/
theorem mem_span_of_mem_problems {table : KeywordTable} {queue : List Statement} {d : Diagnostic}
    (h : d ∈ (Reading.ofStatements table queue).problems) :
    d.span ∈ (passages queue).map Statement.span := by
  have hread : (Progress.start.readAll table queue).Within ((passages queue).map Statement.span) := by
    rw [Progress.readAll_eq_foldl]
    exact (Progress.within_start _).foldl table fun s hs => List.mem_map_of_mem hs
  rcases List.mem_append.1 h with h | h
  · exact hread.problems d h
  · obtain ⟨g, hg, rfl⟩ := List.mem_map.1 h
    exact hread.groups g (List.mem_reverse.1 hg)

/-! ## Scripts -/

/-- The span of a passage points into the script. -/
theorem pointsInto_of_mem_passages {source : List Char} {span : Span}
    (h : span ∈ (passages (statements source)).map Statement.span) : span.PointsInto source := by
  obtain ⟨s, hs, rfl⟩ := List.mem_map.1 h
  obtain ⟨t, ht, hspan⟩ := exists_statement_of_mem_passages hs
  rw [hspan]
  exact pointsInto_of_mem_statements ht

/-- The problems of the scan point into the script. -/
theorem pointsInto_of_mem_scanProblems {source : List Char} {d : Diagnostic}
    (h : d ∈ scanProblems source) : d.span.PointsInto source := by
  rcases List.mem_append.1 h with h | h
  · obtain ⟨e, he, rfl⟩ := List.mem_map.1 h
    exact pointsInto_of_mem_lexicalErrors he
  · obtain ⟨t, ht, hd⟩ := List.mem_filterMap.1 h
    have hspan : d.span = t.span := by
      unfold Token.leftover? at hd
      split at hd
      · cases hd
        rfl
      · cases hd
    rw [hspan]
    exact pointsInto_of_mem_tokens ht

/-- The spans of the nodes are in the order of their numbers. The root stands before everything. -/
theorem pairwise_span_nodes (table : KeywordTable) (source : List Char) :
    ((Reading.ofExpanded table source).outline.nodes.map Node.span).Pairwise Span.InOrder := by
  obtain ⟨spans, hsublist, hspans⟩ := exists_map_span_nodes table (statements source)
  have hpassages : ((passages (statements source)).map Statement.span).Pairwise Span.InOrder :=
    List.pairwise_map.2 (pairwise_passages ((pairwise_statements source).imp .inr))
  change ((Reading.ofStatements table (statements source)).outline.nodes.map Node.span).Pairwise _
  rw [hspans]
  exact .cons (fun span _ => .inr (Nat.zero_le span.start)) (hpassages.sublist hsublist)

/-- The span of a node stands at its number. -/
theorem span_of_get? {o : Outline} {id : NodeId} {n : Node} (h : o.get? id = some n) :
    (o.nodes.map Node.span)[id]? = some n.span := by
  rw [List.getElem?_map]
  exact congrArg (Option.map Node.span) h

/-- All that is read from a script has its place in the expanded text: the nodes other than the root
and the problems stand at non-empty ranges of bytes that cut no character, and the spans of two nodes
are equal or in the order of the nodes' numbers. -/
structure ReadScript.Placed (script : ReadScript) : Prop where
  nodes : ∀ id n, script.reading.outline.get? id = some n → id ≠ Outline.root →
    n.span.PointsInto script.expanded
  problems : ∀ d ∈ script.reading.problems, d.span.PointsInto script.expanded
  ordered : ∀ i j m n, i < j → script.reading.outline.get? i = some m →
    script.reading.outline.get? j = some n → m.span = n.span ∨ m.span.stop ≤ n.span.start

/-- Whatever the script and its libraries are, what is read from it has its place. -/
theorem placed_of_readScript {table : KeywordTable} {library : Library} {source : List Char}
    {script : ReadScript} (h : readScript table library source = .ok script) : script.Placed := by
  obtain ⟨expanded, _, hscript⟩ := Steps.bind_eq_ok_iff.1 h
  cases hscript
  refine ⟨?_, ?_, ?_⟩
  · intro id n hn hid
    obtain ⟨spans, hsublist, hspans⟩ := exists_map_span_nodes table (statements expanded)
    obtain ⟨k, rfl⟩ := Nat.exists_eq_succ_of_ne_zero hid
    have hk := span_of_get? hn
    rw [show (Reading.ofExpanded table expanded).outline.nodes.map Node.span = _ from hspans,
      List.getElem?_cons_succ] at hk
    exact pointsInto_of_mem_passages (hsublist.subset (List.mem_of_getElem? hk))
  · intro d hd
    rcases List.mem_append.1 hd with hd | hd
    · exact pointsInto_of_mem_scanProblems hd
    · exact pointsInto_of_mem_passages (mem_span_of_mem_problems hd)
  · intro i j m n hij hm hn
    obtain ⟨hi, hm⟩ := List.getElem?_eq_some_iff.1 (span_of_get? hm)
    obtain ⟨hj, hn⟩ := List.getElem?_eq_some_iff.1 (span_of_get? hn)
    rw [← hm, ← hn]
    exact List.pairwise_iff_getElem.1 (pairwise_span_nodes table expanded) i j hi hj hij

/-- A script with a library, a closing too many, a directive that stays, two groups that stay open and
a comment that does. -/
def sketch : List Char := "&use(std) \x7d; &define(é) look: \x7bif: \x7bsay: ö; /* später".toList

/-- The library of the sketch. -/
def sketchLibrary : Library := .ofEntries [("std", "verb: \x7bsay: \"ü\"; \x7d;".toList)]

/-- What is read from the sketch has its place. -/
theorem placed_sketch : ∃ script, readScript .standard sketchLibrary sketch = .ok script ∧
    script.reading.outline.count = 5 ∧ script.reading.problems.length = 5 ∧ script.Placed := by
  have hpieces : pieces sketch =
      [] ++ ⟨.directive "use".toList "std".toList, "&use(std)".toList, none⟩ ::
        pieces (sketch.drop 9) := by decide +kernel
  have hload : sketchLibrary.load "std" = .ok "verb: \x7bsay: \"ü\"; \x7d;".toList := rfl
  have hexpand := expand_of_one hpieces (by simp) (by decide +kernel) rfl hload (by decide +kernel)
  have hread : readScript .standard sketchLibrary sketch = .ok ⟨_, .ofExpanded .standard _⟩ :=
    Steps.bind_eq_ok_iff.2 ⟨_, hexpand, rfl⟩
  exact ⟨_, hread, by decide +kernel, by decide +kernel, placed_of_readScript hread⟩

end TextAdventure.Script
