import Mathlib.Data.List.Basic
import TextAdventure.Proofs.Steps
import TextAdventure.Proofs.Text.Blank
import TextAdventure.Script.Reading

/-!
# Passages of a script

A passage is a statement that is read, be it one of the script or what follows a brace inside another
one. Reading goes through the passages in order (`readAll_eq_foldl`), and what it does with one of
them depends on its clause alone. Proofs about reading go passage by passage (`queue_induction`).

The words of a clause are not arbitrary. A keyword is trimmed and holds neither a colon nor a closing
brace, and arguments are what a trimmed text is cut into (`Clause.Spelled`, `spelled_ofText`). So a
clause has a text of its own, with one blank after the colon and nothing after a brace, which reads
as that clause (`ofText_text`).

Whatever the nodes of an outline keep of their clauses is found in the passages, in the same order
(`ofStatements_gather`).
-/

namespace TextAdventure.Script

/-! ## Cutting a text in two -/

/-- A text without the separator is all before the cut. -/
theorem cutAt_of_not_mem {separator : Char} {text : List Char} (h : separator ∉ text) :
    cutAt separator text = (text, []) := by
  rw [cutAt, Text.splitFirst_of_not_mem h]
  rfl

/-- The cut is at the first separator. -/
theorem cutAt_append {separator : Char} {before : List Char} (h : separator ∉ before)
    (after : List Char) : cutAt separator (before ++ separator :: after) = (before, after) := by
  rw [cutAt, Text.splitFirst_append after h]
  rfl

/-- A text is not cut, or it is the two sides of the cut with the separator between them. -/
theorem cutAt_cases (separator : Char) (text : List Char) :
    (separator ∉ text ∧ cutAt separator text = (text, [])) ∨
      separator ∉ (cutAt separator text).1 ∧
        text = (cutAt separator text).1 ++ separator :: (cutAt separator text).2 := by
  by_cases h : separator ∈ text
  · obtain ⟨before, after, rfl, hbefore⟩ := List.eq_append_cons_of_mem h
    rw [cutAt_append hbefore]
    exact .inr ⟨hbefore, rfl⟩
  · exact .inl ⟨h, cutAt_of_not_mem h⟩

/-- There is no separator before the cut. -/
theorem not_mem_cutAt (separator : Char) (text : List Char) :
    separator ∉ (cutAt separator text).1 := by
  rcases cutAt_cases separator text with ⟨h, heq⟩ | ⟨h, _⟩
  · rw [heq]
    exact h
  · exact h

/-! ## How a clause is spelled -/

/-- A trimmed text as the arguments of a statement: cut at its first space, without empty parts. -/
def argumentsOf (body : List Char) : List (List Char) :=
  [(cutAt ' ' body).1, (cutAt ' ' body).2].filter (!·.isEmpty)

/-- The word of a statement. -/
structure IsKeyword (keyword : List Char) : Prop where
  trimmed : Text.trim keyword = keyword
  colon_not_mem : ':' ∉ keyword
  brace_not_mem : '\x7d' ∉ keyword

/-- What follows the colon of a statement that opens no group. -/
structure IsBody (body : List Char) : Prop where
  trimmed : Text.trim body = body
  head_ne_brace : ∀ inner, (cutAt ' ' body).1 ≠ '\x7b' :: inner

namespace Clause

variable {keyword body : List Char}

/-- The words of a clause are such as a statement can have. -/
def Spelled : Clause → Prop
  | .close _ => True
  | .opening keyword _ => IsKeyword keyword
  | .say keyword arguments => IsKeyword keyword ∧ ∃ body, IsBody body ∧ arguments = argumentsOf body

/-- The clause without what follows inside it. -/
def alone : Clause → Clause
  | .close _ => .close []
  | .opening keyword _ => .opening keyword []
  | .say keyword arguments => .say keyword arguments

/-- The text of a clause alone. A colon always follows the word, and a space separates arguments. -/
def text : Clause → List Char
  | .close _ => ['\x7d']
  | .opening keyword _ => keyword ++ [':', ' ', '\x7b']
  | .say keyword arguments => keyword ++ ':' :: ' ' :: [' '].intercalate arguments

/-- A body whose first word starts with an opening brace opens a group. -/
theorem ofBody_of_brace {inner : List Char} (h : (cutAt ' ' (Text.trim body)).1 = '\x7b' :: inner) :
    ofBody keyword body =
      .opening keyword (Text.trim (inner ++ ' ' :: (cutAt ' ' (Text.trim body)).2)) := by
  unfold ofBody
  dsimp only
  rw [h]
  rfl

/-- Any other body gives the arguments of its keyword. -/
theorem ofBody_of_isBody (h : IsBody (Text.trim body)) :
    ofBody keyword body = .say keyword (argumentsOf (Text.trim body)) := by
  unfold ofBody
  dsimp only
  split
  next inner hinner => exact absurd hinner (h.head_ne_brace inner)
  next => rfl

/-- What follows a colon starts with a brace, or it is a body. -/
theorem brace_or_isBody (body : List Char) :
    (∃ inner, (cutAt ' ' (Text.trim body)).1 = '\x7b' :: inner) ∨ IsBody (Text.trim body) := by
  by_cases h : ∃ inner, (cutAt ' ' (Text.trim body)).1 = '\x7b' :: inner
  · exact .inl h
  · exact .inr ⟨Text.trim_trim body, not_exists.1 h⟩

/-- A closing brace before the colon closes a group. -/
theorem ofText_of_brace {text : List Char} (h : '\x7d' ∈ Text.trim (cutAt ':' text).1) :
    ofText text = .close (Text.trim (cutAt '\x7d' text).2) :=
  if_pos h

/-- Without a closing brace before the colon, a statement is a keyword and a body. -/
theorem ofText_of_no_brace {text : List Char} (h : '\x7d' ∉ Text.trim (cutAt ':' text).1) :
    ofText text = ofBody (Text.trim (cutAt ':' text).1) (cutAt ':' text).2 :=
  if_neg h

/-- What stands before the colon is a keyword if it has no closing brace. -/
theorem isKeyword_trim {text : List Char} (h : '\x7d' ∉ Text.trim (cutAt ':' text).1) :
    IsKeyword (Text.trim (cutAt ':' text).1) where
  trimmed := Text.trim_trim _
  colon_not_mem hmem := not_mem_cutAt ':' text ((Text.trim_sublist _).subset hmem)
  brace_not_mem := h

/-- Whatever a statement says is spelled as a statement can spell it. -/
theorem spelled_ofText (text : List Char) : (ofText text).Spelled := by
  by_cases h : '\x7d' ∈ Text.trim (cutAt ':' text).1
  · rw [ofText_of_brace h]
    exact trivial
  · have hkeyword := isKeyword_trim h
    rw [ofText_of_no_brace h]
    rcases brace_or_isBody (cutAt ':' text).2 with ⟨inner, hinner⟩ | hbody
    · rw [ofBody_of_brace hinner]
      exact hkeyword
    · rw [ofBody_of_isBody hbody]
      exact ⟨hkeyword, _, hbody, rfl⟩

/-! ## The text of a clause -/

/-- A trimmed text is its arguments with a space between them: it neither starts nor ends with the
space it is cut at. -/
theorem intercalate_argumentsOf (h : Text.trim body = body) :
    [' '].intercalate (argumentsOf body) = body := by
  have hblank : Text.isBlank ' ' = true := rfl
  rcases cutAt_cases ' ' body with ⟨_, heq⟩ | ⟨_, heq⟩
  · cases body with
    | nil => rfl
    | cons c rest => simp [argumentsOf, heq]
  · have hfirst : (cutAt ' ' body).1 ≠ [] := by
      intro hnil
      rw [hnil, List.nil_append] at heq
      rw [Text.isBlank_of_trim_eq_cons (h.trans heq)] at hblank
      cases hblank
    have hsecond : (cutAt ' ' body).2 ≠ [] := by
      intro hnil
      rw [hnil] at heq
      rw [Text.isBlank_of_trim_eq_append (h.trans heq)] at hblank
      cases hblank
    have hboth : argumentsOf body = [(cutAt ' ' body).1, (cutAt ' ' body).2] := by
      simp [argumentsOf, hfirst, hsecond]
    rw [hboth]
    simpa [List.intercalate] using heq.symm

/-- A keyword, a colon and a body are read as they are written. -/
theorem ofText_append (hkeyword : IsKeyword keyword) (body : List Char) :
    ofText (keyword ++ ':' :: body) = ofBody keyword body := by
  have hcut := cutAt_append hkeyword.colon_not_mem body
  have hbrace : '\x7d' ∉ Text.trim (cutAt ':' (keyword ++ ':' :: body)).1 := by
    rw [hcut, hkeyword.trimmed]
    exact hkeyword.brace_not_mem
  rw [ofText_of_no_brace hbrace, hcut, hkeyword.trimmed]

/-- The text of a clause reads as that clause and leaves nothing to read. -/
theorem ofText_text {c : Clause} (h : c.Spelled) : ofText c.text = c.alone := by
  cases c with
  | close rest => rfl
  | opening keyword rest => exact ofText_append h [' ', '\x7b']
  | say keyword arguments =>
    obtain ⟨hkeyword, body, hbody, rfl⟩ := h
    have htrim : Text.trim (' ' :: body) = body := by
      rw [Text.trim_cons_of_isBlank rfl, hbody.trimmed]
    have hsay : ofBody keyword (' ' :: body) = .say keyword (argumentsOf body) := by
      rw [ofBody_of_isBody (htrim.symm ▸ hbody), htrim]
    rw [text, intercalate_argumentsOf hbody.trimmed, ofText_append hkeyword, hsay]
    rfl

/-- A clause alone has nothing that follows inside its statement. -/
theorem rest_alone (c : Clause) : c.alone.rest = [] := by
  cases c <;> rfl

end Clause

/-! ## The order of reading -/

/-- The clause of a statement. -/
def Statement.clause (s : Statement) : Clause := Clause.ofText s.text

/-- What follows inside a statement, as a statement. -/
def Statement.inner (s : Statement) : List Statement :=
  if s.clause.rest = [] then [] else [⟨s.clause.rest, s.span⟩]

/-- All passages, in the order in which they are read. -/
def passages : List Statement → List Statement
  | [] => []
  | s :: queue =>
    if h : s.clause.rest = [] then
      s :: passages queue
    else
      have := Clause.length_rest_lt h
      s :: passages (⟨s.clause.rest, s.span⟩ :: queue)
termination_by queue => Progress.workload queue
decreasing_by
  · exact Nat.lt_add_of_pos_left (Nat.succ_pos s.text.length)
  · exact Nat.add_lt_add_right (Nat.succ_lt_succ this) (Progress.workload queue)

/-- Nothing is read of no statements. -/
theorem passages_nil : passages [] = [] := by
  rw [passages]

/-- A statement is a passage, and what follows inside it is the next one. -/
theorem passages_cons (s : Statement) (queue : List Statement) :
    passages (s :: queue) = s :: passages (s.inner ++ queue) := by
  rw [passages, Statement.inner]
  by_cases h : s.clause.rest = []
  · rw [if_pos h]
    exact dif_pos h
  · rw [if_neg h]
    exact dif_neg h

/-- What is to be proved of a queue may be used of the queue that is left when its first statement has
been read. -/
@[elab_as_elim]
theorem queue_induction {motive : List Statement → Prop} (nil : motive [])
    (cons : ∀ s queue, motive (s.inner ++ queue) → motive (s :: queue)) (queue : List Statement) :
    motive queue := by
  induction queue using passages.induct with
  | case1 => exact nil
  | case2 s queue h ih =>
    have hinner : s.inner = [] := if_pos h
    exact cons s queue (hinner ▸ ih)
  | case3 s queue h _ ih =>
    have hinner : s.inner = [⟨s.clause.rest, s.span⟩] := if_neg h
    exact cons s queue (hinner ▸ ih)

/-- What follows inside a statement is the rest of its clause. -/
theorem Statement.flatMap_text_inner (s : Statement) :
    s.inner.flatMap Statement.text = s.clause.rest := by
  unfold inner
  split
  next h => exact h.symm
  next => exact List.flatMap_singleton ..

/-- What follows inside a statement has its span. -/
theorem Statement.span_of_mem_inner {s t : Statement} (h : t ∈ s.inner) : t.span = s.span := by
  unfold inner at h
  split at h
  next => cases h
  next => rw [List.mem_singleton.1 h]

namespace Progress

/-- Reading no statements changes nothing. -/
theorem readAll_nil (table : KeywordTable) (p : Progress) : p.readAll table [] = p := by
  rw [readAll]

/-- A statement is read by its clause, and what follows inside it is read next. -/
theorem readAll_cons (table : KeywordTable) (p : Progress) (s : Statement) (queue : List Statement) :
    p.readAll table (s :: queue) =
      (p.read table s.span s.clause).readAll table (s.inner ++ queue) := by
  rw [readAll, Statement.inner]
  by_cases h : s.clause.rest = []
  · rw [if_pos h]
    exact dif_pos h
  · rw [if_neg h]
    exact dif_neg h

/-- Reading statements is reading their passages one after the other. -/
theorem readAll_eq_foldl (table : KeywordTable) (p : Progress) (queue : List Statement) :
    p.readAll table queue = (passages queue).foldl (fun p s => p.read table s.span s.clause) p := by
  induction queue using queue_induction generalizing p with
  | nil => rw [readAll_nil, passages_nil, List.foldl_nil]
  | cons s queue ih => rw [readAll_cons, ih, passages_cons, List.foldl_cons]

end Progress

/-- Statements that leave nothing to read are their own passages. -/
theorem passages_of_rest_eq_nil {queue : List Statement} (h : ∀ s ∈ queue, s.clause.rest = []) :
    passages queue = queue := by
  induction queue with
  | nil => exact passages_nil
  | cons s queue ih =>
    obtain ⟨hs, hqueue⟩ := List.forall_mem_cons.1 h
    rw [passages_cons, Statement.inner, if_pos hs, List.nil_append, ih hqueue]

/-! ## What is kept of the passages -/

section
variable {β : Type} (f : List Char → List (List Char) → Span → List β)

/-- What is made of the keyword, the arguments and the span of all nodes, in the order of their
numbers. -/
def Outline.gather (o : Outline) : List β :=
  o.nodes.flatMap fun n => f n.content.keyword n.content.arguments n.span

/-- What is made of a clause at a span; a closing has no node. -/
def Clause.gather (span : Span) : Clause → List β
  | .close _ => []
  | .opening keyword _ => f keyword [] span
  | .say keyword arguments => f keyword arguments span

/-- Links are not gathered. -/
theorem Outline.gather_attach (o : Outline) (parent child : NodeId) :
    (o.attach parent child).gather f = o.gather f := by
  have hgather : ∀ o : Outline, o.gather f = (o.nodes.map fun n => (n.content, n.span)).flatMap
      fun e => f e.1.keyword e.1.arguments e.2 := by
    intro o
    rw [List.flatMap_map]
    rfl
  unfold attach
  split
  · rw [hgather, hgather, Steps.map_modify_of_eq, Steps.map_modify_of_eq]
    · intro n
      rfl
    · intro n
      rfl
  · rfl

/-- A new node is gathered last. -/
theorem Progress.gather_add (p : Progress) (kind : NodeKind) (keyword : List Char)
    (arguments : List (List Char)) (span : Span) :
    (p.add kind keyword arguments span).outline.gather f =
      p.outline.gather f ++ f keyword arguments span := by
  rw [add, Outline.gather_attach, Outline.create, Outline.gather, List.flatMap_append,
    List.flatMap_singleton]
  rfl

/-- Reading a clause gathers what the clause says. -/
theorem Progress.gather_read (table : KeywordTable) (p : Progress) (span : Span) (c : Clause) :
    (p.read table span c).outline.gather f = p.outline.gather f ++ c.gather f span := by
  cases c with
  | close rest => exact (List.append_nil _).symm
  | opening keyword rest => exact p.gather_add f _ keyword [] span
  | say keyword arguments => exact p.gather_add f _ keyword arguments span

/-- Reading clauses gathers what they say, in order. -/
theorem Progress.gather_foldl (table : KeywordTable) (p : Progress) (queue : List Statement) :
    (queue.foldl (fun p s => p.read table s.span s.clause) p).outline.gather f =
      p.outline.gather f ++ queue.flatMap fun s => s.clause.gather f s.span := by
  induction queue generalizing p with
  | nil => exact (List.append_nil _).symm
  | cons s queue ih =>
    rw [List.foldl_cons, ih, gather_read, List.flatMap_cons, List.append_assoc]

/-- What is gathered from an outline is that of its root, which says nothing, and that of the
passages. -/
theorem ofStatements_gather (table : KeywordTable) (statements : List Statement) :
    (Reading.ofStatements table statements).outline.gather f =
      f [] [] ⟨0, 0⟩ ++ (passages statements).flatMap fun s => s.clause.gather f s.span := by
  have hroot : Progress.start.outline.gather f = f [] [] ⟨0, 0⟩ := List.flatMap_singleton ..
  rw [Reading.ofStatements, Progress.readAll_eq_foldl, ← hroot]
  exact Progress.gather_foldl f table .start (passages statements)

end

end TextAdventure.Script
