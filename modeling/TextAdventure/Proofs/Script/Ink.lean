import TextAdventure.Proofs.Script.Passage

/-!
# What reading keeps of a script

Blanks, colons and braces are how a script is laid out, and all else is its ink. The ink of an
outline is that of the script, in order, apart from what stands before the brace of a closing: that
text becomes part of no node (`ofStatements_ink`). A command that is followed by a brace and not by a
semicolon is lost in this way (`ink_lost_before_brace`).
-/

namespace TextAdventure.Script

/-- Whether a character is neither blank nor a colon nor a brace. -/
def isInk (c : Char) : Bool := !Text.isBlank c && !(c ∈ [':', '\x7b', '\x7d'])

/-- A text without blanks, colons and braces. -/
def ink (text : List Char) : List Char := text.filter isInk

/-- The words of a clause, apart from what follows inside it. -/
def Clause.words : Clause → List Char
  | .close _ => []
  | .opening keyword _ => keyword
  | .say keyword arguments => keyword ++ arguments.flatten

/-- The text of a statement that reading passes over: what stands before the brace of a closing. -/
def Statement.lost (s : Statement) : List Char :=
  match s.clause with
  | .close _ => (cutAt '\x7d' s.text).1
  | .opening .. => []
  | .say .. => []

/-- The keyword and the arguments of all nodes, in the order of their numbers. -/
def Outline.words (o : Outline) : List Char :=
  o.nodes.flatMap fun n => n.content.keyword ++ n.content.arguments.flatten

/-! ## Ink of a text -/

/-- There is no ink without a text. -/
@[simp] theorem ink_nil : ink [] = [] := rfl

/-- The ink of two texts is that of the first and then that of the second. -/
@[simp] theorem ink_append (text more : List Char) : ink (text ++ more) = ink text ++ ink more :=
  List.filter_append text more

/-- The ink of texts one after the other is their ink one after the other. -/
theorem ink_flatMap {α : Type} (l : List α) (text : α → List Char) :
    ink (l.flatMap text) = l.flatMap fun x => ink (text x) :=
  List.filter_flatMap

/-- Blanks are no ink. -/
@[simp] theorem ink_trim (text : List Char) : ink (Text.trim text) = ink text :=
  Text.filter_trim (fun c hc => by simp [isInk, hc]) text

/-- A character that is no ink does not count. -/
theorem ink_cons_of_not {c : Char} (hc : isInk c = false) (text : List Char) :
    ink (c :: text) = ink text :=
  List.filter_cons_of_neg (by simp [hc])

/-- A separator that is no ink takes none away. -/
theorem ink_cutAt {separator : Char} (h : isInk separator = false) (text : List Char) :
    ink (cutAt separator text).1 ++ ink (cutAt separator text).2 = ink text := by
  rcases cutAt_cases separator text with ⟨_, heq⟩ | ⟨_, heq⟩
  · rw [heq]
    exact List.append_nil _
  · calc ink (cutAt separator text).1 ++ ink (cutAt separator text).2
        = ink ((cutAt separator text).1 ++ separator :: (cutAt separator text).2) := by
          rw [ink_append, ink_cons_of_not h]
      _ = ink text := by rw [← heq]

/-! ## Ink of a passage -/

/-- The arguments of a body are the two sides of its first space. -/
theorem flatten_argumentsOf (body : List Char) :
    (argumentsOf body).flatten = (cutAt ' ' body).1 ++ (cutAt ' ' body).2 := by
  unfold argumentsOf
  cases (cutAt ' ' body).1 <;> cases (cutAt ' ' body).2 <;> simp

/-- The ink of a keyword and a body is in the words of the clause or in its rest. -/
theorem ink_ofBody (keyword body : List Char) :
    ink (Clause.ofBody keyword body).words ++ ink (Clause.ofBody keyword body).rest =
      ink keyword ++ ink body := by
  have hcut : ink (cutAt ' ' (Text.trim body)).1 ++ ink (cutAt ' ' (Text.trim body)).2 = ink body := by
    rw [ink_cutAt rfl, ink_trim]
  rcases Clause.brace_or_isBody body with ⟨inner, hinner⟩ | hbody
  · rw [Clause.ofBody_of_brace hinner, ← hcut, hinner, ink_cons_of_not rfl]
    simp only [Clause.words, Clause.rest, ink_trim, ink_append]
    rw [ink_cons_of_not rfl]
  · rw [Clause.ofBody_of_isBody hbody, ← hcut]
    simp [Clause.words, Clause.rest, flatten_argumentsOf]

/-- A statement without a closing brace before its colon loses nothing. -/
theorem Statement.lost_of_no_brace {s : Statement} (h : '\x7d' ∉ Text.trim (cutAt ':' s.text).1) :
    s.lost = [] := by
  rw [lost, clause, Clause.ofText_of_no_brace h]
  rcases Clause.brace_or_isBody (cutAt ':' s.text).2 with ⟨inner, hinner⟩ | hbody
  · rw [Clause.ofBody_of_brace hinner]
  · rw [Clause.ofBody_of_isBody hbody]

/-- The ink of a passage is what is lost of it, what its clause says, and what follows inside it. -/
theorem Statement.ink_text (s : Statement) :
    ink s.lost ++ ink s.clause.words ++ ink s.clause.rest = ink s.text := by
  by_cases h : '\x7d' ∈ Text.trim (cutAt ':' s.text).1
  · have hclause : s.clause = .close (Text.trim (cutAt '\x7d' s.text).2) := Clause.ofText_of_brace h
    rw [lost, hclause, ← ink_cutAt (show isInk '\x7d' = false from rfl) s.text]
    simp [Clause.words, Clause.rest]
  · rw [lost_of_no_brace h, clause, Clause.ofText_of_no_brace h, ink_nil, List.nil_append, ink_ofBody,
      ink_trim, ink_cutAt rfl]

/-- The ink of statements, passage by passage. -/
theorem ink_passages (queue : List Statement) :
    ink (queue.flatMap Statement.text) =
      (passages queue).flatMap fun s => ink s.lost ++ ink s.clause.words := by
  induction queue using queue_induction with
  | nil => rw [passages_nil]; rfl
  | cons s queue ih =>
    rw [passages_cons, List.flatMap_cons, List.flatMap_cons, ← ih, List.flatMap_append,
      s.flatMap_text_inner, ink_append, ink_append, ← s.ink_text, List.append_assoc]

/-! ## Ink of an outline -/

/-- The words of an outline are those of the passages, in order. -/
theorem ofStatements_words (table : KeywordTable) (statements : List Statement) :
    (Reading.ofStatements table statements).outline.words =
      (passages statements).flatMap fun s => s.clause.words := by
  have hgather := ofStatements_gather (fun keyword arguments _ => keyword ++ arguments.flatten) table
    statements
  refine hgather.trans (List.flatMap_congr ?_)
  intro s _
  cases s.clause with
  | close rest => rfl
  | opening keyword rest => exact List.append_nil keyword
  | say keyword arguments => rfl

/-- A list that is made of two parts for each element is made of the second parts alone only if all
first parts are empty. -/
theorem flatMap_append_eq_right_iff {α β : Type} {l : List α} {f g : α → List β} :
    (l.flatMap fun x => f x ++ g x) = l.flatMap g ↔ ∀ x ∈ l, f x = [] := by
  have hlength : (l.flatMap fun x => f x ++ g x).length =
      (l.flatMap f).length + (l.flatMap g).length := by
    induction l with
    | nil => rfl
    | cons x l ih =>
      simp only [List.flatMap_cons, List.length_append, ih]
      omega
  refine ⟨fun h => ?_, fun h => ?_⟩
  · rw [h] at hlength
    exact List.flatMap_eq_nil_iff.1 (List.length_eq_zero_iff.1 (by omega))
  · exact List.flatMap_congr fun x hx => by rw [h x hx, List.nil_append]

/-- Reading keeps the ink of a script, in order, but for what stands before the brace of a closing.
So all of it is kept exactly if no closing has ink before its brace. -/
theorem ofStatements_ink (table : KeywordTable) (statements : List Statement) :
    ink (statements.flatMap Statement.text) =
        ((passages statements).flatMap fun s => ink s.lost ++ ink s.clause.words) ∧
      ink (Reading.ofStatements table statements).outline.words =
        ((passages statements).flatMap fun s => ink s.clause.words) ∧
      (ink (Reading.ofStatements table statements).outline.words =
          ink (statements.flatMap Statement.text) ↔
        ∀ s ∈ passages statements, ink s.lost = []) := by
  have hwords : ink (Reading.ofStatements table statements).outline.words =
      (passages statements).flatMap fun s => ink s.clause.words := by
    rw [ofStatements_words, ink_flatMap]
  refine ⟨ink_passages statements, hwords, ?_⟩
  rw [hwords, ink_passages, eq_comm]
  exact flatMap_append_eq_right_iff

/-- A group whose last command has no semicolon. -/
def unfinished : List Statement :=
  [⟨"look: \x7b".toList, ⟨0, 7⟩⟩, ⟨"endsuccess \x7d".toList, ⟨8, 20⟩⟩]

/-- The command before the brace is in no node, and nothing is said about it. -/
theorem ink_lost_before_brace :
    ink (Reading.ofStatements .standard unfinished).outline.words ≠
        ink (unfinished.flatMap Statement.text) ∧
      (Reading.ofStatements .standard unfinished).problems = [] := by
  have hwords : ink (Reading.ofStatements .standard unfinished).outline.words =
      "look".toList := by
    decide +kernel
  have htext : ink (unfinished.flatMap Statement.text) = "lookendsuccess".toList := by
    decide +kernel
  refine ⟨?_, by decide +kernel⟩
  rw [hwords, htext]
  decide

end TextAdventure.Script
