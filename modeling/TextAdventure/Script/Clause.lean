import TextAdventure.Script.Statement
import TextAdventure.Text.Split

/-!
# Clauses

How a single statement reads: it closes a group, opens one, or says something. What follows the brace
of a closing or an opening is a statement of its own, the rest of the clause, and it is shorter than
the statement (`length_rest_lt`).
-/

namespace TextAdventure.Script

/-- How a statement reads. -/
inductive Clause where
  /-- The end of a group, and the text after it. -/
  | close (rest : List Char)
  /-- The start of a group under a word, and the text after it. -/
  | opening (keyword rest : List Char)
  /-- A word and what is said about it. -/
  | say (keyword : List Char) (arguments : List (List Char))
deriving DecidableEq

/-- The text before and after the first separator; without one, the whole text and nothing. -/
def cutAt (separator : Char) (text : List Char) : List Char × List Char :=
  (Text.splitFirst separator text).getD (text, [])

namespace Clause

/-- What is said after the colon of a statement. -/
def ofBody (keyword body : List Char) : Clause :=
  let (first, second) := cutAt ' ' (Text.trim body)
  match first with
  | '\x7b' :: inner => .opening keyword (Text.trim (inner ++ ' ' :: second))
  | _ => .say keyword ([first, second].filter (!·.isEmpty))

/-- The clause of a statement. A brace that closes stands before the first colon. -/
def ofText (text : List Char) : Clause :=
  let (before, body) := cutAt ':' text
  let keyword := Text.trim before
  if '\x7d' ∈ keyword then
    .close (Text.trim (cutAt '\x7d' text).2)
  else
    ofBody keyword body

/-- The statement that follows inside the clause; it may be empty. -/
def rest : Clause → List Char
  | .close rest => rest
  | .opening _ rest => rest
  | .say .. => []

/-! ## The rest is shorter -/

theorem length_cutAt_le (separator : Char) (text : List Char) :
    (cutAt separator text).1.length + (cutAt separator text).2.length ≤ text.length := by
  unfold cutAt
  cases h : Text.splitFirst separator text with
  | none => simp
  | some cut =>
    have := congrArg List.length (Text.eq_append_of_splitFirst h)
    simp at this ⊢
    omega

theorem length_cutAt_lt {separator : Char} {text : List Char} (hne : (cutAt separator text).2 ≠ []) :
    (cutAt separator text).1.length + (cutAt separator text).2.length < text.length := by
  unfold cutAt at hne ⊢
  cases h : Text.splitFirst separator text with
  | none => simp [h] at hne
  | some cut =>
    have := congrArg List.length (Text.eq_append_of_splitFirst h)
    simp at this ⊢
    omega

theorem trim_nil : Text.trim [] = [] := rfl

theorem ne_nil_of_trim {text : List Char} (h : Text.trim text ≠ []) : text ≠ [] := by
  rintro rfl
  exact h trim_nil

theorem length_rest_ofBody_le (keyword body : List Char) :
    (ofBody keyword body).rest.length ≤ body.length := by
  have hb := Text.length_trim_le body
  have hc := length_cutAt_le ' ' (Text.trim body)
  have hl := @length_cutAt_lt ' ' (Text.trim body)
  unfold ofBody
  dsimp only
  split
  next inner hi =>
    rw [hi] at hc hl
    have ht := Text.length_trim_le (inner ++ ' ' :: (cutAt ' ' (Text.trim body)).2)
    simp only [List.length_append, List.length_cons, rest] at *
    omega
  next => simp [rest]

/-- What follows inside a clause is shorter than the statement. -/
theorem length_rest_lt {text : List Char} (hne : (ofText text).rest ≠ []) :
    (ofText text).rest.length < text.length := by
  unfold ofText at hne ⊢
  dsimp only at hne ⊢
  split at hne
  next h =>
    rw [if_pos h]
    have := length_cutAt_lt (ne_nil_of_trim hne)
    have := Text.length_trim_le (cutAt '\x7d' text).2
    simp only [rest] at *
    omega
  next h =>
    rw [if_neg h]
    have hle := length_rest_ofBody_le (Text.trim (cutAt ':' text).1) (cutAt ':' text).2
    have hb : (cutAt ':' text).2 ≠ [] := by
      intro he
      rw [he] at hle
      exact hne (List.length_eq_zero_iff.1 (Nat.le_zero.1 (by simpa [he] using hle)))
    have := length_cutAt_lt hb
    omega

end Clause

end TextAdventure.Script
