import Mathlib.Data.List.TakeWhile

/-!
# Runs of characters

A scan takes the characters of a class as long as there are any. Before a text where the run ends, it
takes exactly the run (`takeWhile_run`) and leaves that text (`dropWhile_run`).
-/

namespace TextAdventure.Text

/-- A run of the characters of a class ends before a text. -/
def RunEnds (p : Char → Bool) (rest : List Char) : Prop := ∀ c ∈ rest.head?, p c = false

/-- A run ends with the text. -/
theorem runEnds_nil (p : Char → Bool) : RunEnds p [] := by
  intro c h
  cases h

/-- A run ends at a character that does not belong to it. -/
theorem runEnds_cons {p : Char → Bool} {c : Char} (h : p c = false) (rest : List Char) :
    RunEnds p (c :: rest) := by
  intro d hd
  cases hd
  exact h

/-- A run to which no character belongs ends everywhere. -/
theorem runEnds_of_false {p : Char → Bool} (h : ∀ c, p c = false) (rest : List Char) :
    RunEnds p rest := fun c _ => h c

/-- A run ends where all that belongs to it is dropped. -/
theorem runEnds_dropWhile (p : Char → Bool) (text : List Char) : RunEnds p (text.dropWhile p) := by
  intro c hc
  have h := List.head?_dropWhile_not p text
  rw [hc] at h
  exact h

/-- Whether a run ends is told by the first character. -/
theorem any_head?_eq_false_iff {p : Char → Bool} {rest : List Char} :
    rest.head?.any p = false ↔ RunEnds p rest := by
  cases rest with
  | nil => simp [RunEnds]
  | cons c rest => simp [RunEnds]

/-- Before a text where it ends, a run is all that is taken. -/
theorem takeWhile_run {p : Char → Bool} {run rest : List Char} (hrun : ∀ c ∈ run, p c = true)
    (hrest : RunEnds p rest) : (run ++ rest).takeWhile p = run := by
  rw [List.takeWhile_append_of_pos hrun]
  cases rest with
  | nil => exact List.append_nil run
  | cons c rest => rw [List.takeWhile_cons_of_neg (by simp [hrest c rfl]), List.append_nil]

/-- Dropping a run leaves what it ends at. -/
theorem dropWhile_run {p : Char → Bool} {run rest : List Char} (hrun : ∀ c ∈ run, p c = true)
    (hrest : RunEnds p rest) : (run ++ rest).dropWhile p = rest := by
  rw [List.dropWhile_append_of_pos hrun]
  cases rest with
  | nil => rfl
  | cons c rest => rw [List.dropWhile_cons_of_neg (by simp [hrest c rfl])]

end TextAdventure.Text
