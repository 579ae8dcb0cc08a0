/-!
# Cutting a text at a character

Texts are cut as lists of characters. `splitFirst` cuts at the first separator and says whether there
was one.
-/

namespace TextAdventure.Text

/-- What stands before and after the first separator, if there is one. -/
def splitFirst (separator : Char) : List Char → Option (List Char × List Char)
  | [] => none
  | c :: rest =>
    if c = separator then
      some ([], rest)
    else
      (splitFirst separator rest).map fun (before, after) => (c :: before, after)

/-- The two sides of a cut and its separator make up the whole text. -/
theorem eq_append_of_splitFirst {separator : Char} :
    ∀ {text before after : List Char}, splitFirst separator text = some (before, after) →
      text = before ++ separator :: after
  | [], _, _, h => by simp [splitFirst] at h
  | c :: rest, before, after, h => by
      unfold splitFirst at h
      split at h
      next hc =>
        obtain ⟨rfl, rfl⟩ := Prod.mk.inj (Option.some.inj h)
        simp [hc]
      next =>
        obtain ⟨⟨b, a⟩, hba, he⟩ := Option.map_eq_some_iff.1 h
        obtain ⟨rfl, rfl⟩ := Prod.mk.inj he
        simp [eq_append_of_splitFirst hba]

/-- The first separator is the one behind a text that holds none. -/
theorem splitFirst_append {separator : Char} (right : List Char) :
    ∀ {left : List Char}, separator ∉ left →
      splitFirst separator (left ++ separator :: right) = some (left, right)
  | [], _ => by simp [splitFirst]
  | c :: left, h => by
      rw [List.mem_cons, not_or] at h
      simp [splitFirst, Ne.symm h.1, splitFirst_append right h.2]

/-- A text without separators is not cut. -/
theorem splitFirst_of_not_mem {separator : Char} :
    ∀ {text : List Char}, separator ∉ text → splitFirst separator text = none
  | [], _ => rfl
  | c :: rest, h => by
      rw [List.mem_cons, not_or] at h
      simp [splitFirst, Ne.symm h.1, splitFirst_of_not_mem h.2]

end TextAdventure.Text
