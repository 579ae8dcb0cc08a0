import TextAdventure.Script.Diagnostic
import TextAdventure.Text.Blank
import TextAdventure.Text.Quoted
import TextAdventure.Text.Utf8

/-!
# Tokens of a script

A script is cut into pieces from left to right. The first character decides the class of a piece, and
the piece then takes all that its class allows; it is never given back to try a shorter one. A piece
that breaks off keeps its text as plain text and has a flaw, so scanning goes on to the end of every
script.

`next_append` says that a piece and what is left make up the text, and `next_text_ne_nil` that a piece
is not empty: the pieces tile the script (`flatten_pieces`), and the loop ends.
-/

namespace TextAdventure.Script

/-- What a token is. -/
inductive Lexeme where
  /-- A run of spaces, tabs and line ends. -/
  | blank
  /-- A comment from `//` to the end of its line. -/
  | lineComment
  /-- A comment between `/*` and `*/`. -/
  | blockComment
  /-- A directive `&name(arguments)`. -/
  | directive (name arguments : List Char)
  /-- Text in double quotes, with its quotes and escapes. -/
  | literal (text : List Char)
  /-- The end of a statement. -/
  | semicolon
  /-- Any other text. -/
  | plain (text : List Char)
deriving DecidableEq

/-- Why a piece of a script is not well formed. -/
inductive Flaw where
  /-- A comment without its closing `*/`. -/
  | openComment
  /-- A literal without its closing quote. -/
  | openLiteral
  /-- A directive that breaks off after this text. -/
  | brokenDirective (text : List Char)
deriving DecidableEq

/-- The message about a flaw. -/
def Flaw.message : Flaw → String
  | .openComment => "unterminated block comment (missing closing */)"
  | .openLiteral => "unterminated string literal"
  | .brokenDirective text => "unexpected character: " ++ Text.quote (String.ofList text)

/-- A piece of a script. -/
structure Piece where
  lexeme : Lexeme
  /-- The characters of the piece. -/
  text : List Char
  flaw : Option Flaw
deriving DecidableEq

/-! ## Classes of characters -/

/-- Whether a character separates words. -/
def isGap (c : Char) : Bool := c = ' ' || c = '\t' || c = '\r' || c = '\n'

/-- Whether a character can start the name of a directive. -/
def isNameStart (c : Char) : Bool := c.isAlpha || c = '_'

/-- Whether a character can stand inside the name of a directive. -/
def isNameChar (c : Char) : Bool := isNameStart c || c.isDigit

/-- Whether a character can stand between the parentheses of a directive. -/
def isArgumentChar (c : Char) : Bool := c ≠ ')' && c ≠ '\n'

/-- Whether a character belongs to plain text. -/
def isPlain (c : Char) : Bool := !isGap c && c ≠ ';' && c ≠ '"' && c ≠ '/' && c ≠ '&'

/-! ## One piece -/

/-- A piece without a flaw, and the text after it. -/
def whole (lexeme : Lexeme) (text rest : List Char) : Piece × List Char := (⟨lexeme, text, none⟩, rest)

/-- A piece of plain text, and the text after it. -/
def plain (text rest : List Char) : Piece × List Char := whole (.plain text) text rest

/-- A piece of plain text with a flaw, and the text after it. -/
def flawed (flaw : Flaw) (text rest : List Char) : Piece × List Char :=
  (⟨.plain text, text, some flaw⟩, rest)

/-- The text of a comment through its first `*/`, and the text after it. -/
def cutComment : List Char → Option (List Char × List Char)
  | '*' :: '/' :: rest => some (['*', '/'], rest)
  | c :: rest => (cutComment rest).map fun (text, rest) => (c :: text, rest)
  | [] => none

/-- The piece that starts with a slash, given the text after the slash. -/
def afterSlash : List Char → Piece × List Char
  | '/' :: rest =>
    whole .lineComment ('/' :: '/' :: rest.takeWhile (· ≠ '\n')) (rest.dropWhile (· ≠ '\n'))
  | '*' :: rest =>
    match cutComment rest with
    | some (text, rest) => whole .blockComment ('/' :: '*' :: text) rest
    | none => (⟨.blockComment, '/' :: '*' :: rest, some .openComment⟩, [])
  | rest => plain ['/'] rest

/-- The piece that starts with an ampersand and a name, given the name and the text after it. -/
def afterName (name : List Char) : List Char → Piece × List Char
  | '(' :: rest =>
    let arguments := rest.takeWhile isArgumentChar
    match rest.dropWhile isArgumentChar with
    | ')' :: rest =>
      whole (.directive name arguments) ('&' :: name ++ '(' :: arguments ++ [')']) rest
    | rest =>
      let text := '&' :: name ++ '(' :: arguments
      flawed (.brokenDirective text) text rest
  | rest => flawed (.brokenDirective ('&' :: name)) ('&' :: name) rest

/-- The piece that starts with an ampersand, given the text after it. -/
def afterAmpersand : List Char → Piece × List Char
  | [] => plain ['&'] []
  | c :: rest =>
    if isNameStart c then
      afterName (c :: rest.takeWhile isNameChar) (rest.dropWhile isNameChar)
    else
      plain ['&'] (c :: rest)

/-- The inside of a literal, and the text from where it stops. A backslash takes the character after
it, unless the line or the script ends there. -/
def cutLiteral : List Char → List Char × List Char
  | [] => ([], [])
  | c :: rest =>
    if c = '"' ∨ c = '\n' then
      ([], c :: rest)
    else if c = '\\' then
      match rest with
      | [] => ([], [c])
      | d :: rest =>
        if d = '\n' then
          ([], c :: d :: rest)
        else
          let (text, rest) := cutLiteral rest
          (c :: d :: text, rest)
    else
      let (text, rest) := cutLiteral rest
      (c :: text, rest)

/-- The piece that starts with a quote, given the text after the quote. -/
def afterQuote (rest : List Char) : Piece × List Char :=
  match cutLiteral rest with
  | (inside, '"' :: rest) =>
    let text := '"' :: inside ++ ['"']
    whole (.literal text) text rest
  | (inside, rest) => flawed .openLiteral ('"' :: inside) rest

/-- The first piece of a text that starts with `c`, and what is left. -/
def next (c : Char) (rest : List Char) : Piece × List Char :=
  if isGap c then
    whole .blank (c :: rest.takeWhile isGap) (rest.dropWhile isGap)
  else if c = ';' then
    whole .semicolon [c] rest
  else if c = '/' then
    afterSlash rest
  else if c = '&' then
    afterAmpersand rest
  else if c = '"' then
    afterQuote rest
  else
    plain (c :: rest.takeWhile isPlain) (rest.dropWhile isPlain)

/-! ## A piece and the rest make up the text -/

theorem append_of_cutComment : ∀ {text comment rest : List Char},
    cutComment text = some (comment, rest) → comment ++ rest = text
  | [], _, _, h => by simp [cutComment] at h
  | c :: cs, comment, rest, h => by
    unfold cutComment at h
    split at h
    next rest' he =>
      obtain ⟨rfl, rfl⟩ := Prod.mk.inj (Option.some.inj h)
      simp [he]
    next c' cs' _ he =>
      obtain ⟨rfl, rfl⟩ := List.cons.inj he
      obtain ⟨⟨t, r⟩, ht, he⟩ := Option.map_eq_some_iff.1 h
      obtain ⟨rfl, rfl⟩ := Prod.mk.inj he
      simp [append_of_cutComment ht]
    next he => cases he

theorem cutLiteral_append (text : List Char) : (cutLiteral text).1 ++ (cutLiteral text).2 = text := by
  fun_induction cutLiteral text <;> simp_all

theorem afterSlash_append (rest : List Char) :
    (afterSlash rest).1.text ++ (afterSlash rest).2 = '/' :: rest := by
  unfold afterSlash
  split
  · simp [whole]
  · split
    next h => simp [whole, append_of_cutComment h]
    next => simp
  · simp [plain, whole]

theorem afterName_append (name rest : List Char) :
    (afterName name rest).1.text ++ (afterName name rest).2 = '&' :: name ++ rest := by
  unfold afterName
  split
  next rest =>
    have h := List.takeWhile_append_dropWhile (p := isArgumentChar) (l := rest)
    split
    next r hr => rw [hr] at h; simpa [whole] using h
    next => simp [flawed, h]
  next => simp [flawed]

theorem afterAmpersand_append (rest : List Char) :
    (afterAmpersand rest).1.text ++ (afterAmpersand rest).2 = '&' :: rest := by
  unfold afterAmpersand
  split
  · simp [plain, whole]
  · split
    · simp [afterName_append]
    · simp [plain, whole]

theorem afterQuote_append (rest : List Char) :
    (afterQuote rest).1.text ++ (afterQuote rest).2 = '"' :: rest := by
  have h := cutLiteral_append rest
  unfold afterQuote
  split
  next inside r hc => rw [hc] at h; simp [whole, ← h]
  next inside r _ hc => rw [hc] at h; simp [flawed, ← h]

/-- A piece and what is left make up the text. -/
theorem next_append (c : Char) (rest : List Char) :
    (next c rest).1.text ++ (next c rest).2 = c :: rest := by
  unfold next
  repeat' split
  · simp [whole]
  · simp [whole]
  next h => rw [afterSlash_append, h]
  next h => rw [afterAmpersand_append, h]
  next h => rw [afterQuote_append, h]
  · simp [plain, whole]

/-! ## A piece is not empty -/

theorem afterSlash_text_ne_nil (rest : List Char) : (afterSlash rest).1.text ≠ [] := by
  unfold afterSlash
  split
  · simp [whole]
  · split <;> simp [whole]
  · simp [plain, whole]

theorem afterName_text_ne_nil (name rest : List Char) : (afterName name rest).1.text ≠ [] := by
  unfold afterName
  split
  · dsimp only
    split <;> simp [whole, flawed]
  · simp [flawed]

theorem afterAmpersand_text_ne_nil (rest : List Char) : (afterAmpersand rest).1.text ≠ [] := by
  unfold afterAmpersand
  split
  · simp [plain, whole]
  · split
    · exact afterName_text_ne_nil _ _
    · simp [plain, whole]

theorem afterQuote_text_ne_nil (rest : List Char) : (afterQuote rest).1.text ≠ [] := by
  unfold afterQuote
  split <;> simp [whole, flawed]

/-- A piece has at least one character. -/
theorem next_text_ne_nil (c : Char) (rest : List Char) : (next c rest).1.text ≠ [] := by
  unfold next
  repeat' split
  · simp [whole]
  · simp [whole]
  · exact afterSlash_text_ne_nil rest
  · exact afterAmpersand_text_ne_nil rest
  · exact afterQuote_text_ne_nil rest
  · simp [plain, whole]

/-- What is left after a piece is shorter than the text. -/
theorem length_next_lt (c : Char) (rest : List Char) :
    (next c rest).2.length < (c :: rest).length := by
  have h := congrArg List.length (next_append c rest)
  have hp := List.length_pos_iff.2 (next_text_ne_nil c rest)
  rw [List.length_append] at h
  omega

/-! ## All pieces -/

/-- The pieces of a script. -/
def pieces : List Char → List Piece
  | [] => []
  | c :: rest => (next c rest).1 :: pieces (next c rest).2
termination_by text => text.length
decreasing_by exact length_next_lt c rest

/-- The pieces tile the script. -/
theorem flatten_pieces (text : List Char) : (pieces text).flatMap Piece.text = text := by
  fun_induction pieces text with
  | case1 => rfl
  | case2 c rest ih => rw [List.flatMap_cons, ih, next_append]

/-- A piece of a script has at least one character. -/
theorem text_ne_nil_of_mem_pieces {text : List Char} {p : Piece} (h : p ∈ pieces text) :
    p.text ≠ [] := by
  fun_induction pieces text with
  | case1 => cases h
  | case2 c rest ih =>
    rcases List.mem_cons.1 h with rfl | h
    · exact next_text_ne_nil c rest
    · exact ih h

/-! ## Tokens and errors -/

/-- A token with its place in the script. -/
structure Token where
  lexeme : Lexeme
  span : Span
deriving DecidableEq

/-- A flaw with its place in the script. -/
structure LexicalError where
  flaw : Flaw
  span : Span
deriving DecidableEq

/-- Pieces with the offsets at which they start, the first at `start`. -/
def place : Nat → List Piece → List (Nat × Piece)
  | _, [] => []
  | start, p :: ps => (start, p) :: place (start + Utf8.size p.text) ps

/-- The span of a piece that starts at an offset. -/
def Piece.span (p : Piece) (start : Nat) : Span := ⟨start, start + Utf8.size p.text⟩

/-- The place of a flaw in a piece: an open comment is reported at its opening `/*`, all else at the
whole piece. -/
def Piece.flawSpan (p : Piece) (start : Nat) : Flaw → Span
  | .openComment => ⟨start, start + 2⟩
  | _ => p.span start

/-- The tokens of a script. -/
def tokens (source : List Char) : List Token :=
  (place 0 (pieces source)).map fun (start, p) => ⟨p.lexeme, p.span start⟩

/-- The errors that scanning a script meets. -/
def lexicalErrors (source : List Char) : List LexicalError :=
  (place 0 (pieces source)).filterMap fun (start, p) =>
    p.flaw.map fun flaw => ⟨flaw, p.flawSpan start flaw⟩

/-- An error of the scan as a problem of the script. -/
def LexicalError.diagnostic (e : LexicalError) : Diagnostic := ⟨.error, e.span, e.flaw.message, none⟩

end TextAdventure.Script
