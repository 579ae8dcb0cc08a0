import TextAdventure.Proofs.Script.Reexpansion

/-!
# Tokens tile a script

The spans of the tokens of a script stand one right behind the other, from its first byte to its last
(`tiles_tokens`), whatever the script is: the loop leaves behind each piece exactly what it did not take,
also behind a piece that broke off and behind a comment that takes all there is. A token that repeats its
text repeats what stands at its span (`slice_of_mem_tokens`). For a directive that is because it spells
its token: a piece that breaks off is never a directive (`text_of_directive`).
-/

namespace TextAdventure.Script

/-- Spans that stand one right behind the other and fill the range from one offset to another. -/
inductive Tiles : Nat → List Span → Nat → Prop
  | nil (offset : Nat) : Tiles offset [] offset
  | cons {s : Span} {rest : List Span} {stop : Nat} (h : Tiles s.stop rest stop) :
    Tiles s.start (s :: rest) stop

/-- Pieces that stand one behind the other tile what they cover. -/
theorem tiles_place (start : Nat) (ps : List Piece) :
    Tiles start ((place start ps).map fun e => e.2.span e.1)
      (start + Utf8.size (ps.flatMap Piece.text)) := by
  induction ps generalizing start with
  | nil => exact .nil start
  | cons p ps ih =>
    have hrest := ih (start + Utf8.size p.text)
    rw [Nat.add_assoc, ← Utf8.size_append] at hrest
    exact .cons (s := p.span start) hrest

/-- The spans of the tokens fill the bytes of the script. -/
theorem tiles_tokens (source : List Char) :
    Tiles 0 ((tokens source).map Token.span) (Utf8.encode source).length := by
  have h := tiles_place 0 (pieces source)
  rw [flatten_pieces, Nat.zero_add, ← Utf8.length_encode] at h
  rw [tokens, List.map_map]
  exact h

/-! ## What stands at a span -/

/-- The text of a token that repeats it: that of a literal and of plain text, and the parts of a
directive with the signs around them. -/
def Lexeme.spelling? : Lexeme → Option (List Char)
  | .literal text => some text
  | .plain text => some text
  | .directive name arguments => some ('&' :: (name ++ '(' :: (arguments ++ [')'])))
  | .blank | .lineComment | .blockComment | .semicolon => none

/-- A directive is read from its sign, its name and its arguments in parentheses. One that breaks off is
plain text. -/
theorem text_of_directive {source name arguments : List Char} {p : Piece} (hp : p ∈ pieces source)
    (h : p.lexeme = .directive name arguments) :
    p.text = '&' :: (name ++ '(' :: (arguments ++ [')'])) := by
  obtain ⟨c, rest, rfl⟩ := Piece.isRead_of_mem_pieces hp
  by_cases hflaw : (next c rest).1.flaw = none
  · have hspelled := (fits_next c rest hflaw).spelled
    rw [h] at hspelled
    exact hspelled.text_directive
  · have hbroken := (breaksOff_next c rest hflaw).broken
    generalize (next c rest).1 = p at h hbroken
    cases hbroken with
    | comment | literal | name | arguments => cases h

/-- A token that repeats its text repeats the text of its piece. -/
theorem text_of_spelling? {source text : List Char} {p : Piece} (hp : p ∈ pieces source)
    (h : p.lexeme.spelling? = some text) : p.text = text := by
  cases hl : p.lexeme with
  | literal | plain =>
    rw [hl] at h
    exact ((sound_of_mem_pieces hp).text_eq (by rw [hl]; exact h)).symm
  | directive name arguments =>
    rw [hl] at h
    rw [text_of_directive hp hl]
    exact Option.some.inj h
  | blank | lineComment | blockComment | semicolon =>
    rw [hl] at h
    cases h

/-- The bytes at the span of a token are those of its spelling. -/
theorem slice_of_mem_tokens {source text : List Char} {t : Token} (ht : t ∈ tokens source)
    (h : t.lexeme.spelling? = some text) : t.span.slice source = Utf8.encode text := by
  obtain ⟨p, hp, hlexeme, hslice⟩ := Steps.exists_mem_right (forall₂_slice source) ht
  rw [hslice, text_of_spelling? hp (hlexeme ▸ h)]

/-! ## Scripts -/

/-- Tokens cover a text without gap and overlap, cut no character, and those that repeat their text have
it from their place. -/
structure TiledBy (source : List Char) (ts : List Token) : Prop where
  /-- The first token starts at the first byte, each next one where the one before it ends, and the
  last one ends at the last byte. -/
  tiles : Tiles 0 (ts.map Token.span) (Utf8.encode source).length
  /-- No token is empty, and each starts and ends between two characters. -/
  pointsInto : ∀ t ∈ ts, t.span.PointsInto source
  slice_eq : ∀ t ∈ ts, ∀ text, t.lexeme.spelling? = some text →
    t.span.slice source = Utf8.encode text

/-- The tokens of every script, well formed or not, tile it, and what is wrong with it is reported at a
place inside it. -/
theorem tokens_tile_source (source : List Char) : TiledBy source (tokens source) ∧
    ∀ e ∈ lexicalErrors source, e.span.PointsInto source where
  left :=
    { tiles := tiles_tokens source
      pointsInto := fun _ ht => pointsInto_of_mem_tokens ht
      slice_eq := fun _ ht _ h => slice_of_mem_tokens ht h }
  right := fun _ he => pointsInto_of_mem_lexicalErrors he

end TextAdventure.Script
