import TextAdventure.Proofs.Text.Boundary
import TextAdventure.Script.Token

/-!
# Where tokens stand

The pieces of a script tile it, so each has a text before it and a text behind it, and its offset is
the size of the text before it (`exists_around`). Hence the spans of tokens and errors are non-empty
ranges of bytes that cut no character (`pointsInto_of_mem_tokens`, `pointsInto_of_mem_lexicalErrors`),
the tokens stand one behind the other (`pairwise_tokens`), and the bytes at a token's span are those of
its piece (`forall₂_slice`).
-/

namespace TextAdventure.Script

/-- A span is a range of bytes of a text that is not empty and cuts no character. -/
structure Span.PointsInto (s : Span) (text : List Char) : Prop where
  start_lt_stop : s.start < s.stop
  stop_le_length : s.stop ≤ (Utf8.encode text).length
  boundary_start : Utf8.IsBoundary text s.start
  boundary_stop : Utf8.IsBoundary text s.stop

/-- One span ends before another starts. -/
def Span.Precedes (s t : Span) : Prop := s.stop ≤ t.start

/-- The bytes of a text at a span. -/
def Span.slice (s : Span) (text : List Char) : List UInt8 := Utf8.slice text s.start s.stop

namespace Span

/-- A text that is not empty has a span between what stands before and behind it. -/
theorem pointsInto_append (before after : List Char) {inside : List Char} (h : inside ≠ []) :
    PointsInto ⟨Utf8.size before, Utf8.size before + Utf8.size inside⟩
      (before ++ (inside ++ after)) where
  start_lt_stop := Nat.lt_add_of_pos_right (Utf8.size_pos h)
  stop_le_length := by
    rw [Utf8.length_encode, Utf8.size_append, Utf8.size_append, ← Nat.add_assoc]
    exact Nat.le_add_right _ _
  boundary_start := Utf8.isBoundary_size before (inside ++ after)
  boundary_stop := by
    have h := Utf8.isBoundary_size (before ++ inside) after
    rwa [List.append_assoc, Utf8.size_append] at h

/-- The range from one span to a later one. -/
theorem PointsInto.through {first last : Span} {text : List Char} (hfirst : first.PointsInto text)
    (hlast : last.PointsInto text) (h : first.start ≤ last.start) :
    (first.through last).PointsInto text where
  start_lt_stop := Nat.lt_of_le_of_lt h hlast.start_lt_stop
  stop_le_length := hlast.stop_le_length
  boundary_start := hfirst.boundary_start
  boundary_stop := hlast.boundary_stop

end Span

/-! ## Pieces in their place -/

/-- Pieces with places are the pieces. -/
theorem map_snd_place (start : Nat) (ps : List Piece) : (place start ps).map Prod.snd = ps := by
  induction ps generalizing start with
  | nil => rfl
  | cons p ps ih => rw [place, List.map_cons, ih]

/-- A placed piece stands behind the pieces before it. -/
theorem exists_of_mem_place {start offset : Nat} {ps : List Piece} {p : Piece}
    (h : (offset, p) ∈ place start ps) : ∃ front back, ps = front ++ p :: back ∧
      offset = start + Utf8.size (front.flatMap Piece.text) := by
  induction ps generalizing start with
  | nil => cases h
  | cons q ps ih =>
    rcases List.mem_cons.1 h with h | h
    · cases h
      exact ⟨[], ps, rfl, rfl⟩
    · obtain ⟨front, back, rfl, hoffset⟩ := ih h
      refine ⟨q :: front, back, rfl, ?_⟩
      rw [hoffset, List.flatMap_cons, Utf8.size_append, Nat.add_assoc]

/-- A piece of a script stands between a text of the size of its offset and the rest. -/
theorem exists_around {source : List Char} {offset : Nat} {p : Piece}
    (h : (offset, p) ∈ place 0 (pieces source)) :
    ∃ before after, source = before ++ (p.text ++ after) ∧ offset = Utf8.size before := by
  obtain ⟨front, back, hpieces, hoffset⟩ := exists_of_mem_place h
  refine ⟨front.flatMap Piece.text, back.flatMap Piece.text, ?_, by rw [hoffset, Nat.zero_add]⟩
  rw [← flatten_pieces source, hpieces, List.flatMap_append, List.flatMap_cons]

/-- A piece with a place is a piece. -/
theorem mem_pieces_of_mem_place {source : List Char} {offset : Nat} {p : Piece}
    (h : (offset, p) ∈ place 0 (pieces source)) : p ∈ pieces source := by
  rw [← map_snd_place 0 (pieces source)]
  exact List.mem_map_of_mem h

/-- The span of a piece of a script points into the script. -/
theorem Piece.pointsInto_span {source : List Char} {offset : Nat} {p : Piece}
    (h : (offset, p) ∈ place 0 (pieces source)) : (p.span offset).PointsInto source := by
  obtain ⟨before, after, rfl, rfl⟩ := exists_around h
  exact Span.pointsInto_append before after (text_ne_nil_of_mem_pieces (mem_pieces_of_mem_place h))

/-- Places do not lie before the first one. -/
theorem le_of_mem_place {start : Nat} {ps : List Piece} {e : Nat × Piece} (h : e ∈ place start ps) :
    start ≤ e.1 := by
  obtain ⟨front, back, _, hoffset⟩ := exists_of_mem_place (p := e.2) h
  rw [hoffset]
  exact Nat.le_add_right _ _

/-- Placed pieces stand one behind the other. -/
theorem pairwise_place (start : Nat) (ps : List Piece) :
    (place start ps).Pairwise fun d e => (d.2.span d.1).Precedes (e.2.span e.1) := by
  induction ps generalizing start with
  | nil => exact .nil
  | cons p ps ih =>
    refine .cons ?_ (ih _)
    intro e he
    exact le_of_mem_place he

/-! ## Tokens -/

/-- A token is a piece at its place. -/
theorem exists_of_mem_tokens {source : List Char} {t : Token} (h : t ∈ tokens source) :
    ∃ offset p, (offset, p) ∈ place 0 (pieces source) ∧ t = ⟨p.lexeme, p.span offset⟩ := by
  obtain ⟨⟨offset, p⟩, hp, rfl⟩ := List.mem_map.1 h
  exact ⟨offset, p, hp, rfl⟩

/-- The lexemes of tokens are those of the pieces. -/
theorem map_lexeme_tokens (source : List Char) :
    (tokens source).map Token.lexeme = (pieces source).map Piece.lexeme := by
  rw [tokens, List.map_map]
  conv => rhs; rw [← map_snd_place 0 (pieces source), List.map_map]
  rfl

/-- The span of a token points into the script. -/
theorem pointsInto_of_mem_tokens {source : List Char} {t : Token} (h : t ∈ tokens source) :
    t.span.PointsInto source := by
  obtain ⟨offset, p, hp, rfl⟩ := exists_of_mem_tokens h
  exact Piece.pointsInto_span hp

/-- Tokens stand one behind the other. -/
theorem pairwise_tokens (source : List Char) :
    (tokens source).Pairwise fun t u => t.span.Precedes u.span :=
  List.pairwise_map.2 (pairwise_place 0 (pieces source))

/-- The bytes of a script at the span of a token are those of its piece. -/
theorem forall₂_slice (source : List Char) :
    List.Forall₂ (fun t p => t.lexeme = p.lexeme ∧ t.span.slice source = Utf8.encode p.text)
      (tokens source) (pieces source) := by
  suffices h : List.Forall₂
      (fun t p => t.lexeme = p.lexeme ∧ t.span.slice source = Utf8.encode p.text)
      (tokens source) ((place 0 (pieces source)).map Prod.snd) by rwa [map_snd_place] at h
  rw [tokens, List.forall₂_map_left_iff, List.forall₂_map_right_iff, List.forall₂_same]
  rintro ⟨offset, p⟩ he
  obtain ⟨before, after, rfl, rfl⟩ := exists_around he
  exact ⟨rfl, Utf8.slice_append before p.text after⟩

/-! ## What a piece says about its text -/

/-- The text that a token brings into its statement. -/
def Lexeme.text? : Lexeme → Option (List Char)
  | .literal text => some text
  | .plain text => some text
  | .blank | .lineComment | .blockComment | .directive .. | .semicolon => none

/-- The lexeme and the flaw of a piece agree with its characters. -/
structure Piece.Sound (p : Piece) : Prop where
  text_eq : ∀ {text}, p.lexeme.text? = some text → text = p.text
  opening : p.flaw = some .openComment → ∃ inside, p.text = '/' :: '*' :: inside

/-- A piece without a flaw is sound if it has no text or its own. -/
theorem sound_whole {lexeme : Lexeme} {text : List Char} (rest : List Char)
    (h : lexeme.text? = none ∨ lexeme.text? = some text) : (whole lexeme text rest).1.Sound where
  text_eq {t} ht := by
    replace ht : lexeme.text? = some t := ht
    rcases h with h | h
    · rw [h] at ht
      cases ht
    · rw [h] at ht
      exact (Option.some.inj ht).symm
  opening hflaw := by cases hflaw

/-- A plain piece is sound. -/
theorem sound_plain (text rest : List Char) : (plain text rest).1.Sound :=
  sound_whole rest (.inr rfl)

/-- A piece with a flaw that is not an open comment is sound. -/
theorem sound_flawed {flaw : Flaw} (h : flaw ≠ .openComment) (text rest : List Char) :
    (flawed flaw text rest).1.Sound where
  text_eq htext := (Option.some.inj htext).symm
  opening hflaw := absurd (Option.some.inj hflaw) h

/-- What is read behind a slash is sound. -/
theorem sound_afterSlash (rest : List Char) : (afterSlash rest).1.Sound := by
  unfold afterSlash
  split
  · exact sound_whole _ (.inl rfl)
  · split
    · exact sound_whole _ (.inl rfl)
    · refine ⟨?_, fun _ => ⟨_, rfl⟩⟩
      intro text htext
      cases htext
  · exact sound_plain _ _

/-- What is read behind an ampersand is sound. -/
theorem sound_afterAmpersand (rest : List Char) : (afterAmpersand rest).1.Sound := by
  unfold afterAmpersand afterName
  split
  · exact sound_plain _ _
  · split
    · split
      · dsimp only
        split
        · exact sound_whole _ (.inl rfl)
        · exact sound_flawed (by simp) _ _
      · exact sound_flawed (by simp) _ _
    · exact sound_plain _ _

/-- What is read behind a quote is sound. -/
theorem sound_afterQuote (rest : List Char) : (afterQuote rest).1.Sound := by
  unfold afterQuote
  split
  · exact sound_whole _ (.inr rfl)
  · exact sound_flawed (by simp) _ _

/-- Each piece that is read is sound. -/
theorem sound_next (c : Char) (rest : List Char) : (next c rest).1.Sound := by
  unfold next
  repeat' split
  · exact sound_whole _ (.inl rfl)
  · exact sound_whole _ (.inl rfl)
  · exact sound_afterSlash rest
  · exact sound_afterAmpersand rest
  · exact sound_afterQuote rest
  · exact sound_plain _ _

/-- The pieces of a script are sound. -/
theorem sound_of_mem_pieces {source : List Char} {p : Piece} (h : p ∈ pieces source) : p.Sound := by
  fun_induction pieces source with
  | case1 => cases h
  | case2 c rest ih =>
    rcases List.mem_cons.1 h with rfl | h
    · exact sound_next c rest
    · exact ih h

/-- The text of a token is not empty. -/
theorem text?_ne_nil_of_mem_tokens {source : List Char} {t : Token} (h : t ∈ tokens source) :
    t.lexeme.text? ≠ some [] := by
  obtain ⟨offset, p, hp, rfl⟩ := exists_of_mem_tokens h
  have hmem := mem_pieces_of_mem_place hp
  intro htext
  exact text_ne_nil_of_mem_pieces hmem ((sound_of_mem_pieces hmem).text_eq htext).symm

/-! ## Errors -/

/-- An open comment is reported at its opening, which is part of it, and all else at the whole piece. -/
theorem pointsInto_of_mem_lexicalErrors {source : List Char} {e : LexicalError}
    (h : e ∈ lexicalErrors source) : e.span.PointsInto source := by
  obtain ⟨⟨offset, p⟩, hp, he⟩ := List.mem_filterMap.1 h
  obtain ⟨flaw, hflaw, rfl⟩ := Option.map_eq_some_iff.1 he
  cases flaw with
  | openComment =>
    obtain ⟨inside, htext⟩ := (sound_of_mem_pieces (mem_pieces_of_mem_place hp)).opening hflaw
    obtain ⟨before, after, hsource, rfl⟩ := exists_around hp
    rw [hsource, htext]
    exact Span.pointsInto_append before (inside ++ after) (List.cons_ne_nil '/' ['*'])
  | openLiteral => exact Piece.pointsInto_span hp
  | brokenDirective text => exact Piece.pointsInto_span hp

end TextAdventure.Script
