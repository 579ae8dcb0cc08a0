import TextAdventure.Proofs.Script.Place
import TextAdventure.Proofs.Text.Run

/-!
# Texts put side by side

A token without a flaw is a spelling of its lexeme, and the character behind it is one that the token
does not take in (`fits_next`). Before such a character a spelling is always read as that one token
(`next_of_spelled`). Pieces of which each is a spelling that ends before the next one are settled, and
these are the pieces that stay what they are wherever they stand: at the start of a longer text, or cut
off from what followed them (`pieces_append_of_settled`).

So only the last token before a seam can change, and of all tokens but plain text it is known how: a
blank takes in the blanks that follow, a line comment the rest of the line, and the others nothing
(`map_lexeme_pieces_append`).
-/

namespace TextAdventure.Script

open Text (RunEnds runEnds_nil runEnds_cons runEnds_of_false runEnds_dropWhile takeWhile_run
  dropWhile_run)

/-! ## Spellings -/

namespace Lexeme

/-- Whether a token takes in a character that stands right behind it. -/
def takes : Lexeme → Char → Bool
  | .blank, c => isGap c
  | .lineComment, c => c ≠ '\n'
  | .plain text, c =>
    if text = ['/'] then c = '/' || c = '*' else if text = ['&'] then isNameStart c else isPlain c
  | .blockComment, _ | .directive .., _ | .literal _, _ | .semicolon, _ => false

/-- The texts of the tokens without a flaw. A comment and a literal are cut off where they end. -/
inductive Spelled : Lexeme → List Char → Prop
  | blank {c : Char} {more : List Char} (hc : isGap c = true) (hmore : ∀ d ∈ more, isGap d = true) :
    Spelled .blank (c :: more)
  | lineComment {inside : List Char} (h : ∀ d ∈ inside, d ≠ '\n') :
    Spelled .lineComment ('/' :: '/' :: inside)
  | blockComment {inside : List Char} (h : cutComment inside = some (inside, [])) :
    Spelled .blockComment ('/' :: '*' :: inside)
  | directive {c : Char} {name arguments : List Char} (hc : isNameStart c = true)
    (hname : ∀ d ∈ name, isNameChar d = true) (harguments : ∀ d ∈ arguments, isArgumentChar d = true) :
    Spelled (.directive (c :: name) arguments) ('&' :: c :: (name ++ '(' :: (arguments ++ [')'])))
  | literal {inside : List Char} (h : cutLiteral (inside ++ ['"']) = (inside, ['"'])) :
    Spelled (.literal ('"' :: (inside ++ ['"']))) ('"' :: (inside ++ ['"']))
  | semicolon : Spelled .semicolon [';']
  | slash : Spelled (.plain ['/']) ['/']
  | ampersand : Spelled (.plain ['&']) ['&']
  | word {c : Char} {more : List Char} (hc : isPlain c = true) (hmore : ∀ d ∈ more, isPlain d = true) :
    Spelled (.plain (c :: more)) (c :: more)

/-- No token is spelled by nothing. -/
theorem Spelled.ne_nil {l : Lexeme} {text : List Char} (h : l.Spelled text) : text ≠ [] := by
  rintro rfl
  cases h

/-- A directive is spelled in one way. -/
theorem Spelled.text_directive {name arguments text : List Char}
    (h : (Lexeme.directive name arguments).Spelled text) :
    text = '&' :: (name ++ '(' :: (arguments ++ [')'])) := by
  cases h
  rfl

end Lexeme

/-- A comment is cut off at the same place, whatever stands behind it. The inside goes on with the
characters of the text, so no earlier end comes about. -/
theorem cutComment_append {text comment rest : List Char} (h : cutComment text = some (comment, rest))
    (other : List Char) : cutComment (comment ++ other) = some (comment, other) := by
  fun_induction cutComment text generalizing comment other with
  | case1 =>
    cases h
    rfl
  | case2 c text hc ih =>
    obtain ⟨⟨inside, rest'⟩, hinside, he⟩ := Option.map_eq_some_iff.1 h
    cases he
    have htext := append_of_cutComment hinside
    have hearly : ∀ tail, c = '*' → inside ++ other = '/' :: tail → False := by
      intro tail hstar hslash
      cases inside with
      | nil => cases ih hinside []
      | cons d inside =>
        cases hslash
        exact hc _ hstar htext.symm
    rw [List.cons_append, cutComment.eq_2 _ _ hearly, ih hinside]
    rfl
  | case3 => cases h

/-- A literal is cut off at the same quote, whatever stands behind it. -/
theorem cutLiteral_append_quote {text inside rest : List Char}
    (h : cutLiteral text = (inside, '"' :: rest)) (other : List Char) :
    cutLiteral (inside ++ '"' :: other) = (inside, '"' :: other) := by
  fun_induction cutLiteral text generalizing inside with
  | case1 => cases h
  | case2 =>
    cases h
    unfold cutLiteral
    simp
  | case3 => cases h
  | case4 => cases h
  | case5 d text hd inside' rest' hcut hc ih =>
    cases h
    unfold cutLiteral
    simp [hd, ih hcut]
  | case6 c text hend hc inside' rest' hcut ih =>
    cases h
    unfold cutLiteral
    simp [hend, hc, ih hcut]

/-- A word goes on with plain text. -/
theorem Lexeme.takes_word {c : Char} (h : isPlain c = true) (more : List Char) :
    (Lexeme.plain (c :: more)).takes = isPlain := by
  funext d
  have hslash : c :: more ≠ ['/'] := by
    rintro ⟨⟩
    cases h
  have hampersand : c :: more ≠ ['&'] := by
    rintro ⟨⟩
    cases h
  rw [takes, if_neg hslash, if_neg hampersand]

/-- A plain character is read with all plain ones that follow it. -/
theorem next_of_isPlain {c : Char} (h : isPlain c = true) (rest : List Char) :
    next c rest = plain (c :: rest.takeWhile isPlain) (rest.dropWhile isPlain) := by
  simp only [isPlain, Bool.and_eq_true, Bool.not_eq_true', decide_eq_true_eq, ne_eq] at h
  obtain ⟨⟨⟨⟨hgap, hsemicolon⟩, hquote⟩, hslash⟩, hampersand⟩ := h
  rw [next, if_neg (by simp [hgap]), if_neg hsemicolon, if_neg hslash, if_neg hampersand, if_neg hquote]

/-- Behind a slash that starts no comment the scan goes on. -/
theorem afterSlash_of_runEnds {rest : List Char} (h : RunEnds (Lexeme.plain ['/']).takes rest) :
    afterSlash rest = plain ['/'] rest := by
  unfold afterSlash
  split
  next => cases h '/' rfl
  next => cases h '*' rfl
  next => rfl

/-- Before a character that it does not take in, the text of a token is read as that token. -/
theorem next_of_spelled {l : Lexeme} {c : Char} {more rest : List Char} (h : l.Spelled (c :: more))
    (hrest : RunEnds l.takes rest) : next c (more ++ rest) = whole l (c :: more) rest := by
  cases h with
  | blank hc hmore => rw [next, if_pos hc, takeWhile_run hmore hrest, dropWhile_run hmore hrest]
  | @lineComment inside hinside =>
    have hnext : next '/' ('/' :: inside ++ rest) = afterSlash ('/' :: (inside ++ rest)) := rfl
    have hline : ∀ d ∈ inside, decide (d ≠ '\n') = true := fun d hd => decide_eq_true (hinside d hd)
    rw [hnext, afterSlash, takeWhile_run hline hrest, dropWhile_run hline hrest]
  | @blockComment inside hinside =>
    have hnext : next '/' ('*' :: inside ++ rest) = afterSlash ('*' :: (inside ++ rest)) := rfl
    rw [hnext, afterSlash, cutComment_append hinside]
  | @directive c name arguments hc hname harguments =>
    have hnext : next '&' (c :: (name ++ '(' :: (arguments ++ [')'])) ++ rest) =
        afterAmpersand (c :: (name ++ '(' :: (arguments ++ ')' :: rest))) := by
      simp [next, isGap]
    have hopen : RunEnds isNameChar ('(' :: (arguments ++ ')' :: rest)) := runEnds_cons rfl _
    have hclose : RunEnds isArgumentChar (')' :: rest) := runEnds_cons rfl _
    rw [hnext, afterAmpersand, if_pos hc, takeWhile_run hname hopen, dropWhile_run hname hopen,
      afterName, takeWhile_run harguments hclose, dropWhile_run harguments hclose]
    simp
  | @literal inside hinside =>
    have hnext : next '"' (inside ++ ['"'] ++ rest) = afterQuote (inside ++ '"' :: rest) := by
      simp [next, isGap]
    rw [hnext, afterQuote, cutLiteral_append_quote hinside]
    rfl
  | semicolon => rfl
  | slash => exact afterSlash_of_runEnds hrest
  | ampersand =>
    cases rest with
    | nil => rfl
    | cons d rest =>
      have hd : isNameStart d = false := hrest d rfl
      simp [next, isGap, afterAmpersand, hd, plain]
  | word hc hmore =>
    rw [Lexeme.takes_word hc] at hrest
    rw [next_of_isPlain hc, takeWhile_run hmore hrest, dropWhile_run hmore hrest]
    rfl

/-! ## Pieces that fit -/

/-- A piece without a flaw is spelled as its lexeme asks, and ends before a text that it does not take
in. -/
structure Piece.Fits (p : Piece) (rest : List Char) : Prop where
  flawless : p.flaw = none
  spelled : p.lexeme.Spelled p.text
  ends : RunEnds p.lexeme.takes rest

/-- A piece fits if its text spells its lexeme and what follows does not go on with it. -/
theorem fits_whole {l : Lexeme} {text rest : List Char} (hspelled : l.Spelled text)
    (hends : RunEnds l.takes rest) : (whole l text rest).1.Fits (whole l text rest).2 :=
  ⟨rfl, hspelled, hends⟩

/-- What is read behind a slash without a flaw fits. -/
theorem fits_afterSlash (rest : List Char) : (afterSlash rest).1.flaw = none →
    (afterSlash rest).1.Fits (afterSlash rest).2 := by
  unfold afterSlash
  split
  next rest =>
    intro _
    refine fits_whole (.lineComment ?_) (runEnds_dropWhile _ rest)
    intro d hd
    simpa using List.mem_takeWhile_imp hd
  next rest =>
    split
    next inside rest' hcut =>
      intro _
      have hself := cutComment_append hcut []
      rw [List.append_nil] at hself
      exact fits_whole (.blockComment hself) (runEnds_of_false (fun _ => rfl) rest')
    next =>
      intro h
      cases h
  next hslash hstar =>
    intro _
    refine fits_whole .slash ?_
    intro c hc
    obtain ⟨more, rfl⟩ := List.head?_eq_some_iff.1 hc
    have hslash' : c ≠ '/' := by
      rintro rfl
      exact hslash more rfl
    have hstar' : c ≠ '*' := by
      rintro rfl
      exact hstar more rfl
    simp [Lexeme.takes, hslash', hstar']

/-- What is read behind the name of a directive without a flaw fits. -/
theorem fits_afterName {c : Char} {name : List Char} (hc : isNameStart c = true)
    (hname : ∀ d ∈ name, isNameChar d = true) (rest : List Char) :
    (afterName (c :: name) rest).1.flaw = none →
      (afterName (c :: name) rest).1.Fits (afterName (c :: name) rest).2 := by
  unfold afterName
  split
  next rest =>
    dsimp only
    split
    next rest' hrest =>
      intro _
      have harguments : ∀ d ∈ rest.takeWhile isArgumentChar, isArgumentChar d = true :=
        fun d hd => List.mem_takeWhile_imp hd
      refine fits_whole ?_ (runEnds_of_false (fun _ => rfl) rest')
      simpa using Lexeme.Spelled.directive hc hname harguments
    next =>
      intro h
      cases h
  next =>
    intro h
    cases h

/-- What is read behind an ampersand without a flaw fits. -/
theorem fits_afterAmpersand (rest : List Char) : (afterAmpersand rest).1.flaw = none →
    (afterAmpersand rest).1.Fits (afterAmpersand rest).2 := by
  cases rest with
  | nil =>
    intro _
    exact fits_whole .ampersand (runEnds_nil _)
  | cons c rest =>
    rw [afterAmpersand]
    split
    next hc => exact fits_afterName hc (fun d hd => List.mem_takeWhile_imp hd) _
    next hc =>
      intro _
      exact fits_whole .ampersand (runEnds_cons (by simpa [Lexeme.takes] using hc) rest)

/-- What is read behind a quote without a flaw fits. -/
theorem fits_afterQuote (rest : List Char) : (afterQuote rest).1.flaw = none →
    (afterQuote rest).1.Fits (afterQuote rest).2 := by
  unfold afterQuote
  split
  next inside rest' hcut =>
    intro _
    exact fits_whole (.literal (cutLiteral_append_quote hcut []))
      (runEnds_of_false (fun _ => rfl) rest')
  next =>
    intro h
    cases h

/-- A piece without a flaw fits what is left. -/
theorem fits_next (c : Char) (rest : List Char) : (next c rest).1.flaw = none →
    (next c rest).1.Fits (next c rest).2 := by
  unfold next
  repeat' split
  next hgap =>
    intro _
    exact fits_whole (.blank hgap fun d hd => List.mem_takeWhile_imp hd) (runEnds_dropWhile isGap rest)
  next hsemicolon =>
    intro _
    rw [hsemicolon]
    exact fits_whole .semicolon (runEnds_of_false (fun _ => rfl) rest)
  · exact fits_afterSlash rest
  · exact fits_afterAmpersand rest
  · exact fits_afterQuote rest
  next hgap hsemicolon hslash hampersand hquote =>
    intro _
    have hc : isPlain c = true := by simp [isPlain, hgap, hsemicolon, hslash, hampersand, hquote]
    refine fits_whole (.word hc fun d hd => List.mem_takeWhile_imp hd) ?_
    rw [Lexeme.takes_word hc]
    exact runEnds_dropWhile isPlain rest

/-! ## Settled pieces -/

/-- Pieces of which each fits what follows it, the last before a given text. -/
def Settled : List Piece → List Char → Prop
  | [], _ => True
  | p :: ps, rest => p.Fits (ps.flatMap Piece.text ++ rest) ∧ Settled ps rest

/-- Pieces are settled if those in front are settled before the others, and those are settled. -/
theorem settled_append {ps qs : List Piece} {rest : List Char} :
    Settled (ps ++ qs) rest ↔ Settled ps (qs.flatMap Piece.text ++ rest) ∧ Settled qs rest := by
  induction ps with
  | nil => simp [Settled]
  | cons p ps ih => simp [Settled, ih, and_assoc]

/-- What follows settled pieces does not go on with the last of them. -/
theorem Settled.ends {ps : List Piece} {rest : List Char} (h : Settled ps rest) {p : Piece}
    (hp : ps.getLast? = some p) : RunEnds p.lexeme.takes rest := by
  obtain ⟨front, rfl⟩ := List.getLast?_eq_some_iff.1 hp
  exact (settled_append.1 h).2.1.ends

/-- For settled pieces only the first character of what follows matters, if there is one. -/
theorem Settled.of_head? {ps : List Piece} {rest other : List Char} (h : Settled ps rest)
    (hother : ∀ c ∈ other.head?, c ∈ rest.head?) : Settled ps other := by
  induction ps with
  | nil => trivial
  | cons p ps ih =>
    obtain ⟨hp, hps⟩ := h
    refine ⟨⟨hp.flawless, hp.spelled, ?_⟩, ih hps⟩
    intro c hc
    refine hp.ends c ?_
    rw [List.head?_append] at hc ⊢
    cases hhead : (ps.flatMap Piece.text).head? with
    | none =>
      rw [hhead] at hc
      exact hother c hc
    | some d =>
      rw [hhead] at hc
      exact hc

/-- The pieces without flaws at the start of a text are settled before the rest of it. -/
theorem settled_of_pieces {source : List Char} {front back : List Piece}
    (h : pieces source = front ++ back) (hfront : ∀ p ∈ front, p.flaw = none) :
    Settled front (back.flatMap Piece.text) := by
  induction front generalizing source with
  | nil => trivial
  | cons p front ih =>
    obtain ⟨hp, hmore⟩ := List.forall_mem_cons.1 hfront
    cases source with
    | nil => simp [pieces] at h
    | cons c rest =>
      rw [pieces, List.cons_append, List.cons.injEq] at h
      obtain ⟨rfl, h⟩ := h
      have hrest := flatten_pieces (next c rest).2
      rw [h, List.flatMap_append] at hrest
      refine ⟨?_, ih h hmore⟩
      rw [hrest]
      exact fits_next c rest hp

/-- Settled pieces are the ones that are read from their text. -/
theorem pieces_append_of_settled {ps : List Piece} {rest : List Char} (h : Settled ps rest) :
    pieces (ps.flatMap Piece.text ++ rest) = ps ++ pieces rest := by
  induction ps with
  | nil => rfl
  | cons p ps ih =>
    obtain ⟨⟨hflaw, hspelled, hends⟩, hps⟩ := h
    obtain ⟨l, text, flaw⟩ := p
    obtain ⟨c, more, rfl⟩ := List.exists_cons_of_ne_nil hspelled.ne_nil
    cases hflaw
    have hnext := next_of_spelled hspelled hends
    rw [List.flatMap_cons, List.append_assoc, List.cons_append, pieces, hnext]
    exact congrArg _ (ih hps)

/-- The pieces without flaws at the start of a text are those of that start alone. -/
theorem pieces_flatMap_text {source : List Char} {front back : List Piece}
    (h : pieces source = front ++ back) (hfront : ∀ p ∈ front, p.flaw = none) :
    pieces (front.flatMap Piece.text) = front := by
  have hsettled : Settled front [] := by
    refine (settled_of_pieces h hfront).of_head? ?_
    intro c hc
    cases hc
  simpa [pieces] using pieces_append_of_settled hsettled

/-! ## The seam -/

/-- A token that is not plain text is still one with characters that it takes in. -/
theorem Lexeme.Spelled.append {l : Lexeme} {text : List Char} (h : l.Spelled text)
    (hl : ∀ text, l ≠ .plain text) {more : List Char} (hmore : ∀ c ∈ more, l.takes c = true) :
    l.Spelled (text ++ more) := by
  have hnone (hfalse : ∀ c, l.takes c = false) : l.Spelled (text ++ more) := by
    have hnil : more = [] := by
      refine List.eq_nil_iff_forall_not_mem.2 ?_
      intro c hc
      exact Bool.false_ne_true ((hfalse c).symm.trans (hmore c hc))
    rwa [hnil, List.append_nil]
  cases h with
  | blank hc hfirst => exact .blank hc (List.forall_mem_append.2 ⟨hfirst, hmore⟩)
  | lineComment hinside =>
    refine .lineComment (List.forall_mem_append.2 ⟨hinside, ?_⟩)
    intro c hc
    exact of_decide_eq_true (hmore c hc)
  | blockComment | directive | literal | semicolon => exact hnone fun _ => rfl
  | slash | ampersand | word => exact absurd rfl (hl _)

/-- A piece that goes on. -/
def Piece.extend (p : Piece) (more : List Char) : Piece := { p with text := p.text ++ more }

/-- A piece that takes in what goes on with it fits before the rest. -/
theorem Piece.Fits.extend {p : Piece} {rest : List Char} (h : p.Fits rest)
    (hplain : ∀ text, p.lexeme ≠ .plain text) (other : List Char) :
    (p.extend (other.takeWhile p.lexeme.takes)).Fits (other.dropWhile p.lexeme.takes) where
  flawless := h.flawless
  spelled := h.spelled.append hplain fun _ hc => List.mem_takeWhile_imp hc
  ends := runEnds_dropWhile _ other

/-- Of the tokens of a text only the last one goes on into a text behind it. The last one starts as
before, and the others see no more of it than that. -/
theorem map_lexeme_pieces_append {text : List Char} (hflaw : ∀ p ∈ pieces text, p.flaw = none)
    {p : Piece} (hlast : (pieces text).getLast? = some p) (hplain : ∀ text, p.lexeme ≠ .plain text)
    (other : List Char) : (pieces (text ++ other)).map Piece.lexeme =
      (pieces text).map Piece.lexeme ++ (pieces (other.dropWhile p.lexeme.takes)).map Piece.lexeme := by
  obtain ⟨front, hfront⟩ := List.getLast?_eq_some_iff.1 hlast
  rw [hfront] at hflaw
  have hsettled := settled_of_pieces (hfront.trans (List.append_nil _).symm) hflaw
  obtain ⟨hbefore, hp, _⟩ := settled_append.1 hsettled
  have hseam : Settled (front ++ [p.extend (other.takeWhile p.lexeme.takes)])
      (other.dropWhile p.lexeme.takes) := by
    refine settled_append.2 ⟨hbefore.of_head? ?_, hp.extend hplain other, trivial⟩
    obtain ⟨c, more, hc⟩ := List.exists_cons_of_ne_nil hp.spelled.ne_nil
    simp [Piece.extend, hc]
  have htext : text ++ other =
      (front ++ [p.extend (other.takeWhile p.lexeme.takes)]).flatMap Piece.text ++
        other.dropWhile p.lexeme.takes := by
    have hflatten := flatten_pieces text
    rw [hfront] at hflatten
    rw [← hflatten]
    simp [Piece.extend]
  rw [htext, pieces_append_of_settled hseam, hfront]
  simp [Piece.extend]

end TextAdventure.Script
