import TextAdventure.Proofs.Script.Place
import TextAdventure.Script.Statement

/-!
# Statements as sentences

The tokens between two semicolons are a sentence. Its words are the texts that stand between blanks,
comments and directives, and a sentence that has words is a statement: its text is the words with one
space between them, and its span goes from the first token with a text to the last one
(`statements_eq`). The texts of all statements depend on the lexemes alone (`map_text_statements`).

A draft holds the words of the part of a sentence that has been read. The induction is on the tokens
that are still to come, for any draft; the first of their words goes on with the last word of the
draft unless a gap stands between them.
-/

namespace TextAdventure.Script

/-! ## Words -/

/-- Whether a token ends a statement. -/
def Lexeme.isSemicolon (l : Lexeme) : Bool := l = .semicolon

/-- Whether a token is a directive. -/
def Lexeme.isDirective : Lexeme → Bool
  | .directive .. => true
  | .blank | .lineComment | .blockComment | .literal _ | .semicolon | .plain _ => false

/-- The characters that a token brings into its statement. -/
def Lexeme.chars (l : Lexeme) : List Char := l.text?.getD []

/-- What stands between the tokens without a text; it is empty where two of them stand side by side. -/
def stretches (ls : List Lexeme) : List (List Char) :=
  (ls.splitOnP (·.text?.isNone)).map (·.flatMap Lexeme.chars)

/-- The words of a sentence. -/
def wordsOf (ls : List Lexeme) : List (List Char) := (stretches ls).filter (!·.isEmpty)

/-- The text of a sentence: its words with one space between them. -/
def phrase (ls : List Lexeme) : List Char := [' '].intercalate (wordsOf ls)

/-- There is at least one stretch. -/
theorem exists_stretches (ls : List Lexeme) : ∃ word more, stretches ls = word :: more := by
  refine List.exists_cons_of_ne_nil ?_
  intro h
  exact List.splitOnP_ne_nil _ ls (List.map_eq_nil_iff.1 h)

/-- A token without a text parts two stretches. -/
theorem stretches_cons_of_none {l : Lexeme} (h : l.text? = none) (ls : List Lexeme) :
    stretches (l :: ls) = [] :: stretches ls := by
  simp [stretches, List.splitOnP_cons_eq_if_modifyHead, h]

/-- A text goes on with the stretch behind it. -/
theorem stretches_cons_of_some {l : Lexeme} {text : List Char} (h : l.text? = some text)
    {ls : List Lexeme} {word : List Char} {more : List (List Char)}
    (hls : stretches ls = word :: more) : stretches (l :: ls) = (text ++ word) :: more := by
  obtain ⟨first, rest, hsplit⟩ :=
    List.exists_cons_of_ne_nil (List.splitOnP_ne_nil (fun l : Lexeme => l.text?.isNone) ls)
  simp only [stretches, hsplit, List.map_cons, List.cons.injEq] at hls
  simp [stretches, List.splitOnP_cons_eq_if_modifyHead, h, hsplit, Lexeme.chars, hls]

/-- A token without a text belongs to no word. -/
theorem wordsOf_cons_of_none {l : Lexeme} (h : l.text? = none) (ls : List Lexeme) :
    wordsOf (l :: ls) = wordsOf ls := by
  rw [wordsOf, stretches_cons_of_none h]
  rfl

/-- A text goes on with the word behind it, if there is one. -/
theorem wordsOf_cons_of_some {l : Lexeme} {text : List Char} (h : l.text? = some text)
    (hne : l.text? ≠ some []) {ls : List Lexeme} {word : List Char} {more : List (List Char)}
    (hls : stretches ls = word :: more) :
    wordsOf (l :: ls) = (text ++ word) :: more.filter (!·.isEmpty) := by
  have htext : text ≠ [] := by
    rintro rfl
    exact hne h
  rw [wordsOf, stretches_cons_of_some h hls]
  exact List.filter_cons_of_pos (by simp [htext])

/-- The text of words that follow another word. -/
def spaced (words : List (List Char)) : List Char := words.flatMap (' ' :: ·)

/-- Words with spaces between them are the first word and the others, each behind a space. -/
theorem intercalate_cons (word : List Char) (words : List (List Char)) :
    [' '].intercalate (word :: words) = word ++ spaced words := by
  induction words generalizing word with
  | nil => simp [spaced]
  | cons next words ih => simp [List.intercalate_cons_cons, ih, spaced]

/-! ## Spans -/

/-- The span from the first to the last of spans. -/
def extent : List Span → Option Span
  | [] => none
  | first :: rest => some (first.through (rest.getLastD first))

/-- The spans of the tokens that have a text. -/
def textSpans (ts : List Token) : List Span :=
  (ts.filter (·.lexeme.text?.isSome)).map Token.span

/-- A token without a text adds no span. -/
theorem textSpans_cons_of_none {t : Token} (h : t.lexeme.text? = none) (ts : List Token) :
    textSpans (t :: ts) = textSpans ts := by
  rw [textSpans, List.filter_cons_of_neg (by simp [h])]
  rfl

/-- A token with a text adds its span. -/
theorem textSpans_cons_of_some {t : Token} {text : List Char} (h : t.lexeme.text? = some text)
    (ts : List Token) : textSpans (t :: ts) = t.span :: textSpans ts := by
  rw [textSpans, List.filter_cons_of_pos (by simp [h])]
  rfl

/-! ## Drafts -/

namespace Draft

/-- The draft after a token that ends no statement. -/
def take (d : Draft) (t : Token) : Draft :=
  match t.lexeme.text? with
  | some text => d.add text t.span
  | none => d.pause

/-- A draft takes in the text of a token. -/
theorem take_of_some {t : Token} {text : List Char} (h : t.lexeme.text? = some text) (d : Draft) :
    d.take t = d.add text t.span := by
  rw [take, h]

/-- A draft takes a token without a text for a pause. -/
theorem take_of_none {t : Token} (h : t.lexeme.text? = none) (d : Draft) : d.take t = d.pause := by
  rw [take, h]

/-- Behind a text, more words follow; the first of them belongs to the last word so far, unless there
is a gap. -/
theorem text_foldl_of_ne_nil {d : Draft} (hd : d.text ≠ []) {ts : List Token}
    (h : ∀ t ∈ ts, t.lexeme.text? ≠ some []) {word : List Char} {more : List (List Char)}
    (hts : stretches (ts.map Token.lexeme) = word :: more) :
    (ts.foldl take d).text = d.text ++ (if d.gap then spaced ((word :: more).filter (!·.isEmpty))
      else word ++ spaced (more.filter (!·.isEmpty))) := by
  induction ts generalizing d word more with
  | nil =>
    cases hts
    simp [spaced]
  | cons t ts ih =>
    obtain ⟨ht, hts'⟩ := List.forall_mem_cons.1 h
    obtain ⟨next, rest, hnext⟩ := exists_stretches (ts.map Token.lexeme)
    rw [List.foldl_cons]
    rw [List.map_cons] at hts
    cases htext : t.lexeme.text? with
    | none =>
      rw [stretches_cons_of_none htext, hnext] at hts
      cases hts
      have hpause := ih (d := d.pause) hd hts' hnext
      rw [take_of_none htext, hpause]
      simp [pause]
    | some text =>
      rw [stretches_cons_of_some htext hnext] at hts
      cases hts
      have htext' : text ≠ [] := by
        rintro rfl
        exact ht htext
      rw [take_of_some htext, ih (by simp [add, htext']) hts' hnext]
      cases hgap : d.gap <;> simp [add, hgap, hd, htext', spaced]

/-- The text of a sentence that is read from its start. -/
theorem text_foldl {d : Draft} (hd : d.text = []) {ts : List Token}
    (h : ∀ t ∈ ts, t.lexeme.text? ≠ some []) :
    (ts.foldl take d).text = phrase (ts.map Token.lexeme) := by
  induction ts generalizing d with
  | nil => exact hd
  | cons t ts ih =>
    obtain ⟨ht, hts⟩ := List.forall_mem_cons.1 h
    rw [List.foldl_cons, List.map_cons]
    cases htext : t.lexeme.text? with
    | none =>
      rw [take_of_none htext, ih (d := d.pause) hd hts, phrase, phrase, wordsOf_cons_of_none htext]
    | some text =>
      have hadd : (d.add text t.span).text = text := by simp [add, hd]
      have hne : (d.add text t.span).text ≠ [] := by
        intro hnil
        exact ht (htext.trans (congrArg some (hadd.symm.trans hnil)))
      obtain ⟨next, rest, hnext⟩ := exists_stretches (ts.map Token.lexeme)
      rw [take_of_some htext, text_foldl_of_ne_nil hne hts hnext, hadd, phrase,
        wordsOf_cons_of_some htext ht hnext, intercalate_cons, List.append_assoc]
      rfl

/-- The span of a draft goes on to the last text that follows. Where its own span ended does not
matter once another one follows. -/
theorem span_foldl_of_some {d : Draft} {first : Span} (hd : d.span = some first) (ts : List Token) :
    (ts.foldl take d).span = some (first.through ((textSpans ts).getLastD first)) := by
  induction ts generalizing d first with
  | nil => exact hd
  | cons t ts ih =>
    rw [List.foldl_cons]
    cases htext : t.lexeme.text? with
    | none => rw [take_of_none htext, ih (d := d.pause) hd, textSpans_cons_of_none htext]
    | some text =>
      have hadd : (d.add text t.span).span = some (first.through t.span) := by simp [add, hd]
      rw [take_of_some htext, ih hadd, textSpans_cons_of_some htext]
      cases textSpans ts with
      | nil => rfl
      | cons _ _ => rfl

/-- The span of a new draft goes from the first text to the last one. -/
theorem span_foldl {d : Draft} (hd : d.span = none) (ts : List Token) :
    (ts.foldl take d).span = extent (textSpans ts) := by
  induction ts generalizing d with
  | nil => exact hd
  | cons t ts ih =>
    rw [List.foldl_cons]
    cases htext : t.lexeme.text? with
    | none => rw [take_of_none htext, ih (d := d.pause) hd, textSpans_cons_of_none htext]
    | some text =>
      have hadd : (d.add text t.span).span = some t.span := by simp [add, hd]
      rw [take_of_some htext, span_foldl_of_some hadd, textSpans_cons_of_some htext]
      rfl

end Draft

/-! ## Sentences -/

/-- The tokens between the semicolons. -/
def sentences (ts : List Token) : List (List Token) := ts.splitOnP (·.lexeme.isSemicolon)

/-- The statement that a sentence makes, if it has a text. -/
def statement? (sentence : List Token) : Option Statement :=
  (extent (textSpans sentence)).map (⟨phrase (sentence.map Token.lexeme), ·⟩)

/-- Reading a sentence from its start gives its statement. -/
theorem finish_foldl {ts : List Token} (h : ∀ t ∈ ts, t.lexeme.text? ≠ some []) :
    (ts.foldl Draft.take .empty).finish = (statement? ts).toList := by
  rw [Draft.finish, Draft.span_foldl rfl, Draft.text_foldl rfl h, statement?]
  cases extent (textSpans ts) with
  | none => rfl
  | some span => rfl

/-- A semicolon ends the draft and starts a new one. -/
theorem assemble_cons_of_semicolon {t : Token} (h : t.lexeme.isSemicolon = true) (d : Draft)
    (ts : List Token) : assemble d (t :: ts) = d.finish ++ assemble .empty ts := by
  rw [assemble, of_decide_eq_true h]

/-- Any other token goes into the draft. -/
theorem assemble_cons {t : Token} (h : t.lexeme.isSemicolon = false) (d : Draft) (ts : List Token) :
    assemble d (t :: ts) = assemble (d.take t) ts := by
  obtain ⟨lexeme, span⟩ := t
  cases lexeme with
  | semicolon => cases h
  | _ => rfl

/-- A draft goes on with the first sentence, and the others are read from their starts. -/
theorem exists_sentences (d : Draft) (ts : List Token) : ∃ first rest,
    sentences ts = first :: rest ∧ assemble d ts = (first.foldl Draft.take d).finish ++
      rest.flatMap fun sentence => (sentence.foldl Draft.take .empty).finish := by
  induction ts generalizing d with
  | nil => exact ⟨[], [], rfl, (List.append_nil _).symm⟩
  | cons t ts ih =>
    rw [sentences, List.splitOnP_cons_eq_if_modifyHead]
    cases ht : t.lexeme.isSemicolon with
    | true =>
      obtain ⟨first, rest, hts, hassemble⟩ := ih .empty
      refine ⟨[], first :: rest, congrArg ([] :: ·) hts, ?_⟩
      rw [assemble_cons_of_semicolon ht, hassemble, List.flatMap_cons]
      rfl
    | false =>
      obtain ⟨first, rest, hts, hassemble⟩ := ih (d.take t)
      refine ⟨t :: first, rest, ?_, ?_⟩
      · rw [if_neg Bool.false_ne_true, show ts.splitOnP (·.lexeme.isSemicolon) = first :: rest from hts]
        rfl
      · rw [assemble_cons ht, hassemble]
        rfl

/-- The sentences hold all tokens but the semicolons. -/
theorem flatten_sentences (ts : List Token) :
    (sentences ts).flatten = ts.filter (!·.lexeme.isSemicolon) := by
  induction ts with
  | nil => rfl
  | cons t ts ih =>
    rw [sentences, List.splitOnP_cons_eq_if_modifyHead]
    cases ht : t.lexeme.isSemicolon with
    | true =>
      rw [List.filter_cons_of_neg (by simp [ht])]
      exact ih
    | false =>
      obtain ⟨first, rest, hts⟩ :=
        List.exists_cons_of_ne_nil (List.splitOnP_ne_nil (fun t : Token => t.lexeme.isSemicolon) ts)
      rw [sentences, hts] at ih
      rw [List.filter_cons_of_pos (by simp [ht]), ← ih, hts]
      rfl

/-- Sentences hold tokens of the script, in order. -/
theorem flatten_sentences_sublist (ts : List Token) : (sentences ts).flatten.Sublist ts := by
  rw [flatten_sentences]
  exact List.filter_sublist

/-- A token of a sentence is a token of the script. -/
theorem mem_of_mem_sentences {ts sentence : List Token} (h : sentence ∈ sentences ts) {t : Token}
    (ht : t ∈ sentence) : t ∈ ts :=
  (flatten_sentences_sublist ts).subset (List.mem_flatten.2 ⟨sentence, h, ht⟩)

/-- What is assembled are the statements of the sentences, those without words left out. -/
theorem assemble_eq {ts : List Token} (h : ∀ t ∈ ts, t.lexeme.text? ≠ some []) :
    assemble .empty ts = (sentences ts).filterMap statement? := by
  obtain ⟨first, rest, hts, hassemble⟩ := exists_sentences .empty ts
  have hfinish : ∀ sentence ∈ sentences ts,
      (sentence.foldl Draft.take .empty).finish = (statement? sentence).toList := by
    intro sentence hmem
    exact finish_foldl fun t ht => h t (mem_of_mem_sentences hmem ht)
  calc assemble .empty ts
      = (sentences ts).flatMap fun sentence => (sentence.foldl Draft.take .empty).finish := by
        rw [hassemble, hts, List.flatMap_cons]
    _ = (sentences ts).flatMap fun sentence => (statement? sentence).toList :=
        List.flatMap_congr hfinish
    _ = (sentences ts).filterMap statement? := (List.filterMap_eq_flatMap_toList _ _).symm

/-- The statements of a script are those that its sentences make. -/
theorem statements_eq (source : List Char) :
    statements source = (sentences (tokens source)).filterMap statement? :=
  assemble_eq fun _ ht => text?_ne_nil_of_mem_tokens ht

/-! ## Texts of statements -/

/-- The text of the statement that a sentence makes, if it has words. -/
def wording? (ls : List Lexeme) : Option (List Char) :=
  if wordsOf ls = [] then none else some (phrase ls)

/-- The texts of the statements that tokens make. -/
def wordings (ls : List Lexeme) : List (List Char) :=
  (ls.splitOnP Lexeme.isSemicolon).filterMap wording?

/-- A sentence has words if one of its tokens has a text. -/
theorem wordsOf_eq_nil_iff {ts : List Token} (h : ∀ t ∈ ts, t.lexeme.text? ≠ some []) :
    wordsOf (ts.map Token.lexeme) = [] ↔ textSpans ts = [] := by
  induction ts with
  | nil => exact ⟨fun _ => rfl, fun _ => rfl⟩
  | cons t ts ih =>
    obtain ⟨ht, hts⟩ := List.forall_mem_cons.1 h
    rw [List.map_cons]
    cases htext : t.lexeme.text? with
    | none => rw [textSpans_cons_of_none htext, wordsOf_cons_of_none htext, ih hts]
    | some text =>
      obtain ⟨next, rest, hnext⟩ := exists_stretches (ts.map Token.lexeme)
      rw [textSpans_cons_of_some htext, wordsOf_cons_of_some htext ht hnext]
      simp

/-- The text of a statement depends on the lexemes of its sentence alone. -/
theorem map_text_statement? {ts : List Token} (h : ∀ t ∈ ts, t.lexeme.text? ≠ some []) :
    (statement? ts).map Statement.text = wording? (ts.map Token.lexeme) := by
  have hnil := wordsOf_eq_nil_iff h
  rw [wording?, statement?]
  cases hspans : textSpans ts with
  | nil =>
    rw [if_pos (hnil.2 hspans)]
    rfl
  | cons first rest =>
    have hwords : wordsOf (ts.map Token.lexeme) ≠ [] := by
      intro hwords
      rw [hnil.1 hwords] at hspans
      cases hspans
    rw [if_neg hwords]
    rfl

/-- Cutting lexemes at semicolons is cutting tokens there. -/
theorem splitOnP_map_lexeme (ts : List Token) :
    (ts.map Token.lexeme).splitOnP Lexeme.isSemicolon =
      (sentences ts).map (·.map Token.lexeme) := by
  induction ts with
  | nil => rfl
  | cons t ts ih =>
    rw [sentences, List.map_cons, List.splitOnP_cons_eq_if_modifyHead,
      List.splitOnP_cons_eq_if_modifyHead, ih]
    split
    · rfl
    · rw [sentences]
      cases ts.splitOnP (·.lexeme.isSemicolon) with
      | nil => rfl
      | cons first rest => rfl

/-- The texts of statements depend on the lexemes of the script alone. -/
theorem map_text_statements (source : List Char) :
    (statements source).map Statement.text = wordings ((pieces source).map Piece.lexeme) := by
  rw [← map_lexeme_tokens, wordings, splitOnP_map_lexeme, List.filterMap_map, statements_eq,
    List.map_filterMap]
  refine List.filterMap_congr ?_
  intro sentence hmem
  exact map_text_statement? fun t ht => text?_ne_nil_of_mem_tokens (mem_of_mem_sentences hmem ht)

end TextAdventure.Script
