import TextAdventure.Proofs.Script.Expansion
import TextAdventure.Proofs.Script.Seam
import TextAdventure.Proofs.Script.Sentence

/-!
# Including whole statements

A library of whole statements adds its statements between those of the script that includes it
(`statementTexts_expand`): no word of the script joins one of the library, since the texts before and
behind the seams end with a semicolon, blanks and comments aside. The library is put in as text, so its
last line goes on behind the directive. If it is a comment it takes in the rest of the script's line,
and what stands there is read no more (`statementTexts_expand_ne`).
-/

namespace TextAdventure.Script

open Text (runEnds_of_false dropWhile_run)

/-- The lexemes of a text. -/
def lexemes (text : List Char) : List Lexeme := (tokens text).map Token.lexeme

/-- The lexemes of a text are those of its pieces. -/
theorem lexemes_eq (text : List Char) : lexemes text = (pieces text).map Piece.lexeme :=
  map_lexeme_tokens text

/-- The texts of the statements of a script. -/
def statementTexts (source : List Char) : List (List Char) := (statements source).map Statement.text

/-- The texts of the statements depend on the lexemes alone. -/
theorem statementTexts_eq (source : List Char) : statementTexts source = wordings (lexemes source) := by
  rw [lexemes_eq]
  exact map_text_statements source

/-! ## Ended statements -/

/-- Whether a token is a blank or a comment. -/
def Lexeme.isAside : Lexeme → Bool
  | .blank | .lineComment | .blockComment => true
  | .directive .. | .literal _ | .semicolon | .plain _ => false

/-- The last token that is neither a blank nor a comment. -/
def lastSign? (ls : List Lexeme) : Option Lexeme := (ls.filter (!·.isAside)).getLast?

/-- No statement is left open: the last token, blanks and comments aside, is a semicolon if there is
one. -/
def Ended (ls : List Lexeme) : Prop := ∀ l ∈ lastSign? ls, l = .semicolon

/-- Lexemes whose last sign is a semicolon are ended. -/
theorem ended_of_lastSign? {ls : List Lexeme} (h : lastSign? ls = some .semicolon) : Ended ls := by
  intro l hl
  exact Option.some.inj (hl.symm.trans h)

/-- A blank or comment in front makes no difference to the texts of statements. -/
theorem wordings_cons_of_isAside {l : Lexeme} (h : l.isAside = true) (ls : List Lexeme) :
    wordings (l :: ls) = wordings ls := by
  have htext : l.text? = none := by
    cases l with
    | blank | lineComment | blockComment | directive | semicolon => rfl
    | literal | plain => cases h
  have hsemicolon : l.isSemicolon = false := by
    cases l with
    | semicolon => cases h
    | _ => rfl
  obtain ⟨first, rest, hsplit⟩ :=
    List.exists_cons_of_ne_nil (List.splitOnP_ne_nil Lexeme.isSemicolon ls)
  have hwording : wording? (l :: first) = wording? first := by
    rw [wording?, wording?, phrase, phrase, wordsOf_cons_of_none htext]
  rw [wordings, wordings, List.splitOnP_cons_eq_if_modifyHead, hsemicolon, hsplit]
  simp [List.filterMap_cons, hwording]

/-- Blanks and comments in front make no difference to the wordings. -/
theorem wordings_append_of_isAside {asides : List Lexeme} (h : ∀ l ∈ asides, l.isAside = true)
    (ls : List Lexeme) : wordings (asides ++ ls) = wordings ls := by
  induction asides with
  | nil => rfl
  | cons l asides ih =>
    obtain ⟨hl, hasides⟩ := List.forall_mem_cons.1 h
    rw [List.cons_append, wordings_cons_of_isAside hl, ih hasides]

/-- Blanks and comments alone have no wordings. -/
theorem wordings_eq_nil_of_isAside {asides : List Lexeme} (h : ∀ l ∈ asides, l.isAside = true) :
    wordings asides = [] := by
  have hnil := wordings_append_of_isAside h []
  rwa [List.append_nil] at hnil

/-- A semicolon parts the wordings. -/
theorem wordings_append_semicolon (front back : List Lexeme) :
    wordings (front ++ .semicolon :: back) = wordings front ++ wordings back := by
  rw [wordings, List.splitOnP_append_cons front back rfl, List.filterMap_append]
  rfl

/-- Only blanks and comments stand behind the last token that is neither. -/
theorem exists_of_lastSign? {ls : List Lexeme} {l : Lexeme} (h : lastSign? ls = some l) :
    ∃ front asides, ls = front ++ l :: asides ∧ ∀ a ∈ asides, a.isAside = true := by
  obtain ⟨signs, hsigns⟩ := List.getLast?_eq_some_iff.1 h
  obtain ⟨front, back, rfl, -, hback⟩ := List.filter_eq_append_iff.1 hsigns
  obtain ⟨before, asides, rfl, -, -, hasides⟩ := List.filter_eq_cons_iff.1 hback
  refine ⟨front ++ before, asides, (List.append_assoc ..).symm, ?_⟩
  simpa using hasides

/-- Behind ended statements the next one starts afresh. -/
theorem Ended.wordings_append {ls : List Lexeme} (h : Ended ls) (more : List Lexeme) :
    wordings (ls ++ more) = wordings ls ++ wordings more := by
  cases hlast : lastSign? ls with
  | none =>
    have hasides : ∀ l ∈ ls, l.isAside = true := by simpa [lastSign?] using hlast
    rw [wordings_append_of_isAside hasides, wordings_eq_nil_of_isAside hasides, List.nil_append]
  | some l =>
    cases h l hlast
    obtain ⟨front, asides, rfl, hasides⟩ := exists_of_lastSign? hlast
    rw [List.append_assoc, List.cons_append, wordings_append_semicolon, wordings_append_semicolon,
      wordings_append_of_isAside hasides, wordings_eq_nil_of_isAside hasides, List.append_nil]

/-- Ended statements do not end in plain text. -/
theorem Ended.ne_plain {ls : List Lexeme} (h : Ended ls) {l : Lexeme} (hl : ls.getLast? = some l)
    (text : List Char) : l ≠ .plain text := by
  rintro rfl
  obtain ⟨front, rfl⟩ := List.getLast?_eq_some_iff.1 hl
  have hlast : lastSign? (front ++ [.plain text]) = some (.plain text) := by
    simp [lastSign?, Lexeme.isAside]
  cases h _ hlast

/-! ## The seam -/

/-- What is still read of a text behind another one: all of it, unless that one ends in a line comment,
which takes in the rest of the line. -/
def following (text after : List Char) : List Char :=
  if (lexemes text).getLast? = some .lineComment then after.dropWhile (· ≠ '\n') else after

/-- A script has no lexical errors exactly if none of its pieces has a flaw. -/
theorem lexicalErrors_eq_nil_iff {source : List Char} :
    lexicalErrors source = [] ↔ ∀ p ∈ pieces source, p.flaw = none := by
  rw [← map_snd_place 0 (pieces source), List.forall_mem_map, lexicalErrors,
    List.filterMap_eq_nil_iff]
  simp

/-- Blanks in front of a text make no difference to the texts of its statements. -/
theorem statementTexts_dropWhile_isGap (text : List Char) :
    statementTexts (text.dropWhile isGap) = statementTexts text := by
  cases text with
  | nil => rfl
  | cons c rest =>
    by_cases hc : isGap c = true
    · rw [List.dropWhile_cons_of_pos hc, statementTexts_eq, statementTexts_eq, lexemes_eq, lexemes_eq,
        pieces, next, if_pos hc]
      exact (wordings_cons_of_isAside rfl _).symm
    · rw [List.dropWhile_cons_of_neg hc]

/-- What a token takes in makes a difference only if it is a line comment. -/
theorem statementTexts_dropWhile_takes {l : Lexeme} (hl : ∀ text, l ≠ .plain text)
    (after : List Char) : statementTexts (after.dropWhile l.takes) =
      statementTexts (if l = .lineComment then after.dropWhile (· ≠ '\n') else after) := by
  cases l with
  | blank => exact statementTexts_dropWhile_isGap after
  | lineComment => rfl
  | blockComment | directive | literal | semicolon =>
    rw [if_neg (by simp)]
    exact congrArg statementTexts
      (dropWhile_run (List.forall_mem_nil _) (runEnds_of_false (fun _ => rfl) after))
  | plain text => exact absurd rfl (hl text)

/-- The statements of a text without flaws that ends them all stay what they are before any other
text. -/
theorem statementTexts_append {text : List Char} (herrors : lexicalErrors text = [])
    (hended : Ended (lexemes text)) (after : List Char) :
    statementTexts (text ++ after) = statementTexts text ++ statementTexts (following text after) := by
  cases hlast : (pieces text).getLast? with
  | none =>
    have hpieces := List.getLast?_eq_none_iff.1 hlast
    have htext : text = [] := by rw [← flatten_pieces text, hpieces, List.flatMap_nil]
    have hlexemes : lexemes text = [] := by rw [lexemes_eq, hpieces, List.map_nil]
    rw [statementTexts_eq text, following, hlexemes, htext]
    rfl
  | some p =>
    have hlexeme : (lexemes text).getLast? = some p.lexeme := by
      rw [lexemes_eq, List.getLast?_map, hlast]
      rfl
    have hplain := hended.ne_plain hlexeme
    have hseam := map_lexeme_pieces_append (lexicalErrors_eq_nil_iff.1 herrors) hlast hplain after
    rw [← lexemes_eq, ← lexemes_eq, ← lexemes_eq] at hseam
    rw [statementTexts_eq, hseam, hended.wordings_append, ← statementTexts_eq, ← statementTexts_eq,
      following, hlexeme, statementTexts_dropWhile_takes hplain]
    simp only [Option.some.injEq]

/-! ## One directive -/

/-- A script without errors that consists of a text, a directive that includes a library, and another
text, with no directive in the two texts. -/
structure IncludesOnce (source before : List Char) (name : String) (after : List Char) : Prop where
  noErrors : lexicalErrors source = []
  exists_pieces : ∃ front directive back, pieces source = front ++ directive :: back ∧
    front.flatMap Piece.text = before ∧ directive.lexeme.Includes name ∧
    back.flatMap Piece.text = after ∧ ∀ p ∈ front ++ back, p.lexeme.isDirective = false

/-- A text of whole statements: it has no error and no directive, and its last token, blanks and
comments aside, is a semicolon. -/
structure HasWholeStatements (text : List Char) : Prop where
  noErrors : lexicalErrors text = []
  noDirectives : ∀ l ∈ lexemes text, l.isDirective = false
  ends : lastSign? (lexemes text) = some .semicolon

/-- A token that includes a library is a directive. -/
theorem Lexeme.Includes.exists_directive {l : Lexeme} {name : String} (h : l.Includes name) :
    ∃ used arguments, l = .directive used arguments := by
  cases h
  exact ⟨_, _, rfl⟩

/-- Only directives include libraries. -/
theorem Piece.include?_eq_none {p : Piece} (h : p.lexeme.isDirective = false) : p.include? = none := by
  refine include?_eq_none_iff.2 fun name hname => ?_
  obtain ⟨used, arguments, hlexeme⟩ := hname.exists_directive
  rw [hlexeme] at h
  cases h

/-- A text of whole statements includes nothing. -/
theorem HasWholeStatements.include?_eq_none {text : List Char} (h : HasWholeStatements text) :
    ∀ p ∈ pieces text, p.include? = none := by
  intro p hp
  refine Piece.include?_eq_none (h.noDirectives _ ?_)
  rw [lexemes_eq]
  exact List.mem_map_of_mem hp

namespace IncludesOnce

variable {source before after : List Char} {name : String} (h : IncludesOnce source before name after)
include h

/-- The library is put between the two texts. -/
theorem expand_eq {library : Library} {text : List Char} (hload : library.load name = .ok text)
    (htext : HasWholeStatements text) : expand library source = .ok (before ++ (text ++ after)) := by
  obtain ⟨front, directive, back, hpieces, rfl, hname, rfl, hothers⟩ := h.exists_pieces
  obtain ⟨hfront, hback⟩ := List.forall_mem_append.1 hothers
  exact expand_of_one hpieces (fun p hp => Piece.include?_eq_none (hfront p hp))
    (fun p hp => Piece.include?_eq_none (hback p hp)) (Piece.include?_eq_some_iff.2 hname) hload
    htext.include?_eq_none

/-- The text before the directive has no errors of its own. -/
theorem lexicalErrors_before : lexicalErrors before = [] := by
  obtain ⟨front, directive, back, hpieces, rfl, -⟩ := h.exists_pieces
  have hflaw := lexicalErrors_eq_nil_iff.1 h.noErrors
  rw [hpieces] at hflaw
  have hfront := (List.forall_mem_append.1 hflaw).1
  rw [lexicalErrors_eq_nil_iff, pieces_flatMap_text hpieces hfront]
  exact hfront

/-- No line comment stands right before a directive. -/
theorem following_before (text : List Char) : following before text = text := by
  obtain ⟨front, directive, back, hpieces, rfl, hname, -⟩ := h.exists_pieces
  have hflaw := lexicalErrors_eq_nil_iff.1 h.noErrors
  have hsettled := settled_of_pieces (List.append_nil _).symm hflaw
  rw [hpieces] at hflaw hsettled
  obtain ⟨hfront, hdirective, -⟩ := settled_append.1 hsettled
  obtain ⟨used, arguments, hlexeme⟩ := hname.exists_directive
  have htext := hdirective.spelled
  rw [hlexeme] at htext
  refine if_neg ?_
  intro hlast
  rw [lexemes_eq, pieces_flatMap_text hpieces (List.forall_mem_append.1 hflaw).1, List.getLast?_map]
    at hlast
  obtain ⟨p, hp, hcomment⟩ := Option.map_eq_some_iff.1 hlast
  have hends := hfront.ends hp
  rw [hcomment, List.flatMap_cons, htext.text_directive] at hends
  cases hends '&' rfl

end IncludesOnce

/-- The statements of a library of whole statements stand between those of the script that includes
it. What follows the directive is read from its start, or from its first line end on if the library
ends in a line comment. -/
theorem statementTexts_expand {library : Library} {source before after text : List Char}
    {name : String} (hsource : IncludesOnce source before name after)
    (hbefore : Ended (lexemes before)) (hload : library.load name = .ok text)
    (htext : HasWholeStatements text) : (expand library source).map statementTexts =
      .ok (statementTexts before ++ statementTexts text ++ statementTexts (following text after)) := by
  have hended : Ended (lexemes text) := ended_of_lastSign? htext.ends
  rw [hsource.expand_eq hload htext, Except.map,
    statementTexts_append hsource.lexicalErrors_before hbefore, hsource.following_before,
    statementTexts_append htext.noErrors hended, List.append_assoc]

/-- The text of a script before its library of verbs. -/
def opening : List Char := "game: Cave; ".toList

/-- The text of a script behind its library of verbs. -/
def rooms : List Char := " room: Hall;\nitem: lamp;".toList

/-- A script that includes the library of verbs. -/
def tour : List Char := "game: Cave; &use(std) room: Hall;\nitem: lamp;".toList

/-- The tour includes the library between its opening and its rooms. -/
theorem includesOnce_tour : IncludesOnce tour opening "std" rooms where
  noErrors := by decide +kernel
  exists_pieces :=
    ⟨pieces opening, ⟨.directive "use".toList "std".toList, "&use(std)".toList, none⟩, pieces rooms,
      by decide +kernel, flatten_pieces opening, Piece.include?_eq_some_iff.1 rfl,
      flatten_pieces rooms, by decide +kernel⟩

/-- The opening ends with a semicolon. -/
theorem ended_opening : Ended (lexemes opening) := ended_of_lastSign? (by decide +kernel)

/-- The library is one of whole statements. -/
theorem hasWholeStatements_basics : HasWholeStatements basics where
  noErrors := by decide +kernel
  noDirectives := by decide +kernel
  ends := by decide +kernel

/-- The tour has the statement before the library, that of the library and the one behind the line
end. -/
theorem statementTexts_expand_tour : IncludesOnce tour opening "std" rooms ∧
    Ended (lexemes opening) ∧ HasWholeStatements basics ∧
    (expand basicsLibrary tour).map statementTexts =
      .ok ["game: Cave".toList, "verb: look".toList, "item: lamp".toList] := by
  refine ⟨includesOnce_tour, ended_opening, hasWholeStatements_basics, ?_⟩
  rw [statementTexts_expand includesOnce_tour ended_opening rfl hasWholeStatements_basics]
  exact congrArg Except.ok (by decide +kernel)

/-- A comment at the end of a library keeps the rest of the line from being read: the tour does not have
all statements of its three texts. -/
theorem statementTexts_expand_ne : IncludesOnce tour opening "std" rooms ∧
    Ended (lexemes opening) ∧ basicsLibrary.load "std" = .ok basics ∧ HasWholeStatements basics ∧
    (expand basicsLibrary tour).map statementTexts ≠
      .ok (statementTexts opening ++ statementTexts basics ++ statementTexts rooms) := by
  refine ⟨includesOnce_tour, ended_opening, rfl, hasWholeStatements_basics, ?_⟩
  rw [includesOnce_tour.expand_eq rfl hasWholeStatements_basics]
  intro h
  exact absurd (Except.ok.inj h) (by decide +kernel)

end TextAdventure.Script
