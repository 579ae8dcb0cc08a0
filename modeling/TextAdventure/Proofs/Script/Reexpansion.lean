import TextAdventure.Proofs.Script.Expansion
import TextAdventure.Proofs.Script.Seam

/-!
# Expanding again

Every text is cut into tokens by itself. Expansion takes the directives that include libraries out of
them and puts what is kept side by side, so no directive of any of the texts is left. A new one can
come about only if a token goes on over a seam into what was put behind it: an ampersand before a name,
a slash before another, a line comment before more of its line, or a token that broke off at the end of
its text (`Piece.goesOn`). Inside a text none does (`parted_pieces`). If none does at a seam, expanding
again changes nothing (`expand_of_parted`), and if one does it may (`directive_survives`).

Blanks and words are no danger: next to another of its kind a run of them becomes one token with it,
and what stands behind is cut as before (`ReadsRun`). All other tokens are read again as they are,
those with a flaw too (`next_of_broken`).
-/

namespace TextAdventure.Script

open Text (RunEnds any_head?_eq_false_iff runEnds_cons runEnds_dropWhile takeWhile_run
  dropWhile_run)

/-! ## Tokens that go on -/

/-- Whether a literal that is open breaks off before a text: at a line end, at the end of the script, or
at a backslash before one of these. -/
def breaksLiteral : List Char → Bool
  | [] | '\n' :: _ | ['\\'] | '\\' :: '\n' :: _ => true
  | _ => false

/-- Whether a token is a run of characters of one class: blanks, or a word. -/
def Lexeme.isRun : Lexeme → Bool
  | .blank => true
  | .plain text => text ≠ ['/'] && text ≠ ['&']
  | .lineComment | .blockComment | .directive .. | .literal _ | .semicolon => false

/-- Whether a piece goes on into a text that is put behind it, other than a run of blanks into blanks
or of a word into a word. -/
def Piece.goesOn (p : Piece) (rest : List Char) : Bool :=
  match p.flaw with
  | none => !p.lexeme.isRun && rest.head?.any p.lexeme.takes
  | some .openComment => !rest.isEmpty
  | some .openLiteral => !breaksLiteral rest
  | some (.brokenDirective text) =>
    rest.head?.any fun c => if '(' ∈ text then c ≠ '\n' else isNameChar c || c = '('

/-- No piece goes on into the pieces behind it. -/
def Parted : List Piece → Prop
  | [] => True
  | p :: ps => p.goesOn (ps.flatMap Piece.text) = false ∧ Parted ps

instance decidableParted : DecidablePred Parted
  | [] => .isTrue trivial
  | p :: ps =>
    have := decidableParted ps
    inferInstanceAs (Decidable (p.goesOn (ps.flatMap Piece.text) = false ∧ Parted ps))

/-! ## Runs -/

/-- The characters of a class are read as one token that includes nothing. -/
def ReadsRun (p : Char → Bool) : Prop :=
  ∀ c rest, p c = true → ∃ q : Piece, q.include? = none ∧ next c rest = (q, rest.dropWhile p)

/-- Blanks are read as one token. -/
theorem readsRun_isGap : ReadsRun isGap := by
  intro c rest hc
  exact ⟨⟨.blank, c :: rest.takeWhile isGap, none⟩, rfl, by rw [next, if_pos hc, whole]⟩

/-- Plain characters are read as one token. -/
theorem readsRun_isPlain : ReadsRun isPlain := by
  intro c rest hc
  exact ⟨⟨.plain (c :: rest.takeWhile isPlain), c :: rest.takeWhile isPlain, none⟩, rfl,
    next_of_isPlain hc rest⟩

namespace ReadsRun

variable {p : Char → Bool} (h : ReadsRun p)
include h

/-- Behind a run the text is cut as it is with the run. -/
theorem pieces_dropWhile_subset (text : List Char) : pieces (text.dropWhile p) ⊆ pieces text := by
  cases text with
  | nil => exact List.Subset.refl _
  | cons c rest =>
    by_cases hc : p c = true
    · obtain ⟨q, _, hnext⟩ := h c rest hc
      rw [List.dropWhile_cons_of_pos hc, pieces, hnext]
      exact List.subset_cons_self _ _
    · rw [List.dropWhile_cons_of_neg hc]
      exact List.Subset.refl _

/-- A run before a text adds no token that includes a library. -/
theorem include?_append {c : Char} {run rest : List Char} (hrun : ∀ d ∈ c :: run, p d = true)
    {q : Piece} (hq : q ∈ pieces (c :: run ++ rest)) : q.include? = none ∨ q ∈ pieces rest := by
  obtain ⟨hc, hmore⟩ := List.forall_mem_cons.1 hrun
  obtain ⟨first, hfirst, hnext⟩ := h c (run ++ rest) hc
  rw [List.cons_append, pieces, hnext, List.dropWhile_append_of_pos hmore] at hq
  rcases List.mem_cons.1 hq with rfl | hq
  · exact .inl hfirst
  · exact .inr (h.pieces_dropWhile_subset rest hq)

end ReadsRun

/-! ## Tokens that broke off -/

/-- The pieces with a flaw. -/
inductive Piece.Broken : Piece → Prop
  | comment {inside : List Char} (h : cutComment inside = none) :
    Broken ⟨.blockComment, '/' :: '*' :: inside, some .openComment⟩
  | literal {inside : List Char} (h : cutLiteral inside = (inside, [])) :
    Broken ⟨.plain ('"' :: inside), '"' :: inside, some .openLiteral⟩
  | name {c : Char} {name : List Char} (hc : isNameStart c = true)
    (hname : ∀ d ∈ name, isNameChar d = true) :
    Broken ⟨.plain ('&' :: c :: name), '&' :: c :: name, some (.brokenDirective ('&' :: c :: name))⟩
  | arguments {c : Char} {name arguments : List Char} (hc : isNameStart c = true)
    (hname : ∀ d ∈ name, isNameChar d = true) (harguments : ∀ d ∈ arguments, isArgumentChar d = true) :
    Broken ⟨.plain ('&' :: c :: (name ++ '(' :: arguments)), '&' :: c :: (name ++ '(' :: arguments),
      some (.brokenDirective ('&' :: c :: (name ++ '(' :: arguments)))⟩

/-- The inside of a literal is the same before any text where the literal breaks off. -/
theorem cutLiteral_append_of_breaks {text inside rest : List Char}
    (h : cutLiteral text = (inside, rest)) (other : List Char) (hother : breaksLiteral other = true) :
    cutLiteral (inside ++ other) = (inside, other) := by
  have hbreaks : cutLiteral other = ([], other) := by
    unfold breaksLiteral at hother
    unfold cutLiteral
    split at hother
    · rfl
    · simp
    · simp
    · simp
    · cases hother
  fun_induction cutLiteral text generalizing inside with
  | case1 | case2 | case3 | case4 =>
    cases h
    exact hbreaks
  | case5 d text hd inside' rest' hcut hc ih =>
    cases h
    unfold cutLiteral
    simp [hd, ih hcut]
  | case6 c text hend hc inside' rest' hcut ih =>
    cases h
    unfold cutLiteral
    simp [hend, hc, ih hcut]

/-- A literal without its closing quote breaks off where it is cut. -/
theorem breaksLiteral_of_cutLiteral {text inside rest : List Char}
    (h : cutLiteral text = (inside, rest)) (hquote : ∀ more, rest ≠ '"' :: more) :
    breaksLiteral rest = true := by
  fun_induction cutLiteral text generalizing inside with
  | case1 | case3 =>
    cases h
    rfl
  | case2 c text hend =>
    cases h
    rcases hend with rfl | rfl
    · exact absurd rfl (hquote text)
    · rfl
  | case4 =>
    cases h
    rfl
  | case5 d text hd inside' rest' hcut hc ih =>
    cases h
    exact ih hcut
  | case6 c text hend hc inside' rest' hcut ih =>
    cases h
    exact ih hcut

/-- A piece that broke off, before a text that it does not go on into. -/
structure Piece.BreaksOff (p : Piece) (rest : List Char) : Prop where
  broken : p.Broken
  stops : p.goesOn rest = false

/-- What is read behind a slash with a flaw broke off. -/
theorem breaksOff_afterSlash (rest : List Char) : (afterSlash rest).1.flaw ≠ none →
    (afterSlash rest).1.BreaksOff (afterSlash rest).2 := by
  unfold afterSlash
  split
  next =>
    intro h
    exact absurd rfl h
  next =>
    split
    next =>
      intro h
      exact absurd rfl h
    next hcut =>
      intro _
      exact ⟨.comment hcut, rfl⟩
  next =>
    intro h
    exact absurd rfl h

/-- There is no parenthesis in the name of a directive. -/
theorem paren_not_mem_name {c : Char} {name : List Char} (hc : isNameStart c = true)
    (hname : ∀ d ∈ name, isNameChar d = true) : '(' ∉ '&' :: c :: name := by
  have hstart : '(' ≠ c := by
    rintro rfl
    cases hc
  have hinside : '(' ∉ name := by
    intro hmem
    cases hname '(' hmem
  simp [hstart, hinside]

/-- What is read behind the name of a directive with a flaw broke off. The arguments stop at a
parenthesis, a line end or the end of the script. -/
theorem breaksOff_afterName {c : Char} {name rest : List Char} (hc : isNameStart c = true)
    (hname : ∀ d ∈ name, isNameChar d = true) (hrest : RunEnds isNameChar rest) :
    (afterName (c :: name) rest).1.flaw ≠ none →
      (afterName (c :: name) rest).1.BreaksOff (afterName (c :: name) rest).2 := by
  unfold afterName
  split
  next rest =>
    dsimp only
    split
    next =>
      intro h
      exact absurd rfl h
    next hclose =>
      intro _
      refine ⟨.arguments hc hname fun d hd => List.mem_takeWhile_imp hd, ?_⟩
      have hends : RunEnds (· ≠ '\n') (rest.dropWhile isArgumentChar) := by
        intro d hd
        have hstop := runEnds_dropWhile isArgumentChar rest d hd
        obtain ⟨more, hmore⟩ := List.head?_eq_some_iff.1 hd
        have hparen : d ≠ ')' := by
          rintro rfl
          exact hclose more hmore
        simpa [isArgumentChar, hparen] using hstop
      simpa [Piece.goesOn, flawed] using any_head?_eq_false_iff.2 hends
  next hopen =>
    intro _
    refine ⟨.name hc hname, ?_⟩
    have hends : RunEnds (fun d => isNameChar d || d = '(') rest := by
      intro d hd
      obtain ⟨more, rfl⟩ := List.head?_eq_some_iff.1 hd
      have hparen : d ≠ '(' := by
        rintro rfl
        exact hopen more rfl
      simpa [hparen] using hrest d hd
    simpa [Piece.goesOn, flawed, paren_not_mem_name hc hname] using any_head?_eq_false_iff.2 hends

/-- What is read behind an ampersand with a flaw broke off. -/
theorem breaksOff_afterAmpersand (rest : List Char) : (afterAmpersand rest).1.flaw ≠ none →
    (afterAmpersand rest).1.BreaksOff (afterAmpersand rest).2 := by
  cases rest with
  | nil =>
    intro h
    exact absurd rfl h
  | cons c rest =>
    rw [afterAmpersand]
    split
    next hc =>
      exact breaksOff_afterName hc (fun d hd => List.mem_takeWhile_imp hd)
        (runEnds_dropWhile isNameChar rest)
    next =>
      intro h
      exact absurd rfl h

/-- What is read behind a quote with a flaw broke off. -/
theorem breaksOff_afterQuote (rest : List Char) : (afterQuote rest).1.flaw ≠ none →
    (afterQuote rest).1.BreaksOff (afterQuote rest).2 := by
  unfold afterQuote
  split
  next =>
    intro h
    exact absurd rfl h
  next inside rest' hquote hcut =>
    intro _
    have hself := cutLiteral_append_of_breaks hcut [] rfl
    rw [List.append_nil] at hself
    refine ⟨.literal hself, ?_⟩
    have hbreaks : breaksLiteral rest' = true := by
      refine breaksLiteral_of_cutLiteral hcut ?_
      rintro more rfl
      exact hquote _ rfl
    simp [Piece.goesOn, flawed, hbreaks]

/-- A piece with a flaw is one that broke off. -/
theorem breaksOff_next (c : Char) (rest : List Char) : (next c rest).1.flaw ≠ none →
    (next c rest).1.BreaksOff (next c rest).2 := by
  unfold next
  repeat' split
  · intro h
    exact absurd rfl h
  · intro h
    exact absurd rfl h
  · exact breaksOff_afterSlash rest
  · exact breaksOff_afterAmpersand rest
  · exact breaksOff_afterQuote rest
  · intro h
    exact absurd rfl h

/-- Before a text that it does not go on into, a piece that broke off is read as it is. -/
theorem next_of_broken {p : Piece} (hp : p.Broken) {c : Char} {more rest : List Char}
    (htext : p.text = c :: more) (hrest : p.goesOn rest = false) : next c (more ++ rest) = (p, rest) := by
  cases hp with
  | @comment inside hinside =>
    cases htext
    cases rest with
    | nil =>
      have hnext : next '/' ('*' :: inside ++ []) = afterSlash ('*' :: (inside ++ [])) := rfl
      rw [hnext, List.append_nil, afterSlash, hinside]
    | cons => cases hrest
  | literal hinside =>
    cases htext
    have hbreaks : breaksLiteral rest = true := by simpa [Piece.goesOn] using hrest
    have hnext : next '"' (more ++ rest) = afterQuote (more ++ rest) := by simp [next, isGap]
    rw [hnext, afterQuote, cutLiteral_append_of_breaks hinside rest hbreaks]
    split
    next hquote =>
      cases hquote
      cases hbreaks
    next hcut =>
      cases hcut
      rfl
  | @name d name hd hname =>
    cases htext
    have hends : RunEnds (fun e => isNameChar e || e = '(') rest := by
      refine any_head?_eq_false_iff.1 ?_
      simpa [Piece.goesOn, paren_not_mem_name hd hname] using hrest
    have hrun : RunEnds isNameChar rest := by
      intro e he
      exact (Bool.or_eq_false_iff.1 (hends e he)).1
    have hnext : next '&' (d :: name ++ rest) = afterAmpersand (d :: (name ++ rest)) := by
      simp [next, isGap]
    rw [hnext, afterAmpersand, if_pos hd, takeWhile_run hname hrun, dropWhile_run hname hrun]
    unfold afterName
    split
    next => cases hends '(' rfl
    next => rfl
  | @arguments d name arguments hd hname harguments =>
    cases htext
    have hends : RunEnds (· ≠ '\n') rest := by
      refine any_head?_eq_false_iff.1 ?_
      simpa [Piece.goesOn] using hrest
    have hrun : RunEnds isArgumentChar rest := by
      intro e he
      have hline : e = '\n' := by simpa using hends e he
      rw [hline]
      rfl
    have hopen : RunEnds isNameChar ('(' :: (arguments ++ rest)) := runEnds_cons rfl _
    have hnext : next '&' (d :: (name ++ '(' :: arguments) ++ rest) =
        afterAmpersand (d :: (name ++ '(' :: (arguments ++ rest))) := by
      simp [next, isGap]
    rw [hnext, afterAmpersand, if_pos hd, takeWhile_run hname hopen, dropWhile_run hname hopen,
      afterName, takeWhile_run harguments hrun, dropWhile_run harguments hrun]
    split
    next => cases hends ')' rfl
    next => simp [flawed]

/-! ## Pieces put side by side -/

/-- The pieces that a scan can give. -/
def Piece.IsRead (p : Piece) : Prop := ∃ c rest, p = (next c rest).1

/-- The pieces of a script are read ones. -/
theorem Piece.isRead_of_mem_pieces {source : List Char} {p : Piece} (h : p ∈ pieces source) :
    p.IsRead := by
  fun_induction pieces source with
  | case1 => cases h
  | case2 c rest ih =>
    rcases List.mem_cons.1 h with rfl | h
    · exact ⟨c, rest, rfl⟩
    · exact ih h

/-- A piece that does not go on into the text behind it adds no token that includes a library. Where
it is read as it is, the tokens of the text behind it follow. -/
theorem Piece.IsRead.include?_append {p : Piece} (hp : p.IsRead) (hinclude : p.include? = none)
    {rest : List Char} (hrest : p.goesOn rest = false) {q : Piece}
    (hq : q ∈ pieces (p.text ++ rest)) : q.include? = none ∨ q ∈ pieces rest := by
  obtain ⟨first, more₀, hnext⟩ := hp
  obtain ⟨c, more, htext⟩ := List.exists_cons_of_ne_nil (next_text_ne_nil first more₀)
  rw [← hnext] at htext
  have hself (hstands : next c (more ++ rest) = (p, rest)) : q.include? = none ∨ q ∈ pieces rest := by
    rw [htext, List.cons_append, pieces, hstands] at hq
    rcases List.mem_cons.1 hq with rfl | hq
    · exact .inl hinclude
    · exact .inr hq
  by_cases hflaw : p.flaw = none
  · have hfits : p.Fits (next first more₀).2 := hnext ▸ fits_next first more₀ (hnext ▸ hflaw)
    have hspelled := hfits.spelled
    cases hrun : p.lexeme.isRun with
    | false =>
      have hends : RunEnds p.lexeme.takes rest := by
        refine any_head?_eq_false_iff.1 ?_
        simpa [goesOn, hflaw, hrun] using hrest
      refine hself ?_
      rw [htext] at hspelled
      rw [next_of_spelled hspelled hends, whole, ← htext, ← hflaw]
    | true =>
      obtain ⟨lexeme, text, flaw⟩ := p
      cases hspelled with
      | blank hc hmore =>
        exact readsRun_isGap.include?_append (List.forall_mem_cons.2 ⟨hc, hmore⟩) hq
      | word hc hmore =>
        exact readsRun_isPlain.include?_append (List.forall_mem_cons.2 ⟨hc, hmore⟩) hq
      | slash | ampersand | lineComment | blockComment | directive | literal | semicolon => cases hrun
  · have hbroken : p.Broken := hnext ▸ (breaksOff_next first more₀ (hnext ▸ hflaw)).broken
    exact hself (next_of_broken hbroken htext hrest)

/-- In its own script no token goes on into what stands behind it. -/
theorem goesOn_next (c : Char) (rest : List Char) :
    (next c rest).1.goesOn (next c rest).2 = false := by
  by_cases hflaw : (next c rest).1.flaw = none
  · have hends := any_head?_eq_false_iff.2 (fits_next c rest hflaw).ends
    rw [Piece.goesOn, hflaw]
    simp only [hends, Bool.and_false]
  · exact (breaksOff_next c rest hflaw).stops

/-- The pieces of one script are parted, so it is only at the seams that pieces may not be. -/
theorem parted_pieces (source : List Char) : Parted (pieces source) := by
  fun_induction pieces source with
  | case1 => trivial
  | case2 c rest ih =>
    refine ⟨?_, ih⟩
    rw [flatten_pieces]
    exact goesOn_next c rest

/-- Where no piece goes on, no token that includes a library comes about. -/
theorem Parted.include?_eq_none {ps : List Piece} (h : Parted ps) (hread : ∀ p ∈ ps, p.IsRead)
    (hinclude : ∀ p ∈ ps, p.include? = none) :
    ∀ q ∈ pieces (ps.flatMap Piece.text), q.include? = none := by
  induction ps with
  | nil =>
    intro q hq
    simp [pieces] at hq
  | cons p ps ih =>
    obtain ⟨hp, hps⟩ := h
    obtain ⟨hpread, hpsread⟩ := List.forall_mem_cons.1 hread
    obtain ⟨hpinclude, hpsinclude⟩ := List.forall_mem_cons.1 hinclude
    intro q hq
    rw [List.flatMap_cons] at hq
    rcases hpread.include?_append hpinclude hp hq with hq | hq
    · exact hq
    · exact ih hps hpsread hpsinclude q hq

/-! ## What expansion keeps -/

/-- The pieces of a script and of its libraries that expansion puts side by side, while the libraries on
the chain are being expanded. -/
def Library.keptPieces (library : Library) (chain : List String) : List Piece → List Piece
  | [] => []
  | p :: rest =>
    match p.include? with
    | none => p :: library.keptPieces chain rest
    | some name =>
      if hc : name ∈ chain then
        library.keptPieces chain rest
      else
        match hl : library.load name with
        | .error _ => library.keptPieces chain rest
        | .ok text =>
          have := library.unused_lt hc (library.mem_of_load hl)
          library.keptPieces (chain ++ [name]) (pieces text) ++ library.keptPieces chain rest
termination_by ps => (library.unused chain, ps.length)

section
variable {library : Library} {chain : List String}

/-- A piece that includes nothing is kept. -/
theorem Library.keptPieces_of_none {p : Piece} (h : p.include? = none) (rest : List Piece) :
    library.keptPieces chain (p :: rest) = p :: library.keptPieces chain rest := by
  rw [keptPieces, h]

/-- In the place of a piece that includes a library, the pieces that are kept of the library stand.
-/
theorem Library.keptPieces_of_some {p : Piece} {name : String} (h : p.include? = some name)
    (hc : name ∉ chain) {text : List Char} (hl : library.load name = .ok text) (rest : List Piece) :
    library.keptPieces chain (p :: rest) =
      library.keptPieces (chain ++ [name]) (pieces text) ++ library.keptPieces chain rest := by
  rw [keptPieces, h]
  simp only [dif_neg hc]
  split
  next e he => cases he.symm.trans hl
  next text' htext' =>
    cases htext'.symm.trans hl
    rfl

/-- Pieces that include nothing are kept. -/
theorem Library.keptPieces_append (library : Library) (chain : List String) {front : List Piece}
    (h : ∀ p ∈ front, p.include? = none) (rest : List Piece) :
    library.keptPieces chain (front ++ rest) = front ++ library.keptPieces chain rest := by
  induction front with
  | nil => rfl
  | cons p front ih =>
    obtain ⟨hp, hfront⟩ := List.forall_mem_cons.1 h
    rw [List.cons_append, keptPieces_of_none hp, ih hfront, List.cons_append]

/-- Pieces that include nothing are all kept. -/
theorem Library.keptPieces_eq_self (library : Library) (chain : List String) {ps : List Piece}
    (h : ∀ p ∈ ps, p.include? = none) : library.keptPieces chain ps = ps := by
  have hps := library.keptPieces_append chain h []
  rwa [keptPieces, List.append_nil] at hps

/-- The expanded text is that of the pieces that are kept. -/
theorem eq_flatMap_keptPieces {ps : List Piece} {out : List Char}
    (h : expandPieces library chain ps = .ok out) :
    out = (library.keptPieces chain ps).flatMap Piece.text := by
  induction chain using library.induction_on_chain generalizing ps out with
  | step chain ih =>
    induction ps generalizing out with
    | nil =>
      rw [expandPieces] at h
      cases h
      rw [Library.keptPieces]
      rfl
    | cons p ps ihps =>
      obtain ⟨part, after, hpart, hafter, rfl⟩ := expandPieces_cons_eq_ok_iff.1 h
      cases hp : p.include? with
      | none =>
        cases (Piece.yields_of_none hp part).1 hpart
        rw [Library.keptPieces_of_none hp, List.flatMap_cons, ← ihps hafter]
      | some name =>
        obtain ⟨hc, text, htext, hinside⟩ := (Piece.yields_of_some hp part).1 hpart
        rw [Library.keptPieces_of_some hp hc htext, List.flatMap_append, ← ih name text hc htext hinside,
          ← ihps hafter]

end

/-- A piece that is kept includes nothing, and stands in one of the texts. -/
theorem Library.include?_of_mem_keptPieces (library : Library) (chain : List String) {ps : List Piece}
    (hread : ∀ p ∈ ps, p.IsRead) :
    ∀ q ∈ library.keptPieces chain ps, q.include? = none ∧ q.IsRead := by
  fun_induction Library.keptPieces library chain ps with
  | case1 =>
    intro q hq
    cases hq
  | case2 chain p rest hp ih =>
    obtain ⟨hpread, hrest⟩ := List.forall_mem_cons.1 hread
    exact List.forall_mem_cons.2 ⟨⟨hp, hpread⟩, ih hrest⟩
  | case3 chain p rest name hp hc ih => exact ih (List.forall_mem_cons.1 hread).2
  | case4 chain p rest name hp hc e he ih => exact ih (List.forall_mem_cons.1 hread).2
  | case5 chain p rest name hp hc text htext hlt ihtext ih =>
    refine List.forall_mem_append.2 ⟨ihtext ?_, ih (List.forall_mem_cons.1 hread).2⟩
    intro q hq
    exact Piece.isRead_of_mem_pieces hq

/-! ## Scripts -/

/-- Where no token that is kept goes on into what expansion puts behind it, the expanded text has no
directive that includes a library, and expanding it again leaves it as it is. -/
theorem expand_of_parted {library : Library} {source out : List Char}
    (h : expand library source = .ok out)
    (hparted : Parted (library.keptPieces [] (pieces source))) :
    (∀ t ∈ tokens out, ∀ arguments, t.lexeme ≠ .directive ['u', 's', 'e'] arguments) ∧
      expand library out = .ok out := by
  have hkept := library.include?_of_mem_keptPieces []
    fun p (hp : p ∈ pieces source) => Piece.isRead_of_mem_pieces hp
  have hnone : ∀ p ∈ pieces out, p.include? = none := by
    rw [eq_flatMap_keptPieces h]
    exact hparted.include?_eq_none (fun p hp => (hkept p hp).2) fun p hp => (hkept p hp).1
  refine ⟨?_, expandPieces_of_include?_eq_none hnone⟩
  intro t ht arguments hlexeme
  obtain ⟨offset, p, hp, rfl⟩ := exists_of_mem_tokens ht
  have hp := hnone p (mem_pieces_of_mem_place hp)
  replace hlexeme : p.lexeme = .directive ['u', 's', 'e'] arguments := hlexeme
  rw [Piece.include?, hlexeme] at hp
  cases hp

/-! ## A library that ends in a comment -/

/-- A script that includes the library at the end of a line. -/
def cave : List Char := "game: Cave; &use(std)\nroom: Hall;".toList

/-- The script with its library put in. -/
def wholeCave : List Char := "game: Cave; verb: look; // the basics\nroom: Hall;".toList

/-- The cave is read as a directive between two texts. -/
theorem pieces_cave : pieces cave = pieces "game: Cave; ".toList ++
    ⟨.directive "use".toList "std".toList, "&use(std)".toList, none⟩ ::
      pieces "\nroom: Hall;".toList := by
  decide +kernel

/-- The cave with its library put in. -/
theorem expand_cave : expand basicsLibrary cave = .ok wholeCave := by
  have hload : basicsLibrary.load "std" = .ok basics := rfl
  rw [expand_of_one pieces_cave (by decide +kernel) (by decide +kernel) rfl hload include?_basics]
  exact congrArg Except.ok (by decide +kernel)

/-- The comment does not go on: a line end stands behind the directive. -/
theorem parted_cave : Parted (basicsLibrary.keptPieces [] (pieces cave)) := by
  have hload : basicsLibrary.load "std" = .ok basics := rfl
  rw [pieces_cave, Library.keptPieces_append _ _ (by decide +kernel),
    Library.keptPieces_of_some rfl List.not_mem_nil hload,
    Library.keptPieces_eq_self _ _ include?_basics,
    Library.keptPieces_eq_self _ _ (by decide +kernel)]
  decide +kernel

/-- The cave has no more directives once its library is put in, and stays as it is. -/
theorem expand_wholeCave : expand basicsLibrary cave = .ok wholeCave ∧
    Parted (basicsLibrary.keptPieces [] (pieces cave)) ∧
    (∀ t ∈ tokens wholeCave, ∀ arguments, t.lexeme ≠ .directive ['u', 's', 'e'] arguments) ∧
    expand basicsLibrary wholeCave = .ok wholeCave :=
  ⟨expand_cave, parted_cave, expand_of_parted expand_cave parted_cave⟩

/-! ## A directive out of two texts -/

/-- A library of an ampersand, and one of a room. -/
def halves : Library := .ofEntries [("and", ['&']), ("hall", "room: Hall;".toList)]

/-- An ampersand that is put before a name makes a directive of it: the text of one expansion still has
a directive that includes a library, and a second expansion changes it. -/
theorem directive_survives : ∃ out, expand halves "&use(and)use(hall)".toList = .ok out ∧
    (∃ t ∈ tokens out, ∃ arguments, t.lexeme = .directive ['u', 's', 'e'] arguments) ∧
    expand halves out ≠ .ok out := by
  have hpieces : pieces "&use(and)use(hall)".toList =
      [] ++ ⟨.directive "use".toList "and".toList, "&use(and)".toList, none⟩ ::
        pieces "use(hall)".toList := by
    decide +kernel
  have hagain : pieces "&use(hall)".toList =
      [] ++ [⟨.directive "use".toList "hall".toList, "&use(hall)".toList, none⟩] := by
    decide +kernel
  have hand : halves.load "and" = .ok ['&'] := rfl
  have hhall : halves.load "hall" = .ok "room: Hall;".toList := rfl
  refine ⟨"&use(hall)".toList, ?_, ⟨⟨.directive ['u', 's', 'e'] "hall".toList, ⟨0, 10⟩⟩, ?_, _, rfl⟩, ?_⟩
  · rw [expand_of_one hpieces (List.forall_mem_nil _) (by decide +kernel) rfl hand (by decide +kernel)]
    exact congrArg Except.ok (by decide +kernel)
  · decide +kernel
  · rw [expand_of_one hagain (List.forall_mem_nil _) (List.forall_mem_nil _) rfl hhall
      (by decide +kernel)]
    intro h
    exact absurd (Except.ok.inj h) (by decide +kernel)

end TextAdventure.Script
