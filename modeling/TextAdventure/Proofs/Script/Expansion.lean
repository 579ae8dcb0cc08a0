import Mathlib.Logic.Relation
import TextAdventure.Proofs.Script.Place
import TextAdventure.Proofs.Steps
import TextAdventure.Proofs.Text.Blank
import TextAdventure.Script.Include

/-!
# When a script expands, and to what

A token includes a library if it is a directive `use` whose first argument, without the blanks around
it, is the library's name (`Lexeme.Includes`); this is what the walk reads off its pieces
(`Piece.include?_eq_some_iff`). A library uses another if one of its tokens includes it, and a script
reaches a library through a chain of uses. A script expands if all libraries that it reaches are there
and none of them reaches itself; its expanded text is made of one part for each token, which is the
expanded text of a library for a directive that includes one and the token's own text for all others
(`expand_ofEntries`).

The walk carries the chain of the libraries that it is inside of. What the chain does to one list of
pieces is said once (`expandPieces_eq_ok_iff`); the graph and the walk are then compared by induction on
the number of libraries that are not on the chain. A chain can only forbid: what expands inside a chain
expands to the same text inside a part of it (`expandPieces_of_subset`), so the parts are the expanded
texts of the libraries by themselves.
-/

namespace TextAdventure.Script

/-! ## Uses -/

/-- The first argument of a directive: the text before its first comma, or all of it if there is no
comma. -/
inductive FirstArgument : List Char → List Char → Prop
  | alone {arguments : List Char} (h : ',' ∉ arguments) : FirstArgument arguments arguments
  | parted {first : List Char} (others : List Char) (h : ',' ∉ first) :
    FirstArgument (first ++ ',' :: others) first

/-- A token includes a library: it is a directive `use`, and its first argument without the blanks
around it is the name of the library. -/
inductive Lexeme.Includes : Lexeme → String → Prop
  | use {arguments first : List Char} {name : String} (hfirst : FirstArgument arguments first)
    (hname : Text.Trims first name.toList) : Includes (.directive ['u', 's', 'e'] arguments) name

/-- One of the tokens of a text includes a library. -/
def UsedBy (text : List Char) (name : String) : Prop := ∃ t ∈ tokens text, t.lexeme.Includes name

namespace Library

variable (library : Library)

/-- The text of one library includes another. -/
def Uses (name other : String) : Prop :=
  ∃ text, library.load name = .ok text ∧ UsedBy text other

/-- A library has one of the names to start from, or one of these leads to it. -/
def ReachedFrom (starts : String → Prop) (name : String) : Prop :=
  ∃ first, starts first ∧ Relation.ReflTransGen library.Uses first name

/-- A text includes a library, or a library that leads to it. -/
def Reachable (text : List Char) (name : String) : Prop := library.ReachedFrom (UsedBy text) name

/-- One library leads to another. -/
def Reaches (name other : String) : Prop := Relation.TransGen library.Uses name other

/-- What the token of a script turns into: the expanded text of the library that it includes, or its
own bytes of the script if it includes none. -/
inductive Contributes (source : List Char) (t : Token) : List Char → Prop
  | own {part : List Char} (hnone : ∀ name, ¬ t.lexeme.Includes name)
    (hpart : Utf8.encode part = t.span.slice source) : Contributes source t part
  | included {name : String} {text part : List Char} (hname : t.lexeme.Includes name)
    (htext : library.load name = .ok text) (hpart : expand library text = .ok part) :
    Contributes source t part

variable {library}

/-- What a library reaches is what its text reaches. -/
theorem reaches_iff {name other : String} {text : List Char} (h : library.load name = .ok text) :
    library.Reaches name other ↔ library.Reachable text other := by
  rw [Reaches, Relation.TransGen.head'_iff]
  constructor
  · rintro ⟨first, ⟨text', htext', hfirst⟩, hpath⟩
    cases h.symm.trans htext'
    exact ⟨first, hfirst, hpath⟩
  · rintro ⟨first, hfirst, hpath⟩
    exact ⟨first, ⟨text, h, hfirst⟩, hpath⟩

/-- What a name reaches is the name and what it leads to. -/
theorem reachedFrom_iff {starts : String → Prop} {name : String} : library.ReachedFrom starts name ↔
    ∃ first, starts first ∧ (name = first ∨ library.Reaches first name) := by
  simp only [ReachedFrom, Reaches, Relation.reflTransGen_iff_eq_or_transGen]

end Library

/-- A cut at the first comma finds the first argument. -/
theorem firstArgument_iff {arguments first : List Char} :
    FirstArgument arguments first ↔ first = arguments.takeWhile (· ≠ ',') := by
  constructor
  · intro h
    cases h with
    | alone h =>
      refine (List.takeWhile_eq_self_iff.2 ?_).symm
      intro c hc
      simpa using ne_of_mem_of_not_mem hc h
    | parted others h =>
      have hfirst : ∀ c ∈ first, decide (c ≠ ',') = true := by
        intro c hc
        simpa using ne_of_mem_of_not_mem hc h
      rw [List.takeWhile_append_of_pos hfirst, List.takeWhile_cons_of_neg (by simp), List.append_nil]
  · rintro rfl
    have hnot : ',' ∉ arguments.takeWhile (· ≠ ',') := by
      intro hmem
      simpa using List.mem_takeWhile_imp hmem
    cases hrest : arguments.dropWhile (· ≠ ',') with
    | nil =>
      have harguments := List.takeWhile_append_dropWhile (p := (· ≠ ',')) (l := arguments)
      rw [hrest, List.append_nil] at harguments
      rw [harguments] at hnot ⊢
      exact .alone hnot
    | cons c others =>
      obtain rfl : c = ',' := by
        have hhead := List.head?_dropWhile_not (· ≠ ',') arguments
        rw [hrest] at hhead
        simpa using hhead
      have hparted := FirstArgument.parted others hnot
      rwa [← hrest, List.takeWhile_append_dropWhile] at hparted

/-- The name that is read off the arguments of a directive is the trimmed first one. -/
theorem libraryName_eq_iff {arguments : List Char} {name : String} : libraryName arguments = name ↔
    ∃ first, FirstArgument arguments first ∧ Text.Trims first name.toList := by
  simp only [firstArgument_iff, Text.trims_iff, exists_eq_left]
  constructor
  · rintro rfl
    exact String.toList_ofList
  · intro h
    rw [libraryName, ← h, String.ofList_toList]

/-- The walk finds the library that a token includes. -/
theorem Piece.include?_eq_some_iff {p : Piece} {name : String} :
    p.include? = some name ↔ p.lexeme.Includes name := by
  constructor
  · intro h
    unfold Piece.include? at h
    split at h
    next used arguments hlexeme =>
      split at h
      next hused =>
        obtain ⟨first, hfirst, htrims⟩ := libraryName_eq_iff.1 (Option.some.inj h)
        rw [hlexeme, hused]
        exact .use hfirst htrims
      next => cases h
    next => cases h
  · intro h
    generalize hlexeme : p.lexeme = l at h
    cases h with
    | use hfirst htrims =>
      have hname := libraryName_eq_iff.2 ⟨_, hfirst, htrims⟩
      simp [Piece.include?, hlexeme, hname]

/-- The walk finds no library in a token that includes none. -/
theorem Piece.include?_eq_none_iff {p : Piece} :
    p.include? = none ↔ ∀ name, ¬ p.lexeme.Includes name := by
  simp only [Option.eq_none_iff_forall_ne_some, ne_eq, include?_eq_some_iff]

/-- The libraries that a text uses are those that the walk finds in its pieces. -/
theorem usedBy_iff {text : List Char} {name : String} :
    UsedBy text name ↔ name ∈ (pieces text).filterMap Piece.include? := by
  have htokens : (∃ l ∈ (tokens text).map (·.lexeme), l.Includes name) ↔
      ∃ l ∈ (pieces text).map Piece.lexeme, l.Includes name := by
    rw [map_lexeme_tokens]
  simpa [UsedBy, Piece.include?_eq_some_iff] using htokens

/-- The same, of all libraries at once. -/
theorem usedBy_eq (text : List Char) : UsedBy text = (· ∈ (pieces text).filterMap Piece.include?) :=
  funext fun _ => propext usedBy_iff

/-! ## One list of pieces -/

/-- What a piece turns into while the libraries on the chain are being expanded. -/
def Piece.Yields (library : Library) (chain : List String) (p : Piece) (part : List Char) : Prop :=
  match p.include? with
  | none => part = p.text
  | some name => name ∉ chain ∧ ∃ text, library.load name = .ok text ∧
      expandPieces library (chain ++ [name]) (pieces text) = .ok part

section
variable {library : Library} {chain : List String} {p : Piece} {rest : List Piece}

/-- A piece that includes nothing yields its own text. -/
theorem Piece.yields_of_none (h : p.include? = none) (part : List Char) :
    p.Yields library chain part ↔ part = p.text := by
  rw [Yields, h]

/-- A piece that includes a library off the chain yields the expanded text of the library. -/
theorem Piece.yields_of_some {name : String} (h : p.include? = some name) (part : List Char) :
    p.Yields library chain part ↔ name ∉ chain ∧ ∃ text, library.load name = .ok text ∧
      expandPieces library (chain ++ [name]) (pieces text) = .ok part := by
  rw [Yields, h]

/-- Pieces expand if the first one yields a part and the others expand. -/
theorem expandPieces_cons_eq_ok_iff {out : List Char} :
    expandPieces library chain (p :: rest) = .ok out ↔ ∃ part after,
      p.Yields library chain part ∧ expandPieces library chain rest = .ok after ∧
        out = part ++ after := by
  rw [expandPieces]
  cases hp : p.include? with
  | none =>
    simp only [Piece.yields_of_none hp, Steps.bind_eq_ok_iff]
    constructor
    · rintro ⟨after, hafter, hout⟩
      exact ⟨p.text, after, rfl, hafter, (Except.ok.inj hout).symm⟩
    · rintro ⟨part, after, rfl, hafter, rfl⟩
      exact ⟨after, hafter, rfl⟩
  | some name =>
    simp only [Piece.yields_of_some hp]
    split
    next hc =>
      constructor
      · intro h
        cases h
      · rintro ⟨_, _, ⟨hnot, _⟩, _⟩
        exact absurd hc hnot
    next hc =>
      split
      next e he =>
        constructor
        · intro h
          cases h
        · rintro ⟨_, _, ⟨_, text, htext, _⟩, _⟩
          cases he.symm.trans htext
      next text htext =>
        simp only [Steps.bind_eq_ok_iff]
        constructor
        · rintro ⟨part, hpart, after, hafter, hout⟩
          exact ⟨part, after, ⟨hc, text, htext, hpart⟩, hafter, (Except.ok.inj hout).symm⟩
        · rintro ⟨part, after, ⟨_, text', htext', hpart⟩, hafter, rfl⟩
          cases htext.symm.trans htext'
          exact ⟨part, hpart, after, hafter, rfl⟩

/-- Pieces expand if each yields a part, and the parts are put together in order. -/
theorem expandPieces_eq_ok_iff {ps : List Piece} {out : List Char} :
    expandPieces library chain ps = .ok out ↔
      ∃ parts, List.Forall₂ (Piece.Yields library chain) ps parts ∧ out = parts.flatten := by
  induction ps generalizing out with
  | nil =>
    rw [expandPieces]
    constructor
    · intro h
      exact ⟨[], .nil, (Except.ok.inj h).symm⟩
    · rintro ⟨parts, hparts, rfl⟩
      cases hparts
      rfl
  | cons p ps ih =>
    rw [expandPieces_cons_eq_ok_iff]
    constructor
    · rintro ⟨part, after, hpart, hafter, rfl⟩
      obtain ⟨parts, hparts, rfl⟩ := ih.1 hafter
      exact ⟨part :: parts, .cons hpart hparts, rfl⟩
    · rintro ⟨_, hparts, rfl⟩
      cases hparts with
      | cons hpart hparts => exact ⟨_, _, hpart, ih.2 ⟨_, hparts, rfl⟩, rfl⟩

end

/-- Pieces that include nothing yield their own texts. -/
theorem Piece.forall₂_yields (library : Library) (chain : List String) {ps : List Piece}
    (h : ∀ p ∈ ps, p.include? = none) : List.Forall₂ (Yields library chain) ps (ps.map Piece.text) := by
  rw [List.forall₂_map_right_iff, List.forall₂_same]
  intro p hp
  exact (yields_of_none (h p hp) p.text).2 rfl

/-- A text that includes nothing is expanded to itself. -/
theorem expandPieces_of_include?_eq_none {library : Library} {chain : List String} {text : List Char}
    (h : ∀ p ∈ pieces text, p.include? = none) :
    expandPieces library chain (pieces text) = .ok text := by
  refine expandPieces_eq_ok_iff.2 ⟨_, Piece.forall₂_yields library chain h, ?_⟩
  exact (flatten_pieces text).symm

/-- Pieces of which one includes a library that includes nothing. -/
theorem expand_of_one {library : Library} {source text : List Char} {front back : List Piece}
    {directive : Piece} {name : String} (hpieces : pieces source = front ++ directive :: back)
    (hfront : ∀ p ∈ front, p.include? = none) (hback : ∀ p ∈ back, p.include? = none)
    (hname : directive.include? = some name) (hload : library.load name = .ok text)
    (htext : ∀ p ∈ pieces text, p.include? = none) :
    expand library source =
      .ok (front.flatMap Piece.text ++ (text ++ back.flatMap Piece.text)) := by
  have hdirective : directive.Yields library [] text :=
    (Piece.yields_of_some hname text).2
      ⟨List.not_mem_nil, text, hload, expandPieces_of_include?_eq_none htext⟩
  rw [expand, hpieces]
  refine expandPieces_eq_ok_iff.2 ⟨front.map Piece.text ++ text :: back.map Piece.text, ?_, ?_⟩
  · exact List.rel_append (Piece.forall₂_yields library [] hfront)
      (.cons hdirective (Piece.forall₂_yields library [] hback))
  · simp [List.flatMap_def]

/-! ## The chain -/

/-- Each step down puts a name on the chain that was not there, and there are only so many. -/
theorem Library.induction_on_chain (library : Library) {motive : List String → Prop}
    (step : ∀ chain, (∀ name text, name ∉ chain → library.load name = .ok text →
      motive (chain ++ [name])) → motive chain) (chain : List String) : motive chain := by
  induction hn : library.unused chain using Nat.strongRecOn generalizing chain with
  | _ n ih =>
    subst hn
    refine step chain ?_
    intro name text hc hl
    exact ih _ (library.unused_lt hc (library.mem_of_load hl)) _ rfl

/-- What expands inside a chain expands to the same text inside a part of the chain. -/
theorem expandPieces_of_subset {library : Library} {chain shorter : List String}
    (h : shorter ⊆ chain) {ps : List Piece} {out : List Char}
    (hout : expandPieces library chain ps = .ok out) : expandPieces library shorter ps = .ok out := by
  induction chain using library.induction_on_chain generalizing shorter ps out with
  | step chain ih =>
    obtain ⟨parts, hparts, rfl⟩ := expandPieces_eq_ok_iff.1 hout
    refine expandPieces_eq_ok_iff.2 ⟨parts, hparts.imp ?_, rfl⟩
    intro p part hpart
    cases hp : p.include? with
    | none => exact (Piece.yields_of_none hp part).2 ((Piece.yields_of_none hp part).1 hpart)
    | some name =>
      obtain ⟨hc, text, htext, hinside⟩ := (Piece.yields_of_some hp part).1 hpart
      have hsubset : shorter ++ [name] ⊆ chain ++ [name] :=
        List.append_subset.2 ⟨List.subset_append_of_subset_left _ h, List.subset_append_right _ _⟩
      exact (Piece.yields_of_some hp part).2
        ⟨fun hmem => hc (h hmem), text, htext, ih name text hc htext hsubset hinside⟩

/-- A library can be put in while those on the chain are being expanded. -/
structure Library.Includable (library : Library) (chain : List String) (name : String) : Prop where
  present : ∃ text, library.load name = .ok text
  off_chain : name ∉ chain
  acyclic : ¬ library.Reaches name name

namespace Library.Includable

variable {library : Library} {chain : List String} {name other : String}

/-- What can be put in inside a chain can be put in inside its front. -/
theorem of_append (h : library.Includable (chain ++ [name]) other) : library.Includable chain other :=
  ⟨h.present, fun hmem => h.off_chain (List.mem_append_left _ hmem), h.acyclic⟩

/-- What can be put in inside a chain can be put in behind one more library, unless it is that
library. -/
theorem append (h : library.Includable chain other) (hne : other ≠ name) :
    library.Includable (chain ++ [name]) other := by
  refine ⟨h.present, ?_, h.acyclic⟩
  intro hmem
  rcases List.mem_append.1 hmem with hmem | hmem
  · exact h.off_chain hmem
  · exact hne (List.mem_singleton.1 hmem)

end Library.Includable

section
variable {library : Library}

/-- Every library that expanded pieces reach can be put in. One that is put in is on the chain from
there on, so it does not reach itself. -/
theorem includable_of_expandPieces {chain : List String} {ps : List Piece} {out : List Char}
    (h : expandPieces library chain ps = .ok out) {name : String}
    (hname : library.ReachedFrom (· ∈ ps.filterMap Piece.include?) name) :
    library.Includable chain name := by
  induction chain using library.induction_on_chain generalizing ps out name with
  | step chain ih =>
    obtain ⟨parts, hparts, rfl⟩ := expandPieces_eq_ok_iff.1 h
    obtain ⟨first, hfirst, hpath⟩ := Library.reachedFrom_iff.1 hname
    obtain ⟨p, hp, hinclude⟩ := List.mem_filterMap.1 hfirst
    obtain ⟨part, _, hpart⟩ := Steps.exists_mem_right hparts hp
    obtain ⟨hc, text, htext, hinside⟩ := (Piece.yields_of_some hinclude part).1 hpart
    have hreached : ∀ other, library.Reaches first other →
        library.Includable (chain ++ [first]) other := by
      intro other hother
      rw [Library.reaches_iff htext, Library.Reachable, usedBy_eq] at hother
      exact ih first text hc htext hinside hother
    rcases hpath with rfl | hpath
    · refine ⟨⟨text, htext⟩, hc, ?_⟩
      intro hself
      exact (hreached name hself).off_chain (List.mem_append_right _ List.mem_cons_self)
    · exact (hreached name hpath).of_append

/-- Pieces expand if every library that they reach can be put in. One that does not reach itself is not
met again behind the chain that it is put on. -/
theorem exists_expandPieces {chain : List String} {ps : List Piece}
    (h : ∀ name, library.ReachedFrom (· ∈ ps.filterMap Piece.include?) name →
      library.Includable chain name) : ∃ out, expandPieces library chain ps = .ok out := by
  induction chain using library.induction_on_chain generalizing ps with
  | step chain ih =>
    have hyields : ∀ p ∈ ps, ∃ part, p.Yields library chain part := by
      intro p hp
      cases hinclude : p.include? with
      | none => exact ⟨p.text, (Piece.yields_of_none hinclude _).2 rfl⟩
      | some name =>
        have hmem : name ∈ ps.filterMap Piece.include? := List.mem_filterMap.2 ⟨p, hp, hinclude⟩
        obtain ⟨⟨text, htext⟩, hc, hself⟩ := h name ⟨name, hmem, .refl⟩
        have hinside : ∀ other, library.ReachedFrom (· ∈ (pieces text).filterMap Piece.include?) other →
            library.Includable (chain ++ [name]) other := by
          intro other hother
          rw [← usedBy_eq] at hother
          have hreaches : library.Reaches name other := (Library.reaches_iff htext).2 hother
          refine (h other (Library.reachedFrom_iff.2 ⟨name, hmem, .inr hreaches⟩)).append ?_
          rintro rfl
          exact hself hreaches
        obtain ⟨part, hpart⟩ := ih name text hc htext hinside
        exact ⟨part, (Piece.yields_of_some hinclude part).2 ⟨hc, text, htext, hpart⟩⟩
    obtain ⟨parts, hparts⟩ := Steps.exists_forall₂ hyields
    exact ⟨_, expandPieces_eq_ok_iff.2 ⟨parts, hparts, rfl⟩⟩

/-! ## Scripts -/

/-- A script expands exactly if all libraries that it reaches are there and none reaches itself. -/
theorem exists_expand_iff {source : List Char} : (∃ out, expand library source = .ok out) ↔
    ∀ name, library.Reachable source name →
      (∃ text, library.load name = .ok text) ∧ ¬ library.Reaches name name := by
  rw [expand]
  simp only [Library.Reachable, usedBy_eq]
  constructor
  · rintro ⟨out, hout⟩ name hname
    have h := includable_of_expandPieces hout hname
    exact ⟨h.present, h.acyclic⟩
  · intro h
    refine exists_expandPieces ?_
    intro name hname
    exact ⟨(h name hname).1, List.not_mem_nil, (h name hname).2⟩

/-- A library that expands by itself expands to the same text when it is put in: it does not reach
itself, so its own name on the chain forbids nothing. -/
theorem expandPieces_of_expand {name : String} {text out : List Char}
    (htext : library.load name = .ok text) (h : expand library text = .ok out) :
    expandPieces library [name] (pieces text) = .ok out := by
  have hinside : ∀ other, library.ReachedFrom (· ∈ (pieces text).filterMap Piece.include?) other →
      library.Includable ([] ++ [name]) other := by
    intro other hother
    have hincludable := includable_of_expandPieces h hother
    refine hincludable.append ?_
    rintro rfl
    rw [← usedBy_eq] at hother
    exact hincludable.acyclic ((Library.reaches_iff htext).2 hother)
  obtain ⟨out', hout'⟩ := exists_expandPieces hinside
  have hsame := expandPieces_of_subset (List.nil_subset _) hout'
  rw [expand, hsame] at h
  cases h
  exact hout'

/-- What a token turns into is what its piece yields. -/
theorem contributes_iff {source part : List Char} {t : Token} {p : Piece}
    (h : t.lexeme = p.lexeme ∧ t.span.slice source = Utf8.encode p.text) :
    library.Contributes source t part ↔ p.Yields library [] part := by
  constructor
  · intro ht
    cases ht with
    | own hnone hpart =>
      rw [h.1] at hnone
      rw [Piece.yields_of_none (Piece.include?_eq_none_iff.2 hnone)]
      exact Utf8.encode_injective (hpart.trans h.2)
    | included hname htext hpart =>
      rw [h.1] at hname
      rw [Piece.yields_of_some (Piece.include?_eq_some_iff.2 hname)]
      exact ⟨List.not_mem_nil, _, htext, expandPieces_of_expand htext hpart⟩
  · intro hp
    cases hinclude : p.include? with
    | none =>
      have hnone := Piece.include?_eq_none_iff.1 hinclude
      rw [← h.1] at hnone
      refine .own hnone ?_
      rw [(Piece.yields_of_none hinclude part).1 hp, h.2]
    | some name =>
      have hname := Piece.include?_eq_some_iff.1 hinclude
      rw [← h.1] at hname
      obtain ⟨_, text, htext, hpart⟩ := (Piece.yields_of_some hinclude part).1 hp
      exact .included hname htext (expandPieces_of_subset (List.nil_subset _) hpart)

/-- The expanded text of a script is made of what its tokens turn into. -/
theorem expand_eq_ok_iff {source out : List Char} : expand library source = .ok out ↔
    ∃ parts, List.Forall₂ (library.Contributes source) (tokens source) parts ∧
      out = parts.flatten := by
  rw [expand, expandPieces_eq_ok_iff]
  constructor
  · rintro ⟨parts, hparts, rfl⟩
    refine ⟨parts, Steps.forall₂_trans ?_ (forall₂_slice source) hparts, rfl⟩
    intro t p part hslice
    exact (contributes_iff hslice).2
  · rintro ⟨parts, hparts, rfl⟩
    refine ⟨parts, Steps.forall₂_trans ?_ (forall₂_slice source).flip hparts, rfl⟩
    intro p t part hslice
    exact (contributes_iff hslice).1

end

/-! ## Libraries at hand -/

/-- A library at hand is found by its name. -/
theorem Library.exists_load_ofEntries_iff {entries : List (String × List Char)} {name : String} :
    (∃ text, (ofEntries entries).load name = .ok text) ↔ name ∈ entries.map Prod.fst := by
  constructor
  · rintro ⟨text, htext⟩
    exact (ofEntries entries).mem_of_load htext
  · intro hname
    obtain ⟨entry, hentry, rfl⟩ := List.mem_map.1 hname
    have hfound : (entries.reverse.find? (·.1 = entry.1)).isSome := by
      rw [List.find?_isSome]
      exact ⟨entry, List.mem_reverse.2 hentry, by simp⟩
    obtain ⟨found, hfound⟩ := Option.isSome_iff_exists.1 hfound
    refine ⟨found.2, ?_⟩
    simp only [ofEntries, hfound]

/-- A script expands with libraries at hand exactly if every library that it reaches is among them and
none of those reaches itself. The expanded text is then made of one part for each token, in order: the
bytes of the token, or the expanded text of the library that it includes, each time that it is
included. -/
theorem expand_ofEntries (entries : List (String × List Char)) (source : List Char) :
    ((∃ out, expand (.ofEntries entries) source = .ok out) ↔
      ∀ name, (Library.ofEntries entries).Reachable source name →
        name ∈ entries.map Prod.fst ∧ ¬ (Library.ofEntries entries).Reaches name name) ∧
    ∀ out, expand (.ofEntries entries) source = .ok out ↔
      ∃ parts, List.Forall₂ ((Library.ofEntries entries).Contributes source) (tokens source) parts ∧
        out = parts.flatten := by
  refine ⟨?_, fun out => expand_eq_ok_iff⟩
  rw [exists_expand_iff]
  simp only [Library.exists_load_ofEntries_iff]

/-- The text of a library, with a comment in its last line. -/
def basics : List Char := "verb: look; // the basics".toList

/-- The library alone. -/
def basicsLibrary : Library := .ofEntries [("std", basics)]

/-- The library includes nothing. -/
theorem include?_basics : ∀ p ∈ pieces basics, p.include? = none := by decide +kernel

/-- Blanks around the name of a library do not count, and neither do further arguments. -/
theorem expand_use_with_arguments : UsedBy "&use( std , ignored)".toList "std" ∧
    expand basicsLibrary "&use( std , ignored)".toList = .ok basics ∧
    ¬ basicsLibrary.Reaches "std" "std" := by
  have htokens : tokens "&use( std , ignored)".toList =
      [⟨.directive ['u', 's', 'e'] " std , ignored".toList, ⟨0, 20⟩⟩] := by
    decide +kernel
  have hcomma : ',' ∉ " std ".toList := by decide +kernel
  have hfirst : FirstArgument " std , ignored".toList " std ".toList :=
    .parted " ignored".toList hcomma
  have hincludes : Lexeme.Includes (.directive ['u', 's', 'e'] " std , ignored".toList) "std" :=
    .use hfirst (Text.trims_iff.2 (by decide +kernel))
  have hused : UsedBy "&use( std , ignored)".toList "std" := by
    rw [UsedBy, htokens]
    exact ⟨_, List.mem_cons_self, hincludes⟩
  obtain ⟨hexpands, hparts⟩ := expand_ofEntries [("std", basics)] "&use( std , ignored)".toList
  have hexpand : expand basicsLibrary "&use( std , ignored)".toList = .ok basics := by
    refine (hparts basics).2 ⟨[basics], ?_, List.flatten_singleton.symm⟩
    rw [htokens]
    exact .cons (.included hincludes rfl (expandPieces_of_include?_eq_none include?_basics)) .nil
  exact ⟨hused, hexpand, (hexpands.1 ⟨basics, hexpand⟩ "std" ⟨"std", hused, .refl⟩).2⟩

end TextAdventure.Script
