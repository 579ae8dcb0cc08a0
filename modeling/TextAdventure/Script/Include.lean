import TextAdventure.Script.Token

/-!
# Includes

A directive `&use(name)` stands for the text of the library of that name. Expanding a script puts the
expanded text of each library in the place of its directive and leaves all else as it is, other
directives included.

A library that is being expanded is on the chain, and one on the chain is not loaded again. Each step
down takes a name of the library that was not on the chain (`Library.unused_lt`), so expansion ends.
-/

namespace TextAdventure.Script

/-- Why a script cannot be expanded. -/
inductive IncludeError where
  /-- There is no library of this name. -/
  | notFound (name : String)
  /-- The libraries include each other: from the outermost to the one that is repeated. -/
  | cycle (chain : List String)
  /-- The file of a library cannot be read. -/
  | unreadable (path reason : String)

/-- The error in words. -/
def IncludeError.message : IncludeError → String
  | .notFound name => "library \"" ++ name ++ "\" not found"
  | .cycle chain => "include cycle: " ++ String.intercalate " -> " chain
  | .unreadable path reason => "cannot read " ++ path ++ ": " ++ reason

/-- A source of named texts. -/
structure Library where
  /-- Names among which are all those that can be loaded. -/
  names : List String
  load : String → Except IncludeError (List Char)
  mem_of_load : ∀ {name text}, load name = .ok text → name ∈ names

namespace Library

/-- A library of texts that are at hand. Of two entries with one name the later counts. -/
def ofEntries (entries : List (String × List Char)) : Library where
  names := entries.map (·.1)
  load name :=
    match entries.reverse.find? (·.1 = name) with
    | some entry => .ok entry.2
    | none => .error (.notFound name)
  mem_of_load {name text} h := by
    split at h
    next entry he =>
      refine List.mem_map.2 ⟨entry, ?_, ?_⟩
      · simpa using List.mem_of_find?_eq_some he
      · simpa using List.find?_some he
    next => cases h

/-- The number of names that are not on a chain. -/
def unused (library : Library) (chain : List String) : Nat :=
  library.names.countP (· ∉ chain)

/-- A property that holds less often than another, and not of some member, counts less. -/
theorem countP_lt_countP {p q : String → Bool} {name : String} (hp : p name = false)
    (hq : q name = true) (hpq : ∀ b, p b = true → q b = true) :
    ∀ {names : List String}, name ∈ names → names.countP p < names.countP q
  | [], h => by cases h
  | b :: names, h => by
    have le : names.countP p ≤ names.countP q := List.countP_mono_left fun b _ => hpq b
    rw [List.countP_cons, List.countP_cons]
    rcases List.mem_cons.1 h with rfl | h
    · rw [hp, hq, if_pos rfl, if_neg Bool.false_ne_true]
      omega
    · have lt := countP_lt_countP hp hq hpq h
      by_cases hb : p b = true
      · rw [hb, hpq b hb]
        omega
      · rw [if_neg hb]
        omega

/-- One more name on the chain is one less that is unused. -/
theorem unused_lt (library : Library) {chain : List String} {name : String} (hc : name ∉ chain)
    (hn : name ∈ library.names) : library.unused (chain ++ [name]) < library.unused chain := by
  have last : name ∈ chain ++ [name] := List.mem_append_right chain List.mem_cons_self
  exact countP_lt_countP (p := (· ∉ chain ++ [name])) (q := (· ∉ chain))
    (decide_eq_false fun h => h last) (decide_eq_true hc)
    (fun b hb => decide_eq_true fun h => of_decide_eq_true hb (List.mem_append_left [name] h)) hn

end Library

/-- The name of the library that the arguments of a directive ask for: all before the first comma,
without the blanks around it. -/
def libraryName (arguments : List Char) : String :=
  String.ofList (Text.trim (arguments.takeWhile (· ≠ ',')))

/-- The library that a piece stands for. -/
def Piece.include? (p : Piece) : Option String :=
  match p.lexeme with
  | .directive name arguments =>
    if name = ['u', 's', 'e'] then some (libraryName arguments) else none
  | _ => none

/-- The expanded text of pieces, while the libraries on the chain are being expanded. -/
def expandPieces (library : Library) (chain : List String) :
    List Piece → Except IncludeError (List Char)
  | [] => .ok []
  | p :: rest =>
    match p.include? with
    | none => do
      let after ← expandPieces library chain rest
      return p.text ++ after
    | some name =>
      if hc : name ∈ chain then
        .error (.cycle (chain ++ [name]))
      else
        match hl : library.load name with
        | .error e => .error e
        | .ok text => do
          have := library.unused_lt hc (library.mem_of_load hl)
          let inside ← expandPieces library (chain ++ [name]) (pieces text)
          let after ← expandPieces library chain rest
          return inside ++ after
termination_by ps => (library.unused chain, ps.length)

/-- The text of a script with its libraries put in. -/
def expand (library : Library) (source : List Char) : Except IncludeError (List Char) :=
  expandPieces library [] (pieces source)

end TextAdventure.Script
