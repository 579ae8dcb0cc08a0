import Mathlib.Data.List.Dedup
import Mathlib.Data.List.Perm.Subperm
import TextAdventure.Proofs.Script.Expansion

/-!
# How deep includes go, and what stops them

Nothing gets smaller when a library is put in: its text may be longer than the script, and libraries may
include each other in any way. What is bounded is the chain of the libraries that are open at a time. A
library is opened only if it is there and not open already (`Library.OpenChain.append`), so a chain never
has more names than the library has entries (`Library.OpenChain.length_le`), and a walk that may open no
more than so many at a time finds what `expand` finds (`expandWithin_eq`).

Each name that the walk meets is used by the library that it met it in, and so on up to the script
(`Library.Trail`). Whatever stops the walk is therefore no artefact of it: a cycle that is reported is one
of the libraries' own, and a library that is missed is asked for (`stops_of_expand`). With libraries at
hand nothing else stops it, and either of the two does (`expand_ofEntries_eq_error_iff`).
-/

namespace TextAdventure.Script

variable {library : Library} {chain : List String}

/-! ## One piece -/

section
variable {p : Piece} {rest : List Piece} {name : String}

/-- A piece that includes nothing is kept. -/
theorem expandPieces_of_none (h : p.include? = none) :
    expandPieces library chain (p :: rest) =
      (expandPieces library chain rest).map (p.text ++ ·) := by
  rw [expandPieces, h]
  cases expandPieces library chain rest <;> rfl

/-- A piece that includes a library on the chain is a cycle. -/
theorem expandPieces_of_mem (h : p.include? = some name) (hc : name ∈ chain) :
    expandPieces library chain (p :: rest) = .error (.cycle (chain ++ [name])) := by
  rw [expandPieces, h]
  exact dif_pos hc

/-- A piece that includes a library that cannot be loaded fails with the reason. -/
theorem expandPieces_of_load_error {e : IncludeError} (h : p.include? = some name)
    (hc : name ∉ chain) (hl : library.load name = .error e) :
    expandPieces library chain (p :: rest) = .error e := by
  rw [expandPieces, h]
  simp only [dif_neg hc]
  split
  next e' he' =>
    cases hl.symm.trans he'
    rfl
  next text htext => cases hl.symm.trans htext

/-- A piece that includes a library is replaced by its expanded text. -/
theorem expandPieces_of_load {text : List Char} (h : p.include? = some name) (hc : name ∉ chain)
    (hl : library.load name = .ok text) :
    expandPieces library chain (p :: rest) =
      expandPieces library (chain ++ [name]) (pieces text) >>= fun inside =>
        (expandPieces library chain rest).map (inside ++ ·) := by
  rw [expandPieces, h]
  simp only [dif_neg hc]
  split
  next e he => cases hl.symm.trans he
  next text' htext' =>
    cases hl.symm.trans htext'
    cases expandPieces library (chain ++ [name]) (pieces text) with
    | error e => rfl
    | ok inside => cases expandPieces library chain rest <;> rfl

end

/-! ## Open libraries -/

/-- The library has a text of this name. -/
def Library.Has (library : Library) (name : String) : Prop := ∃ text, library.load name = .ok text

/-- Libraries that can be open at a time: each is there and none is opened twice. -/
structure Library.OpenChain (library : Library) (chain : List String) : Prop where
  nodup : chain.Nodup
  has : ∀ name ∈ chain, library.Has name

namespace Library.OpenChain

/-- At the beginning nothing is open. -/
theorem nil : library.OpenChain [] where
  nodup := List.nodup_nil
  has := by simp

/-- One more library is opened. -/
theorem append (h : library.OpenChain chain) {name : String} (hc : name ∉ chain)
    (hname : library.Has name) : library.OpenChain (chain ++ [name]) where
  nodup := List.nodup_append.2 ⟨h.nodup, List.nodup_singleton name, by
    intro a ha b hb hab
    rw [List.mem_singleton] at hb
    exact hc (hb ▸ hab ▸ ha)⟩
  has := by
    intro other hother
    rcases List.mem_append.1 hother with hother | hother
    · exact h.has other hother
    · rw [List.mem_singleton.1 hother]
      exact hname

/-- No more libraries are open than there are names of libraries. -/
theorem length_le (h : library.OpenChain chain) : chain.length ≤ library.names.dedup.length := by
  have hsubset : chain ⊆ library.names.dedup := by
    intro name hname
    obtain ⟨text, htext⟩ := h.has name hname
    exact List.mem_dedup.2 (library.mem_of_load htext)
  exact (List.subperm_of_subset h.nodup hsubset).length_le

end Library.OpenChain

/-! ## Levels -/

/-- What `expandPieces` finds if it may open no more than a number of libraries inside each other, or
`none` if it would have to open more. -/
def expandWithin (library : Library) (levels : Nat) (chain : List String) :
    List Piece → Option (Except IncludeError (List Char))
  | [] => some (.ok [])
  | p :: rest =>
    match p.include? with
    | none => (expandWithin library levels chain rest).map (Except.map (p.text ++ ·))
    | some name =>
      if name ∈ chain then
        some (.error (.cycle (chain ++ [name])))
      else
        match library.load name, levels with
        | .error e, _ => some (.error e)
        | .ok _, 0 => none
        | .ok text, levels + 1 =>
          (expandWithin library levels (chain ++ [name]) (pieces text)).bind fun
            | .error e => some (.error e)
            | .ok inside =>
              (expandWithin library (levels + 1) chain rest).map (Except.map (inside ++ ·))
termination_by ps => (levels, ps.length)

/-- With a level for each name that is not open, no limit is met. A chain with one more name would
be longer than there are names. -/
theorem expandWithin_eq {levels : Nat} (hopen : library.OpenChain chain)
    (hlevels : library.names.dedup.length ≤ chain.length + levels) (ps : List Piece) :
    expandWithin library levels chain ps = some (expandPieces library chain ps) := by
  fun_induction expandWithin library levels chain ps with
  | case1 => rw [expandPieces]
  | case2 levels chain p rest hp ih =>
    rw [ih hopen hlevels, expandPieces_of_none hp]
    rfl
  | case3 levels chain p rest name hp hc => rw [expandPieces_of_mem hp hc]
  | case4 levels chain p rest name hp hc e hl => rw [expandPieces_of_load_error hp hc hl]
  | case5 chain p rest name hp hc text hl =>
    have hlength := (hopen.append hc ⟨text, hl⟩).length_le
    rw [List.length_append, List.length_singleton] at hlength
    omega
  | case6 chain p rest name hp hc text levels hl ihInside ihRest =>
    have hdeeper : library.names.dedup.length ≤ (chain ++ [name]).length + levels := by
      rw [List.length_append, List.length_singleton]
      omega
    rw [ihInside (hopen.append hc ⟨text, hl⟩) hdeeper, ihRest hopen hlevels,
      expandPieces_of_load hp hc hl]
    cases expandPieces library (chain ++ [name]) (pieces text) <;> rfl

/-! ## What stops the walk -/

/-- A way from a script to a library: the script uses the first library of the chain, each of them uses
the next, and the last one uses the library. -/
inductive Library.Trail (library : Library) (source : List Char) : List String → String → Prop
  | start {name : String} (h : UsedBy source name) : Trail library source [] name
  | step {chain : List String} {name other : String} (h : Trail library source chain name)
    (huses : library.Uses name other) : Trail library source (chain ++ [name]) other

/-- A way to a library shows that it is reached. -/
theorem Library.Trail.reachable {source : List Char} {name : String}
    (h : library.Trail source chain name) : library.Reachable source name := by
  induction h with
  | start h => exact ⟨_, h, .refl⟩
  | step _ huses ih =>
    obtain ⟨first, hfirst, hpath⟩ := ih
    exact ⟨first, hfirst, hpath.tail huses⟩

/-- Each library on the way leads to the one at its end. -/
theorem Library.Trail.reaches {source : List Char} {name other : String}
    (h : library.Trail source chain name) (hother : other ∈ chain) : library.Reaches other name := by
  induction h with
  | start => cases hother
  | step _ huses ih =>
    rcases List.mem_append.1 hother with hother | hother
    · exact (ih hother).tail huses
    · rw [List.mem_singleton.1 hother]
      exact .single huses

/-- A cycle of includes that a script leads to: distinct libraries that are there, each of which uses the
next, and the last of them uses one of them again. -/
structure Library.Cycle (library : Library) (source : List Char) (names : List String)
    (again : String) : Prop where
  nodup : names.Nodup
  has : ∀ name ∈ names, library.Has name
  mem : again ∈ names
  trail : library.Trail source names again

/-- Why a script cannot be expanded. -/
inductive Library.Stops (library : Library) (source : List Char) : IncludeError → Prop
  | cycle {names : List String} {again : String} (h : library.Cycle source names again) :
    Stops library source (.cycle (names ++ [again]))
  | load {name : String} {e : IncludeError} (hname : library.Reachable source name)
    (hload : library.load name = .error e) : Stops library source e

/-- Why a library cannot be put in while those on the chain are open. -/
inductive Library.Refuses (library : Library) (chain : List String) (name : String) :
    IncludeError → Prop
  | again (hc : name ∈ chain) : Refuses library chain name (.cycle (chain ++ [name]))
  | load {e : IncludeError} (hc : name ∉ chain) (hl : library.load name = .error e) :
    Refuses library chain name e
  | inside {e : IncludeError} {text : List Char} (hc : name ∉ chain)
    (hl : library.load name = .ok text)
    (he : expandPieces library (chain ++ [name]) (pieces text) = .error e) :
    Refuses library chain name e

/-- Pieces that do not expand hold a library that cannot be put in. It is the first piece, or one of
the others if the first one is put in. -/
theorem exists_refuses {ps : List Piece} {e : IncludeError}
    (h : expandPieces library chain ps = .error e) :
    ∃ name ∈ ps.filterMap Piece.include?, library.Refuses chain name e := by
  induction ps with
  | nil =>
    rw [expandPieces] at h
    cases h
  | cons p ps ih =>
    have hlater (hrest : expandPieces library chain ps = .error e) :
        ∃ name ∈ (p :: ps).filterMap Piece.include?, library.Refuses chain name e := by
      obtain ⟨name, hname, hrefuses⟩ := ih hrest
      obtain ⟨q, hq, hinclude⟩ := List.mem_filterMap.1 hname
      exact ⟨name, List.mem_filterMap.2 ⟨q, List.mem_cons_of_mem p hq, hinclude⟩, hrefuses⟩
    cases hp : p.include? with
    | none =>
      rw [expandPieces_of_none hp] at h
      exact hlater (Steps.map_eq_error_iff.1 h)
    | some name =>
      have hname : name ∈ (p :: ps).filterMap Piece.include? :=
        List.mem_filterMap.2 ⟨p, List.mem_cons_self, hp⟩
      by_cases hc : name ∈ chain
      · rw [expandPieces_of_mem hp hc] at h
        cases h
        exact ⟨name, hname, .again hc⟩
      · cases hl : library.load name with
        | error e' =>
          rw [expandPieces_of_load_error hp hc hl] at h
          cases h
          exact ⟨name, hname, .load hc hl⟩
        | ok text =>
          rw [expandPieces_of_load hp hc hl] at h
          rcases Steps.bind_eq_error_iff.1 h with hinside | ⟨inside, _, hrest⟩
          · exact ⟨name, hname, .inside hc hl hinside⟩
          · exact hlater (Steps.map_eq_error_iff.1 hrest)

/-- What stops the walk inside a chain is so, if the chain is one that a script leads along. -/
theorem stops_of_expandPieces {source : List Char} {ps : List Piece} {e : IncludeError}
    (hopen : library.OpenChain chain)
    (htrail : ∀ name ∈ ps.filterMap Piece.include?, library.Trail source chain name)
    (h : expandPieces library chain ps = .error e) : library.Stops source e := by
  induction chain using library.induction_on_chain generalizing ps with
  | step chain ih =>
    obtain ⟨name, hname, hrefuses⟩ := exists_refuses h
    have hway := htrail name hname
    cases hrefuses with
    | again hc => exact .cycle ⟨hopen.nodup, hopen.has, hc, hway⟩
    | load hc hl => exact .load hway.reachable hl
    | inside hc hl he =>
      refine ih name _ hc hl (hopen.append hc ⟨_, hl⟩) ?_ he
      intro other hother
      exact hway.step ⟨_, hl, usedBy_iff.2 hother⟩

/-- A script that does not expand leads to a cycle or to a library that cannot be loaded. -/
theorem stops_of_expand {source : List Char} {e : IncludeError} (h : expand library source = .error e) :
    library.Stops source e := by
  refine stops_of_expandPieces .nil ?_ h
  intro name hname
  exact .start (usedBy_iff.2 hname)

/-! ## Libraries at hand -/

section
variable {entries : List (String × List Char)} {source : List Char} {name : String}

/-- With libraries at hand, loading fails only for a name that is not among them. -/
theorem Library.load_ofEntries_error {e : IncludeError} (h : (ofEntries entries).load name = .error e) :
    e = .notFound name ∧ name ∉ entries.map Prod.fst := by
  constructor
  · simp only [ofEntries] at h
    split at h
    · cases h
    · exact (Except.error.inj h).symm
  · rw [← exists_load_ofEntries_iff]
    rintro ⟨text, htext⟩
    cases h.symm.trans htext

/-- A script fails to expand exactly if it leads to a cycle or to a library that is not at hand. -/
theorem expand_ofEntries_eq_error_iff : (∃ e, expand (.ofEntries entries) source = .error e) ↔
    (∃ names again, (Library.ofEntries entries).Cycle source names again) ∨
    ∃ name, (Library.ofEntries entries).Reachable source name ∧ name ∉ entries.map Prod.fst := by
  constructor
  · rintro ⟨e, h⟩
    cases stops_of_expand h with
    | cycle hcycle => exact .inl ⟨_, _, hcycle⟩
    | load hname hload => exact .inr ⟨_, hname, (Library.load_ofEntries_error hload).2⟩
  · intro h
    rw [Steps.exists_error_iff]
    intro out hout
    have hreached := exists_expand_iff.1 ⟨out, hout⟩
    rcases h with ⟨names, again, hcycle⟩ | ⟨name, hname, hmissing⟩
    · exact (hreached again hcycle.trail.reachable).2 (hcycle.trail.reaches hcycle.mem)
    · exact hmissing (Library.exists_load_ofEntries_iff.1 (hreached name hname).1)

end

/-- With libraries at hand, expansion never has more of them open inside each other than there are
different names among them. A cycle that it reports is one that the script leads to, and a library that
it does not find is not among them and is one that the script reaches; if there is such a cycle or such a
library, it reports one. -/
theorem expand_stops_ofEntries (entries : List (String × List Char)) (source : List Char) :
    expandWithin (.ofEntries entries) (entries.map Prod.fst).dedup.length [] (pieces source) =
      some (expand (.ofEntries entries) source) ∧
    (∀ chain, expand (.ofEntries entries) source = .error (.cycle chain) →
      ∃ names again, chain = names ++ [again] ∧
        (Library.ofEntries entries).Cycle source names again) ∧
    (∀ name, expand (.ofEntries entries) source = .error (.notFound name) →
      name ∉ entries.map Prod.fst ∧ (Library.ofEntries entries).Reachable source name) ∧
    ((∃ e, expand (.ofEntries entries) source = .error e) ↔
      (∃ names again, (Library.ofEntries entries).Cycle source names again) ∨
      ∃ name, (Library.ofEntries entries).Reachable source name ∧
        name ∉ entries.map Prod.fst) := by
  refine ⟨?_, ?_, ?_, expand_ofEntries_eq_error_iff⟩
  · exact expandWithin_eq .nil (Nat.le_add_left _ _) (pieces source)
  · intro chain h
    cases stops_of_expand h with
    | cycle hcycle => exact ⟨_, _, rfl, hcycle⟩
    | load _ hload => cases (Library.load_ofEntries_error hload).1
  · intro name h
    cases stops_of_expand h with
    | load hname hload =>
      obtain ⟨hfound, hmissing⟩ := Library.load_ofEntries_error hload
      cases hfound
      exact ⟨hmissing, hname⟩

end TextAdventure.Script
