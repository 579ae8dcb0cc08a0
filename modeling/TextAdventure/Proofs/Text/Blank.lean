import Mathlib.Data.List.DropRight
import TextAdventure.Text.Blank

/-!
# Trimmed texts

A trimmed text neither starts nor ends with a blank, so trimming it again changes nothing
(`trim_trim`). Blanks around a text do not survive trimming (`trim_append_left`, `trim_append_right`),
and a text is the trimmed one between blanks (`exists_trim`), so all that is not blank survives
(`filter_trim`). What trimming finds can be said without it: the text between the blanks around, which
neither begins nor ends with one (`Trims`, `trims_iff`).
-/

namespace TextAdventure.Text

/-- Trimming at the end takes nothing from the front. -/
theorem trim_prefix_trimStart (text : List Char) : trim text <+: trimStart text :=
  List.rdropWhile_prefix isBlank (trimStart text)

/-- Trimming only leaves characters out. -/
theorem trim_sublist (text : List Char) : (trim text).Sublist text :=
  (trim_prefix_trimStart text).sublist.trans (List.dropWhile_sublist isBlank)

/-- A trimmed text does not start with a blank. -/
theorem isBlank_of_trim_eq_cons {text rest : List Char} {c : Char} (h : trim text = c :: rest) :
    isBlank c = false := by
  obtain ⟨more, hmore⟩ := trim_prefix_trimStart text
  have hhead := List.head?_dropWhile_not isBlank text
  rw [show text.dropWhile isBlank = c :: (rest ++ more) by rw [← List.cons_append, ← h, hmore]; rfl]
    at hhead
  exact hhead

/-- A trimmed text does not end with a blank. -/
theorem isBlank_of_trim_eq_append {text front : List Char} {c : Char}
    (h : trim text = front ++ [c]) : isBlank c = false := by
  have hne : (trimStart text).rdropWhile isBlank ≠ [] := by
    intro hnil
    exact List.append_ne_nil_of_right_ne_nil front (List.cons_ne_nil c []) (h.symm.trans hnil)
  have hlast := List.rdropWhile_last_not isBlank (trimStart text) hne
  have hc : ((trimStart text).rdropWhile isBlank).getLast hne = c := by
    rw [List.getLast_congr hne (by simp) h, List.getLast_append_singleton]
  rw [hc] at hlast
  exact Bool.eq_false_iff.2 hlast

/-- A blank in front of a text does not survive trimming. -/
theorem trim_cons_of_isBlank {c : Char} (h : isBlank c = true) (text : List Char) :
    trim (c :: text) = trim text := by
  rw [trim, trimStart, List.dropWhile_cons_of_pos h]
  rfl

section
variable {blanks : List Char} (hblanks : ∀ c ∈ blanks, isBlank c = true)
include hblanks

/-- Blanks in front of a text do not survive trimming. -/
theorem trim_append_left (text : List Char) : trim (blanks ++ text) = trim text := by
  rw [trim, trimStart, List.dropWhile_append_of_pos hblanks]
  rfl

/-- Blanks behind a text do not survive trimming at the end. -/
theorem trimEnd_append (text : List Char) : trimEnd (text ++ blanks) = trimEnd text := by
  have hreverse : ∀ c ∈ blanks.reverse, isBlank c = true := by
    intro c hc
    exact hblanks c (List.mem_reverse.1 hc)
  rw [trimEnd, List.reverse_append, List.dropWhile_append_of_pos hreverse]
  rfl

/-- Blanks behind a text do not survive trimming. -/
theorem trim_append_right (text : List Char) : trim (text ++ blanks) = trim text := by
  rw [trim, trim, trimStart, List.dropWhile_append]
  split
  next hempty =>
    have htext : trimStart text = [] := List.isEmpty_iff.1 hempty
    rw [List.dropWhile_eq_nil_iff.2 hblanks, htext]
  next => exact trimEnd_append hblanks _

end

/-- A text is the one that is trimmed at the end, and blanks. -/
theorem exists_trimEnd (text : List Char) :
    ∃ trail, text = trimEnd text ++ trail ∧ ∀ c ∈ trail, isBlank c = true := by
  refine ⟨(text.reverse.takeWhile isBlank).reverse, ?_, ?_⟩
  · rw [trimEnd, ← List.reverse_append, List.takeWhile_append_dropWhile, List.reverse_reverse]
  · intro c hc
    exact List.mem_takeWhile_imp (List.mem_reverse.1 hc)

/-- A text is the trimmed one between blanks. -/
theorem exists_trim (text : List Char) : ∃ lead trail, text = lead ++ trim text ++ trail ∧
    (∀ c ∈ lead, isBlank c = true) ∧ ∀ c ∈ trail, isBlank c = true := by
  obtain ⟨trail, htrail, hblank⟩ := exists_trimEnd (trimStart text)
  refine ⟨text.takeWhile isBlank, trail, ?_, fun c hc => List.mem_takeWhile_imp hc, hblank⟩
  calc text = text.takeWhile isBlank ++ trimStart text := List.takeWhile_append_dropWhile.symm
    _ = text.takeWhile isBlank ++ trim text ++ trail := by rw [List.append_assoc, trim, ← htrail]

/-- A text and what is left of it without the blanks around it, which neither begins nor ends with a
blank. -/
structure Trims (text core : List Char) : Prop where
  exists_blanks : ∃ lead trail, text = lead ++ core ++ trail ∧
    (∀ c ∈ lead, isBlank c = true) ∧ ∀ c ∈ trail, isBlank c = true
  head : ∀ c rest, core = c :: rest → isBlank c = false
  last : ∀ front c, core = front ++ [c] → isBlank c = false

/-- A text between no blanks is already trimmed. -/
theorem trim_eq_self {text : List Char} (hhead : ∀ c rest, text = c :: rest → isBlank c = false)
    (hlast : ∀ front c, text = front ++ [c] → isBlank c = false) : trim text = text := by
  obtain ⟨lead, trail, htext, hlead, htrail⟩ := exists_trim text
  have hlead_nil : lead = [] := by
    cases lead with
    | nil => rfl
    | cons c lead =>
      have hblank := hlead c List.mem_cons_self
      rw [hhead c _ htext] at hblank
      cases hblank
  have htrail_nil : trail = [] := by
    rcases trail.eq_nil_or_concat' with hnil | ⟨front, c, rfl⟩
    · exact hnil
    · have hblank := htrail c (List.mem_append_right _ List.mem_cons_self)
      rw [hlast _ c (htext.trans (List.append_assoc _ _ _).symm)] at hblank
      cases hblank
  rw [hlead_nil, htrail_nil, List.nil_append, List.append_nil] at htext
  exact htext.symm

/-- Trimming a trimmed text changes nothing. -/
theorem trim_trim (text : List Char) : trim (trim text) = trim text :=
  trim_eq_self (fun _ _ => isBlank_of_trim_eq_cons) fun _ _ => isBlank_of_trim_eq_append

/-- Trimming finds what is left without the blanks around a text, and there is nothing else to find. -/
theorem trims_iff {text core : List Char} : Trims text core ↔ core = trim text := by
  constructor
  · rintro ⟨⟨lead, trail, rfl, hlead, htrail⟩, hhead, hlast⟩
    rw [trim_append_right htrail, trim_append_left hlead, trim_eq_self hhead hlast]
  · rintro rfl
    exact ⟨exists_trim text, fun _ _ => isBlank_of_trim_eq_cons, fun _ _ => isBlank_of_trim_eq_append⟩

/-- Trimming at the end first makes no difference. -/
theorem trim_trimEnd (text : List Char) : trim (trimEnd text) = trim text := by
  obtain ⟨trail, htext, htrail⟩ := exists_trimEnd text
  calc trim (trimEnd text) = trim (trimEnd text ++ trail) := (trim_append_right htrail _).symm
    _ = trim text := by rw [← htext]

/-- Behind a character that is not blank, only the blanks at the end go. -/
theorem trim_cons_of_not_isBlank {c : Char} (h : isBlank c = false) (text : List Char) :
    trim (c :: text) = c :: trimEnd text := by
  have hstart : trimStart (c :: text) = c :: text := List.dropWhile_cons_of_neg (by simp [h])
  rw [trim, hstart, trimEnd, trimEnd, List.reverse_cons, List.dropWhile_append]
  split
  next hempty => simp [List.isEmpty_iff.1 hempty, h]
  next => rw [List.reverse_append, List.reverse_singleton, List.singleton_append]

/-- Nothing is left by trimming exactly if all characters are blank. -/
theorem trim_eq_nil_iff {text : List Char} : trim text = [] ↔ ∀ c ∈ text, isBlank c = true := by
  constructor
  · intro h
    obtain ⟨lead, trail, htext, hlead, htrail⟩ := exists_trim text
    rw [htext, h, List.append_nil]
    exact List.forall_mem_append.2 ⟨hlead, htrail⟩
  · intro h
    have hnil := trim_append_left h []
    rwa [List.append_nil] at hnil

/-- Whatever keeps no blanks does not tell a text from the trimmed one. -/
theorem filter_trim {keep : Char → Bool} (hkeep : ∀ c, isBlank c = true → keep c = false)
    (text : List Char) : (trim text).filter keep = text.filter keep := by
  have hblanks : ∀ blanks : List Char, (∀ c ∈ blanks, isBlank c = true) → blanks.filter keep = [] := by
    intro blanks h
    refine List.filter_eq_nil_iff.2 fun c hc => ?_
    rw [hkeep c (h c hc)]
    exact Bool.false_ne_true
  obtain ⟨lead, trail, htext, hlead, htrail⟩ := exists_trim text
  calc (trim text).filter keep
      = (lead ++ trim text ++ trail).filter keep := by
        rw [List.filter_append, List.filter_append, hblanks lead hlead, hblanks trail htrail,
          List.nil_append, List.append_nil]
    _ = text.filter keep := by rw [← htext]

end TextAdventure.Text
