import TextAdventure.VersionRange
import TextAdventure.Proofs.Text.Numeral

/-!
# Reading undoes printing for versions and ranges

The text of a version is read back as that version (`Version.read_chars`), and the text of a range
as that range (`VersionRange.read_chars`). A version's text consists of digits, points and the
leading `v`, so it holds none of the marks `-` and `+` that give a range its shape. Nothing is asked of
the bounds of a range: a text that is read back belongs to one range only (`read_back_printed`).
-/

namespace TextAdventure

namespace Version

/-- The text of a version holds digits, points and the letter `v`. -/
theorem mem_chars {v : Version} {c : Char} (h : c ∈ v.chars) :
    c = 'v' ∨ c = '.' ∨ Numeral.IsDigit c := by
  simp only [chars, List.mem_cons, List.mem_append] at h
  rcases h with h | h | h | h | h | h
  · exact .inl h
  · exact .inr (.inr (Numeral.isDigit_of_mem_digits h))
  · exact .inr (.inl h)
  · exact .inr (.inr (Numeral.isDigit_of_mem_digits h))
  · exact .inr (.inl h)
  · exact .inr (.inr (Numeral.isDigit_of_mem_digits h))

/-- The text of a version holds no mark of a range. -/
theorem minus_not_mem_chars (v : Version) : '-' ∉ v.chars := fun h => by
  rcases mem_chars h with h | h | h <;> revert h <;> decide

/-- The text of a version does not open a range. -/
theorem plus_not_mem_chars (v : Version) : '+' ∉ v.chars := fun h => by
  rcases mem_chars h with h | h | h <;> revert h <;> decide

/-- The text of a version, cut at its points. -/
theorem splitOn_dropMark_chars (v : Version) : (dropMark v.chars).splitOn '.' =
    [Numeral.digits v.major.toNat, Numeral.digits v.minor.toNat, Numeral.digits v.patch.toNat] := by
  have hpoint : ∀ n, '.' ∉ Numeral.digits n := fun n h =>
    absurd (Numeral.isDigit_of_mem_digits h) (by decide)
  rw [chars, dropMark, List.splitOn_append_cons_self_of_not_mem (hpoint _),
    List.splitOn_append_cons_self_of_not_mem (hpoint _), List.splitOn_eq_singleton (hpoint _)]

/-- The digits of a component are read back. -/
theorem readPart_digits (part : VersionPart) (text : List Char) (n : UInt32) :
    readPart part text (Numeral.digits n.toNat) = .ok n := by
  rw [readPart, Numeral.readWord_digits]
  rfl

/-- The text of a version is read back. -/
theorem read_chars (v : Version) : read v.chars = .ok v := by
  rw [read, splitOn_dropMark_chars]
  simp only [readPart_digits]
  rfl

/-- The printed version is read back. -/
theorem parse_print (v : Version) : parse v.print = .ok v := by
  rw [parse, print, String.toList_ofList, read_chars]

end Version

namespace VersionRange

/-- The text of a range between its two marks. -/
def coreChars (r : VersionRange) : List Char :=
  r.base.chars ++ if r.base = r.top then [] else '-' :: r.top.chars

/-- The text of a range is its core with the marks of the open sides. -/
theorem chars_eq (r : VersionRange) : r.chars =
    (if r.orLower then ['-'] else []) ++ (r.coreChars ++ if r.orHigher then ['+'] else []) := by
  simp only [chars, coreChars, List.append_assoc]

/-- The core of a range's text starts with the mark of a version. -/
theorem coreChars_eq_cons (r : VersionRange) : ∃ rest, r.coreChars = 'v' :: rest :=
  ⟨_, rfl⟩

/-- The mark of the open upper side is no part of the core. -/
theorem plus_not_mem_coreChars (r : VersionRange) : '+' ∉ r.coreChars := by
  intro h
  rcases List.mem_append.1 h with h | h
  · exact r.base.plus_not_mem_chars h
  · split at h
    · cases h
    · rcases List.mem_cons.1 h with h | h
      · exact absurd h (by decide)
      · exact r.top.plus_not_mem_chars h

/-- The mark of the open lower side comes off the text of a range. -/
theorem takeLower_chars (r : VersionRange) :
    takeLower r.chars = (r.orLower, r.coreChars ++ if r.orHigher then ['+'] else []) := by
  obtain ⟨rest, hrest⟩ := r.coreChars_eq_cons
  rw [chars_eq, hrest]
  cases r.orLower <;> rfl

/-- The mark of the open upper side comes off the core of a range's text. -/
theorem takeHigher_coreChars (r : VersionRange) :
    takeHigher (r.coreChars ++ if r.orHigher then ['+'] else []) = (r.orHigher, r.coreChars) := by
  cases r.orHigher with
  | true => simp [takeHigher]
  | false =>
    have hlast : r.coreChars.getLast? ≠ some '+' := fun h =>
      r.plus_not_mem_coreChars (List.mem_of_getLast? h)
    simp [takeHigher, hlast]

/-- The text of a range is read back. -/
theorem read_chars (r : VersionRange) : read r.chars = .ok r := by
  unfold read
  rw [takeLower_chars]
  simp only [takeHigher_coreChars]
  by_cases h : r.base = r.top
  · have hcore : r.coreChars = r.base.chars := by simp [coreChars, h]
    rw [hcore, Text.splitFirst_of_not_mem r.base.minus_not_mem_chars]
    simp only [Version.read_chars]
    have hr : VersionRange.mk r.base r.base r.orHigher r.orLower = r := by
      cases r
      cases h
      rfl
    exact congrArg Except.ok hr
  · have hcore : r.coreChars = r.base.chars ++ '-' :: r.top.chars := by simp [coreChars, h]
    rw [hcore, Text.splitFirst_append _ r.base.minus_not_mem_chars]
    simp only [Version.read_chars]
    rfl

/-- The printed range is read back. -/
theorem parse_print (r : VersionRange) : parse r.print = .ok r := by
  rw [parse, print, String.toList_ofList, read_chars]

/-- Two ranges with one text are one range. -/
theorem print_injective : Function.Injective print := by
  intro r s h
  have hr := r.parse_print
  rw [h, s.parse_print] at hr
  exact (Except.ok.inj hr).symm

/-- Every version and every range is read back from its text, so no two ranges share one. -/
theorem read_back_printed : (∀ v : Version, Version.parse v.print = .ok v) ∧
    (∀ r : VersionRange, parse r.print = .ok r) ∧ Function.Injective print :=
  ⟨Version.parse_print, parse_print, print_injective⟩

end VersionRange

end TextAdventure
