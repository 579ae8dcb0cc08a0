import TextAdventure.VersionRange
import TextAdventure.Proofs.Steps
import TextAdventure.Proofs.Text.Numeral

/-!
# Which texts are versions and ranges

A version is read from exactly the texts of its grammar (`Version.read_eq_ok_iff`): three numerals joined
by points, with the mark `v` before them or not. A range is read from two such texts joined by `-`, or
from one, with a `-` before them if the range is open below and a `+` behind them if it is open above.

In the text of a range both signs have two meanings, and its marks come off before anything else is known
about it. That finds the one wording of the text (`VersionRange.Wording.Denotes.ofText_text`), because
the text of a version holds no `-` and ends in a digit, so it neither starts with a mark of the range nor
ends in one.
-/

namespace TextAdventure

namespace Version

/-- Three numerals joined by points. -/
def DenotesParts (text : List Char) (v : Version) : Prop :=
  ∃ major minor patch, text = major ++ '.' :: (minor ++ '.' :: patch) ∧
    Numeral.Denotes major v.major.toNat ∧ Numeral.Denotes minor v.minor.toNat ∧
    Numeral.Denotes patch v.patch.toNat

/-- The texts of a version: its components, with the mark before them or not. -/
inductive Denotes : List Char → Version → Prop
  | bare {text : List Char} {v : Version} (h : DenotesParts text v) : Denotes text v
  | marked {text : List Char} {v : Version} (h : DenotesParts text v) : Denotes ('v' :: text) v

/-! ## Characters of a version -/

/-- The components consist of digits, points and signs. -/
theorem DenotesParts.mem {text : List Char} {v : Version} (h : DenotesParts text v) {c : Char}
    (hc : c ∈ text) : c = '+' ∨ c = '.' ∨ Numeral.IsDigit c := by
  obtain ⟨major, minor, patch, rfl, hmajor, hminor, hpatch⟩ := h
  simp only [List.mem_append, List.mem_cons] at hc
  rcases hc with hc | hc | hc | hc | hc
  · exact (hmajor.mem hc).imp_right .inr
  · exact .inr (.inl hc)
  · exact (hminor.mem hc).imp_right .inr
  · exact .inr (.inl hc)
  · exact (hpatch.mem hc).imp_right .inr

/-- There is no mark of a version among the components. -/
theorem DenotesParts.dropMark_eq {text : List Char} {v : Version} (h : DenotesParts text v) :
    dropMark text = text := by
  unfold dropMark
  split
  next rest =>
    rcases h.mem List.mem_cons_self with hc | hc | hc <;> exact absurd hc (by decide)
  next => rfl

/-- A leading mark does not matter to what a text denotes. -/
theorem denotes_iff {text : List Char} {v : Version} :
    Denotes text v ↔ DenotesParts (dropMark text) v := by
  constructor
  · intro h
    cases h with
    | bare h => rwa [h.dropMark_eq]
    | marked h => exact h
  · intro h
    unfold dropMark at h
    split at h
    · exact .marked h
    · exact .bare h

/-- The text of a version holds no `-`. -/
theorem Denotes.minus_not_mem {text : List Char} {v : Version} (h : Denotes text v) : '-' ∉ text := by
  have hparts {text : List Char} (h : DenotesParts text v) : '-' ∉ text := by
    intro hc
    rcases h.mem hc with hc | hc | hc <;> exact absurd hc (by decide)
  cases h with
  | bare h => exact hparts h
  | marked h => exact List.not_mem_cons_of_ne_of_not_mem (by decide) (hparts h)

/-- The text of a version ends in a digit. -/
theorem Denotes.exists_last {text : List Char} {v : Version} (h : Denotes text v) :
    ∃ front c, text = front ++ [c] ∧ Numeral.IsDigit c := by
  have hparts {text : List Char} (h : DenotesParts text v) :
      ∃ front c, text = front ++ [c] ∧ Numeral.IsDigit c := by
    obtain ⟨major, minor, patch, rfl, _, _, hpatch⟩ := h
    obtain ⟨front, c, rfl, hc⟩ := hpatch.exists_last
    exact ⟨major ++ '.' :: (minor ++ '.' :: front), c, by simp, hc⟩
  cases h with
  | bare h => exact hparts h
  | marked h =>
    obtain ⟨front, c, rfl, hc⟩ := hparts h
    exact ⟨'v' :: front, c, rfl, hc⟩

/-! ## Reading a version -/

/-- A component is read from the numerals that denote it. -/
theorem readPart_eq_ok_iff {part : VersionPart} {text raw : List Char} {n : UInt32} :
    readPart part text raw = .ok n ↔ Numeral.Denotes raw n.toNat := by
  rw [← Numeral.readWord_eq_ok_iff, readPart]
  cases Numeral.readWord raw <;> simp [Except.mapError]

/-- Three parts that a text is cut into at its points. -/
theorem eq_append_of_splitOn {text major minor patch : List Char}
    (h : text.splitOn '.' = [major, minor, patch]) :
    text = major ++ '.' :: (minor ++ '.' :: patch) := by
  have htext : ['.'].intercalate (text.splitOn '.') = text := List.intercalate_splitOn '.'
  rw [h] at htext
  simpa [List.intercalate] using htext.symm

/-- A version is read from the texts of its grammar and from no others. -/
theorem read_eq_ok_iff {text : List Char} {v : Version} : read text = .ok v ↔ Denotes text v := by
  rw [denotes_iff, read]
  constructor
  · intro h
    split at h
    next major minor patch hsplit =>
      obtain ⟨n₁, hmajor, h⟩ := Steps.bind_eq_ok_iff.1 h
      obtain ⟨n₂, hminor, h⟩ := Steps.bind_eq_ok_iff.1 h
      obtain ⟨n₃, hpatch, h⟩ := Steps.bind_eq_ok_iff.1 h
      cases h
      exact ⟨major, minor, patch, eq_append_of_splitOn hsplit, readPart_eq_ok_iff.1 hmajor,
        readPart_eq_ok_iff.1 hminor, readPart_eq_ok_iff.1 hpatch⟩
    next => cases h
  · rintro ⟨major, minor, patch, htext, hmajor, hminor, hpatch⟩
    have hpoint {raw : List Char} {n : Nat} (h : Numeral.Denotes raw n) : '.' ∉ raw := by
      intro hc
      rcases h.mem hc with hc | hc <;> exact absurd hc (by decide)
    have hsplit : (dropMark text).splitOn '.' = [major, minor, patch] := by
      rw [htext, List.splitOn_append_cons_self_of_not_mem (hpoint hmajor),
        List.splitOn_append_cons_self_of_not_mem (hpoint hminor),
        List.splitOn_eq_singleton (hpoint hpatch)]
    rw [hsplit]
    simp only [readPart_eq_ok_iff.2 hmajor, readPart_eq_ok_iff.2 hminor,
      readPart_eq_ok_iff.2 hpatch]
    rfl

end Version

namespace VersionRange

/-! ## Marks -/

/-- The mark in front and what is behind it are the text. -/
theorem append_takeLower (text : List Char) :
    (if (takeLower text).1 then ['-'] else []) ++ (takeLower text).2 = text := by
  unfold takeLower
  split <;> rfl

/-- The mark at the end and what is before it are the text. -/
theorem append_takeHigher (text : List Char) :
    (takeHigher text).2 ++ (if (takeHigher text).1 then ['+'] else []) = text := by
  unfold takeHigher
  split
  next hlast => exact List.dropLast_append_getLast? '+' hlast
  next => exact List.append_nil text

/-- The mark before a text comes off, and no more if the text starts with none. -/
theorem takeLower_append {mark : Bool} {text : List Char} (h : text.head? ≠ some '-') :
    takeLower ((if mark then ['-'] else []) ++ text) = (mark, text) := by
  cases mark with
  | true => rfl
  | false =>
    change takeLower text = (false, text)
    unfold takeLower
    split
    next => exact absurd rfl h
    next => rfl

/-- The mark behind a text comes off, and no more if the text ends in none. -/
theorem takeHigher_append {mark : Bool} {text : List Char} (h : text.getLast? ≠ some '+') :
    takeHigher (text ++ if mark then ['+'] else []) = (mark, text) := by
  cases mark with
  | true => simp [takeHigher]
  | false => simp [takeHigher, h]

/-! ## Wordings -/

/-- The parts that the text of a range is made of. -/
structure Wording where
  /-- There is a `-` before all else. -/
  orLower : Bool
  /-- The text of the first version. -/
  base : List Char
  /-- The text of a second version, behind a `-`. -/
  top : Option (List Char)
  /-- There is a `+` behind all else. -/
  orHigher : Bool

namespace Wording

/-- The versions of a wording, without the marks around them. -/
def core (w : Wording) : List Char :=
  match w.top with
  | none => w.base
  | some top => w.base ++ '-' :: top

/-- The text of a wording. -/
def text (w : Wording) : List Char :=
  (if w.orLower then ['-'] else []) ++ (w.core ++ if w.orHigher then ['+'] else [])

/-- A wording of a range: its parts are the texts of versions, and of one version if there is no second
one. -/
structure Denotes (w : Wording) (r : VersionRange) : Prop where
  base : Version.Denotes w.base r.base
  top : match w.top with
    | none => r.top = r.base
    | some top => Version.Denotes top r.top
  orLower : r.orLower = w.orLower
  orHigher : r.orHigher = w.orHigher

/-- Reads the versions of a wording. -/
def read (w : Wording) : Except FormatError VersionRange := do
  let base ← Version.read w.base
  match w.top with
  | none => return ⟨base, base, w.orHigher, w.orLower⟩
  | some top =>
    let top ← Version.read top
    return ⟨base, top, w.orHigher, w.orLower⟩

/-- A range is read from the wordings that denote it and from no others. -/
theorem read_eq_ok_iff {w : Wording} {r : VersionRange} : w.read = .ok r ↔ w.Denotes r := by
  obtain ⟨orLower, base, top, orHigher⟩ := w
  unfold read
  simp only [Steps.bind_eq_ok_iff, Version.read_eq_ok_iff]
  cases top with
  | none =>
    constructor
    · rintro ⟨v, hbase, hr⟩
      cases hr
      exact ⟨hbase, rfl, rfl, rfl⟩
    · rintro ⟨hbase, htop, hlower, hhigher⟩
      obtain ⟨v, w, higher, lower⟩ := r
      cases htop
      cases hlower
      cases hhigher
      exact ⟨_, hbase, rfl⟩
  | some top =>
    simp only [Steps.bind_eq_ok_iff, Version.read_eq_ok_iff]
    constructor
    · rintro ⟨v, hbase, w, htop, hr⟩
      cases hr
      exact ⟨hbase, htop, rfl, rfl⟩
    · rintro ⟨hbase, htop, hlower, hhigher⟩
      obtain ⟨v, w, higher, lower⟩ := r
      cases hlower
      cases hhigher
      exact ⟨_, hbase, _, htop, rfl⟩

/-- The wording that is found by taking off the marks and cutting at the first `-`. -/
def ofText (text : List Char) : Wording :=
  let (orLower, text) := takeLower text
  let (orHigher, text) := takeHigher text
  match Text.splitFirst '-' text with
  | some (base, top) => ⟨orLower, base, some top, orHigher⟩
  | none => ⟨orLower, text, none, orHigher⟩

/-- A text is the wording that is found in it. -/
theorem text_ofText (text : List Char) : (ofText text).text = text := by
  have hlower := append_takeLower text
  have hhigher := append_takeHigher (takeLower text).2
  unfold ofText
  dsimp only
  split
  next base top hsplit =>
    rw [Text.eq_append_of_splitFirst hsplit] at hhigher
    rw [Wording.text, Wording.core, hhigher, hlower]
  next => rw [Wording.text, Wording.core, hhigher, hlower]

section
variable {w : Wording} {r : VersionRange} (h : w.Denotes r)
include h

/-- The versions of a wording do not start with a mark. -/
theorem Denotes.head?_core (rest : List Char) : (w.core ++ rest).head? ≠ some '-' := by
  obtain ⟨front, last, hbase, _⟩ := h.base.exists_last
  obtain ⟨c, more, hcons⟩ := List.exists_cons_of_ne_nil (List.concat_ne_nil last front)
  rw [← hbase] at hcons
  have hc : c ≠ '-' := by
    rintro rfl
    exact h.base.minus_not_mem (by rw [hcons]; exact List.mem_cons_self)
  rw [core]
  split <;> simp [hcons, hc]

/-- The versions of a wording do not end in a mark, because they end in a digit. -/
theorem Denotes.getLast?_core : w.core.getLast? ≠ some '+' := by
  have hlast (front : List Char) {text : List Char} {v : Version} (h : Version.Denotes text v) :
      (front ++ text).getLast? ≠ some '+' := by
    obtain ⟨text, c, rfl, hc⟩ := h.exists_last
    rw [← List.append_assoc, List.getLast?_concat]
    rintro ⟨⟩
    exact absurd hc (by decide)
  have htop := h.top
  rw [core]
  cases hw : w.top with
  | none => exact hlast [] h.base
  | some top =>
    rw [hw] at htop
    have hsecond := hlast (w.base ++ ['-']) htop
    rwa [List.append_assoc] at hsecond

/-- The wording of a range is found in its text. The marks come off first, and then the first `-` is
the one behind the first version, if any. -/
theorem Denotes.ofText_text : ofText w.text = w := by
  have hminus := h.base.minus_not_mem
  unfold ofText
  rw [text, takeLower_append (h.head?_core _)]
  simp only [takeHigher_append h.getLast?_core]
  obtain ⟨orLower, base, top, orHigher⟩ := w
  cases top with
  | none => simp only [core, Text.splitFirst_of_not_mem hminus]
  | some top => simp only [core, Text.splitFirst_append top hminus]

end

end Wording

/-- A range is read from the wording that is found in its text. -/
theorem read_eq (text : List Char) : read text = (Wording.ofText text).read := by
  unfold read Wording.ofText
  dsimp only
  cases Text.splitFirst '-' (takeHigher (takeLower text).2).2 <;> rfl

/-- A range is read from the texts of its wordings and from no others. -/
theorem read_eq_ok_iff {text : List Char} {r : VersionRange} :
    read text = .ok r ↔ ∃ w : Wording, w.text = text ∧ w.Denotes r := by
  rw [read_eq, Wording.read_eq_ok_iff]
  constructor
  · intro h
    exact ⟨_, Wording.text_ofText text, h⟩
  · rintro ⟨w, rfl, h⟩
    rwa [h.ofText_text]

/-- Versions and ranges are read from exactly the texts of their grammars, and all other texts are
refused. The text of a range has one wording, so it stands for one range. -/
theorem parse_accepts_grammar :
    (∀ (text : String) (v : Version), Version.parse text = .ok v ↔ Version.Denotes text.toList v) ∧
    (∀ text : String, (∃ e : FormatError, Version.parse text = .error e) ↔
      ∀ v, ¬ Version.Denotes text.toList v) ∧
    (∀ (text : String) (r : VersionRange), parse text = .ok r ↔
      ∃ w : Wording, w.text = text.toList ∧ w.Denotes r) ∧
    (∀ text : String, (∃ e : FormatError, parse text = .error e) ↔
      ∀ (w : Wording) (r : VersionRange), w.text = text.toList → ¬ w.Denotes r) ∧
    ∀ (w w' : Wording) (r r' : VersionRange), w.Denotes r → w'.Denotes r' → w.text = w'.text →
      w = w' ∧ r = r' := by
  refine ⟨fun text v => Version.read_eq_ok_iff, ?_, fun text r => read_eq_ok_iff, ?_, ?_⟩
  · intro text
    simp only [Steps.exists_error_iff, Version.parse, ne_eq, Version.read_eq_ok_iff]
  · intro text
    simp only [Steps.exists_error_iff, parse, ne_eq, read_eq_ok_iff, not_exists, not_and]
    exact forall_comm
  · intro w w' r r' h h' htext
    have hw : w = w' := by rw [← h.ofText_text, htext, h'.ofText_text]
    subst hw
    have hr := Wording.read_eq_ok_iff.2 h
    rw [Wording.read_eq_ok_iff.2 h'] at hr
    exact ⟨rfl, (Except.ok.inj hr).symm⟩

end VersionRange

end TextAdventure
