import TextAdventure.Adventure.Basic
import TextAdventure.Proofs.Artifact.Tag
import TextAdventure.Proofs.Text.Utf8
import TextAdventure.Proofs.Version

/-!
# Plain texts

A text is plain if none of its bytes starts a tag. In UTF-8 the bytes 0 and 1 stand for the
characters U+0000 and U+0001 and for nothing else, so a text is plain exactly if it holds neither of
these (`plain_iff`). Everything that an artifact holds beside the author's texts is plain because it
is made of digits, signs and letters: identifiers, versions, ranges and numbers.
-/

namespace TextAdventure

/-- A text none of whose bytes starts a tag. -/
def Plain (text : String) : Prop := LeadFree (Utf8.ofString text)

/-! ## Characters -/

/-- A byte starts no tag if its number is neither 0 nor 1. -/
theorem isLead_byte {n : Nat} (h : n < 0x100) : isLead (Utf8.byte n) = false ↔ 1 < n := by
  have h₀ : Utf8.byte n = 0 ↔ n = 0 := Utf8.byte_eq_iff h (by decide)
  have h₁ : Utf8.byte n = 1 ↔ n = 1 := Utf8.byte_eq_iff h (by decide)
  rw [isLead, Bool.or_eq_false_iff, beq_eq_false_iff_ne, beq_eq_false_iff_ne, Ne, Ne, h₀, h₁]
  omega

/-- The bytes of a character start no tag, unless the character is one of the first two. All bytes
of a character of several bytes are at least `0x80`. -/
theorem leadFree_encodeChar (c : Char) : LeadFree (Utf8.encodeChar c) ↔ 1 < c.toNat := by
  have hc : c.toNat < 0xD800 ∨ 0xDFFF < c.toNat ∧ c.toNat < 0x110000 := c.valid
  unfold LeadFree Utf8.encodeChar
  simp only
  split
  · rw [List.forall_mem_singleton, isLead_byte (by omega)]
  · split
    · simp only [List.forall_mem_cons, List.not_mem_nil]
      rw [isLead_byte (by omega), isLead_byte (by omega)]
      simp
      omega
    · split
      · simp only [List.forall_mem_cons, List.not_mem_nil]
        rw [isLead_byte (by omega), isLead_byte (by omega), isLead_byte (by omega)]
        simp
        omega
      · simp only [List.forall_mem_cons, List.not_mem_nil]
        rw [isLead_byte (by omega), isLead_byte (by omega), isLead_byte (by omega),
          isLead_byte (by omega)]
        simp
        omega

/-- A text is plain if it holds neither of the first two characters. -/
theorem plain_iff {text : String} : Plain text ↔ ∀ c ∈ text.toList, 1 < c.toNat := by
  unfold Plain Utf8.ofString Utf8.encode
  constructor
  · intro h c hc
    exact (leadFree_encodeChar c).1 fun b hb => h b (List.mem_flatMap_of_mem hc hb)
  · intro h b hb
    obtain ⟨c, hc, hb⟩ := List.mem_flatMap.1 hb
    exact (leadFree_encodeChar c).2 (h c hc) b hb

/-- Whether a text is plain can be computed. -/
theorem plain_of_all {text : String} (h : (text.toList.all fun c => 1 < c.toNat) = true) :
    Plain text := by
  rw [plain_iff]
  intro c hc
  exact of_decide_eq_true (List.all_eq_true.1 h c hc)

/-- The text of characters is plain if none of them is one of the first two. -/
theorem plain_ofList {chars : List Char} (h : ∀ c ∈ chars, 1 < c.toNat) :
    Plain (String.ofList chars) := by
  rw [plain_iff, String.toList_ofList]
  exact h

/-- Joined texts are plain if both are. -/
theorem Plain.append {left right : String} (hl : Plain left) (hr : Plain right) :
    Plain (left ++ right) := by
  rw [plain_iff, String.toList_append]
  exact List.forall_mem_append.2 ⟨plain_iff.1 hl, plain_iff.1 hr⟩

/-- Texts joined by a separator are plain if they and the separator are. -/
theorem Plain.intercalate {separator : String} (hs : Plain separator) {texts : List String}
    (h : ∀ text ∈ texts, Plain text) : Plain (separator.intercalate texts) := by
  rw [plain_iff, String.toList_intercalate]
  induction texts with
  | nil => simp
  | cons text texts ih =>
    obtain ⟨htext, hrest⟩ := List.forall_mem_cons.1 h
    cases texts with
    | nil => simpa using plain_iff.1 htext
    | cons next texts =>
      rw [List.map_cons, List.map_cons, List.intercalate_cons_cons]
      exact List.forall_mem_append.2 ⟨List.forall_mem_append.2
        ⟨plain_iff.1 htext, plain_iff.1 hs⟩, ih hrest⟩

/-! ## Numbers and versions

Of the numbers of 64 bits only the digits matter: wherever the point is put, what stands before and
behind it are digits of the shortest decimal, and zeros.
-/

/-- A digit is not one of the first two characters. -/
theorem one_lt_of_isDigit {c : Char} (h : Numeral.IsDigit c) : 1 < c.toNat :=
  Nat.lt_of_lt_of_le (by decide : 1 < '0'.toNat) (UInt32.le_iff_toNat_le.1 (Char.le_def.1 h.1))

/-- Numerals are plain. -/
theorem plain_print (n : Nat) : Plain (Numeral.print n) :=
  plain_ofList fun _ h => one_lt_of_isDigit (Numeral.isDigit_of_mem_digits h)

/-- Signed numerals are plain. -/
theorem plain_printInt (n : Int) : Plain (Numeral.printInt n) := by
  unfold Numeral.printInt
  split
  · exact .append (plain_of_all rfl) (plain_print _)
  · exact plain_print _

/-- Identifiers in decimal are plain. -/
theorem ObjectId.plain_print (id : ObjectId) : Plain id.print :=
  TextAdventure.plain_print _

/-- The whole part of a number without exponent consists of digits. -/
theorem isDigit_of_mem_whole {keepPoint negative : Bool} {n : Nat} {k : Int} {c : Char}
    (h : c ∈ (Decimal.positionalLiteral keepPoint negative n k).whole) : Numeral.IsDigit c := by
  simp only [Decimal.positionalLiteral] at h
  split at h
  · rcases List.mem_append.1 h with h | h
    · exact Numeral.isDigit_of_mem_digits h
    · rw [List.eq_of_mem_replicate h]
      decide
  · split at h
    · exact Numeral.isDigit_of_mem_digits (List.mem_of_mem_take h)
    · rw [List.mem_singleton.1 h]
      decide

/-- What stands behind the point of a number without exponent are digits. -/
theorem isDigit_of_mem_fraction {keepPoint negative : Bool} {n : Nat} {k : Int} {c : Char}
    (h : c ∈ (Decimal.positionalLiteral keepPoint negative n k).fraction) : Numeral.IsDigit c := by
  have hzero : Numeral.IsDigit '0' := by decide
  simp only [Decimal.positionalLiteral] at h
  split at h
  · split at h
    · exact List.mem_singleton.1 h ▸ hzero
    · cases h
  · split at h
    · split at h
      · exact List.mem_singleton.1 h ▸ hzero
      · exact Numeral.isDigit_of_mem_digits (List.mem_of_mem_drop h)
    · split at h
      · exact List.mem_singleton.1 h ▸ hzero
      · rcases List.mem_append.1 h with h | h
        · exact List.eq_of_mem_replicate h ▸ hzero
        · exact Numeral.isDigit_of_mem_digits h

/-- The text of a number without exponent holds none of the first two characters. -/
theorem one_lt_of_mem_positionalLiteral {keepPoint negative : Bool} {n : Nat} {k : Int} {c : Char}
    (h : c ∈ (Decimal.positionalLiteral keepPoint negative n k).chars) : 1 < c.toNat := by
  have hexponent : (Decimal.positionalLiteral keepPoint negative n k).exponent = none := rfl
  rw [Decimal.Literal.chars, hexponent, List.append_nil] at h
  rcases List.mem_append.1 h with h | h
  · rcases List.mem_append.1 h with h | h
    · split at h
      · rw [List.mem_singleton.1 h]
        decide
      · cases h
    · exact one_lt_of_isDigit (isDigit_of_mem_whole h)
  · split at h
    · cases h
    · rcases List.mem_cons.1 h with rfl | h
      · decide
      · exact one_lt_of_isDigit (isDigit_of_mem_fraction h)

/-- Numbers of 64 bits are plain. -/
theorem Binary64.plain_print (x : Binary64) : Plain x.print := by
  unfold print
  split
  · exact plain_of_all rfl
  · exact plain_of_all rfl
  · exact plain_of_all rfl
  · exact plain_ofList fun _ h => one_lt_of_mem_positionalLiteral h

/-- A version's text holds none of the first two characters. -/
theorem Version.one_lt_of_mem_chars {v : Version} {c : Char} (h : c ∈ v.chars) : 1 < c.toNat := by
  rcases v.mem_chars h with rfl | rfl | h
  · decide
  · decide
  · exact one_lt_of_isDigit h

/-- Versions are plain. -/
theorem Version.plain_print (v : Version) : Plain v.print :=
  plain_ofList fun _ h => one_lt_of_mem_chars h

/-- Ranges of versions are plain. -/
theorem VersionRange.plain_print (r : VersionRange) : Plain r.print := by
  refine plain_ofList fun c h => ?_
  rw [chars_eq, coreChars] at h
  rcases List.mem_append.1 h with h | h
  · split at h
    · rw [List.mem_singleton.1 h]
      decide
    · cases h
  · rcases List.mem_append.1 h with h | h
    · rcases List.mem_append.1 h with h | h
      · exact Version.one_lt_of_mem_chars h
      · split at h
        · cases h
        · rcases List.mem_cons.1 h with rfl | h
          · decide
          · exact Version.one_lt_of_mem_chars h
    · split at h
      · rw [List.mem_singleton.1 h]
        decide
      · cases h

end TextAdventure
