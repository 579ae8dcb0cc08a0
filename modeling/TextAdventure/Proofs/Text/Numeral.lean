import TextAdventure.Text.Numeral

/-!
# Reading numerals

The digits of a number below the bound are read back as that number (`read_digits`, and
`readWord_digits` for 32 bits). Reading goes from the left and printing from the right, so the
induction is on the printing and carries the digits that are still to be read.

What is read is exactly a numeral of a number below the bound (`read_eq_ok_iff`). The bound is checked
at each digit, which refuses no more than a check at the end would: further digits make a number no
smaller (`le_ofDigitChars`).
-/

namespace TextAdventure.Numeral

/-- Whether a character is an ASCII digit. -/
def IsDigit (c : Char) : Prop := '0' ≤ c ∧ c ≤ '9'

instance : DecidablePred IsDigit := fun c => inferInstanceAs (Decidable ('0' ≤ c ∧ c ≤ '9'))

/-! ## Digits -/

/-- The character of a number below ten is a digit. -/
theorem isDigit_digitChar : ∀ {d : Nat}, d < 10 → IsDigit (digitChar d) := by
  decide

/-- A digit character has the value it was made of. -/
theorem digit?_digitChar : ∀ {d : Nat}, d < 10 → digit? (digitChar d) = some d := by
  decide

/-- The digits of a number are digits. -/
theorem isDigit_of_mem_digits {n : Nat} {c : Char} (h : c ∈ digits n) : IsDigit c := by
  fun_induction digits n with
  | case1 n hn =>
    rw [List.mem_singleton] at h
    exact h ▸ isDigit_digitChar hn
  | case2 n hn ih =>
    rcases List.mem_append.1 h with h | h
    · exact ih h
    · rw [List.mem_singleton] at h
      exact h ▸ isDigit_digitChar (Nat.mod_lt n (by decide))

/-- Every number has a digit. -/
theorem digits_ne_nil (n : Nat) : digits n ≠ [] := by
  unfold digits
  split <;> simp

/-- Only zero has the digit zero. -/
theorem digitChar_ne_zero : ∀ {d : Nat}, d < 10 → d ≠ 0 → digitChar d ≠ '0' := by
  decide

/-- No number but zero starts with a zero. -/
theorem digits_ne_zero_cons {n : Nat} (h : n ≠ 0) (more : List Char) : digits n ≠ '0' :: more := by
  fun_induction digits n generalizing more with
  | case1 n hn =>
    intro he
    exact digitChar_ne_zero hn h (List.cons.inj he).1
  | case2 n hn ih =>
    intro he
    obtain ⟨c, front, hfront⟩ := List.exists_cons_of_ne_nil (digits_ne_nil (n / 10))
    rw [hfront, List.cons_append, List.cons.injEq] at he
    exact ih (by omega) front (he.1 ▸ hfront)

/-! ## Reading -/

/-- Behind the digits of a number below the bound, reading goes on with that number. -/
theorem readDigits_digits_append {bound n : Nat} (h : n < bound) (rest : List Char) :
    readDigits bound 0 (digits n ++ rest) = readDigits bound n rest := by
  fun_induction digits n generalizing rest with
  | case1 n hn =>
    rw [List.singleton_append, readDigits, digit?_digitChar hn]
    simp [h]
  | case2 n hn ih =>
    have hlast : n / 10 * 10 + n % 10 = n := by omega
    rw [List.append_assoc, ih (by omega), List.singleton_append, readDigits,
      digit?_digitChar (Nat.mod_lt n (by decide))]
    simp [hlast, h]

/-- The digits of a number below the bound are read back. No digit is a sign, so they are read as
they stand. -/
theorem read_digits {bound n : Nat} (h : n < bound) : read bound (digits n) = .ok n := by
  have hdigits := readDigits_digits_append h []
  rw [List.append_nil] at hdigits
  have hsign : '+' ∉ digits n := fun hplus => absurd (isDigit_of_mem_digits hplus) (by decide)
  unfold read
  split
  next hnil => exact absurd hnil (digits_ne_nil n)
  next hplus => exact absurd (by simp [hplus]) hsign
  next hplus => exact absurd (by simp [hplus]) hsign
  next => rw [hdigits, readDigits]

/-- A number that fits into a word is read as a word. -/
theorem readWord_of_read {text : List Char} {n : UInt32}
    (h : read UInt32.size text = .ok n.toNat) : readWord text = .ok n := by
  rw [readWord, h]
  change Except.ok (UInt32.ofNat n.toNat) = _
  rw [UInt32.ofNat_toNat]

/-- The digits of a number of 32 bits are read back. -/
theorem readWord_digits (n : UInt32) : readWord (digits n.toNat) = .ok n :=
  readWord_of_read (read_digits n.toNat_lt)

/-! ## What is read -/

/-- The numerals of a number: one or more digits, with one sign before them or none. -/
inductive Denotes : List Char → Nat → Prop
  | unsigned {digits : List Char} (hne : digits ≠ []) (h : ∀ c ∈ digits, IsDigit c) :
    Denotes digits (Nat.ofDigitChars 10 digits 0)
  | signed {digits : List Char} (hne : digits ≠ []) (h : ∀ c ∈ digits, IsDigit c) :
    Denotes ('+' :: digits) (Nat.ofDigitChars 10 digits 0)

/-- A digit has its distance from zero as its value. -/
theorem digit?_of_isDigit {c : Char} (h : IsDigit c) : digit? c = some (c.toNat - '0'.toNat) :=
  if_pos h

/-- Other characters have no value. -/
theorem digit?_of_not_isDigit {c : Char} (h : ¬ IsDigit c) : digit? c = none := if_neg h

/-- More digits make a number no smaller. -/
theorem le_ofDigitChars (digits : List Char) (sofar : Nat) :
    sofar ≤ Nat.ofDigitChars 10 digits sofar := by
  induction digits generalizing sofar with
  | nil => exact Nat.le_refl sofar
  | cons c digits ih =>
    have h := ih (10 * sofar + (c.toNat - '0'.toNat))
    rw [Nat.ofDigitChars_cons]
    omega

/-- Digits are read if their number stays below the bound. Once it has reached the bound, what
follows makes it no smaller. -/
theorem readDigits_eq_ok_iff {bound sofar n : Nat} {text : List Char} (hsofar : sofar < bound) :
    readDigits bound sofar text = .ok n ↔
      (∀ c ∈ text, IsDigit c) ∧ Nat.ofDigitChars 10 text sofar = n ∧ n < bound := by
  induction text generalizing sofar with
  | nil =>
    rw [readDigits, Except.ok.injEq, Nat.ofDigitChars_nil]
    constructor
    · rintro rfl
      exact ⟨by simp, rfl, hsofar⟩
    · rintro ⟨_, hn, _⟩
      exact hn
  | cons c text ih =>
    rw [readDigits, List.forall_mem_cons, Nat.ofDigitChars_cons, Nat.mul_comm 10 sofar]
    by_cases hc : IsDigit c
    · rw [digit?_of_isDigit hc]
      dsimp only
      split
      next hnext => rw [ih hnext, and_iff_right hc]
      next hnext =>
        have hle := le_ofDigitChars text (sofar * 10 + (c.toNat - '0'.toNat))
        constructor
        · intro h
          cases h
        · rintro ⟨_, hn, hbound⟩
          omega
    · rw [digit?_of_not_isDigit hc]
      constructor
      · intro h
        cases h
      · rintro ⟨⟨hdigit, _⟩, _⟩
        exact absurd hdigit hc

/-- Behind a plus sign only digits denote a number. -/
theorem denotes_plus_iff {digits : List Char} {n : Nat} : Denotes ('+' :: digits) n ↔
    digits ≠ [] ∧ (∀ c ∈ digits, IsDigit c) ∧ Nat.ofDigitChars 10 digits 0 = n := by
  constructor
  · intro h
    cases h with
    | unsigned _ h => exact absurd (h '+' List.mem_cons_self) (by decide)
    | signed hne h => exact ⟨hne, h, rfl⟩
  · rintro ⟨hne, h, rfl⟩
    exact .signed hne h

/-- Without a plus sign only digits denote a number. -/
theorem denotes_iff {text : List Char} {n : Nat} (hplus : ∀ rest, text ≠ '+' :: rest) :
    Denotes text n ↔
      text ≠ [] ∧ (∀ c ∈ text, IsDigit c) ∧ Nat.ofDigitChars 10 text 0 = n := by
  constructor
  · intro h
    cases h with
    | unsigned hne h => exact ⟨hne, h, rfl⟩
    | signed => exact absurd rfl (hplus _)
  · rintro ⟨hne, h, rfl⟩
    exact .unsigned hne h

/-- What is read below a bound is a numeral of a number below the bound. -/
theorem read_eq_ok_iff {bound n : Nat} {text : List Char} (hbound : 0 < bound) :
    read bound text = .ok n ↔ Denotes text n ∧ n < bound := by
  unfold read
  split
  next => simp [denotes_iff]
  next => simp [denotes_plus_iff]
  next rest hne =>
    rw [readDigits_eq_ok_iff hbound, denotes_plus_iff, and_assoc, and_assoc]
    exact (and_iff_right hne).symm
  next hnil _ hplus =>
    rw [readDigits_eq_ok_iff hbound, denotes_iff hplus, and_assoc, and_assoc]
    exact (and_iff_right hnil).symm

/-- What is read as a number of 32 bits is a numeral of it. -/
theorem readWord_eq_ok_iff {text : List Char} {n : UInt32} :
    readWord text = .ok n ↔ Denotes text n.toNat := by
  constructor
  · intro h
    unfold readWord at h
    cases hread : read UInt32.size text with
    | error e =>
      rw [hread] at h
      cases h
    | ok m =>
      rw [hread] at h
      cases h
      obtain ⟨hm, hlt⟩ := (read_eq_ok_iff (by decide)).1 hread
      rw [UInt32.toNat_ofNat_of_lt' hlt]
      exact hm
  · intro h
    exact readWord_of_read ((read_eq_ok_iff (by decide)).2 ⟨h, n.toNat_lt⟩)

/-- A numeral ends in a digit. -/
theorem Denotes.exists_last {text : List Char} {n : Nat} (h : Denotes text n) :
    ∃ front c, text = front ++ [c] ∧ IsDigit c := by
  have hlast {digits : List Char} (hne : digits ≠ []) (hdigits : ∀ c ∈ digits, IsDigit c) :
      ∃ front c, digits = front ++ [c] ∧ IsDigit c :=
    ⟨digits.dropLast, digits.getLast hne, (List.dropLast_concat_getLast hne).symm,
      hdigits _ (List.getLast_mem hne)⟩
  cases h with
  | unsigned hne h => exact hlast hne h
  | signed hne h =>
    obtain ⟨front, c, rfl, hc⟩ := hlast hne h
    exact ⟨'+' :: front, c, rfl, hc⟩

/-- A numeral consists of a sign and digits. -/
theorem Denotes.mem {text : List Char} {n : Nat} (h : Denotes text n) {c : Char} (hc : c ∈ text) :
    c = '+' ∨ IsDigit c := by
  cases h with
  | unsigned _ h => exact .inr (h c hc)
  | signed _ h => exact (List.mem_cons.1 hc).imp_right (h c)

end TextAdventure.Numeral
