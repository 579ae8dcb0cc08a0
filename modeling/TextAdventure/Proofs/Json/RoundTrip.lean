import TextAdventure.Json.Reader
import TextAdventure.Proofs.Text.Numeral
import TextAdventure.Proofs.Text.Run

/-!
# Reading undoes writing for documents

A document whose texts are escaped and whose numbers are integers is tidy, and its characters are read
back as that document (`Tidy.reads`), whatever follows them as long as it does not go on a number.
So a tidy document is known by its characters (`Tidy.chars_injective`) and by its text
(`Tidy.parse_print`).

Escaping writes a character in one of three ways (`Written`), and both the reader and `unescape` are
followed through these three. Every value and every closing bracket takes a character at least, so the
number of characters is fuel enough.
-/

namespace TextAdventure.Json

open Text (RunEnds runEnds_nil runEnds_cons takeWhile_run dropWhile_run)

/-! ## Texts -/

/-- How a character is written in a text: by a letter behind a backslash, by its number, or as it is. -/
inductive Written : Char → List Char → Prop
  | letter {c letter : Char} (h : shortEscape? letter = some c) (hu : letter ≠ 'u') :
    Written c ['\\', letter]
  | number {c : Char} (h : c.toNat < 0x20) :
    Written c ['\\', 'u', '0', '0', Hex.lowerDigit (c.toNat / 16), Hex.lowerDigit (c.toNat % 16)]
  | itself {c : Char} (hquote : c ≠ '"') (hbackslash : c ≠ '\\') (h : ¬ c.toNat < 0x20) : Written c [c]

/-- Escaping writes a character in one of the ways in which it is read. -/
theorem written_escapeChar (c : Char) : Written c (escapeChar c) := by
  unfold escapeChar
  split
  iterate 7 exact .letter rfl (by decide)
  next hquote hbackslash _ _ _ _ _ =>
    split
    next h => exact .number h
    next h => exact .itself hquote hbackslash h

/-- The four digits of a control character are its number. -/
theorem hexWord?_lowerDigit : ∀ {n : Nat}, n < 0x20 →
    hexWord? '0' '0' (Hex.lowerDigit (n / 16)) (Hex.lowerDigit (n % 16)) = some n := by
  decide

section
variable {c : Char} {written : List Char} (h : Written c written) (rest : List Char)
include h

/-- A character that was written is read back, whatever follows it. An escaped control character has
a number far below the surrogates. -/
theorem Written.unescape_append : unescape (written ++ rest) = (unescape rest).map (c :: ·) := by
  cases h with
  | @letter letter h hu =>
    have hnumber : ∀ a b d e more, letter = 'u' → rest = a :: b :: d :: e :: more → False :=
      fun _ _ _ _ _ he _ => hu he
    show unescape ('\\' :: letter :: rest) = _
    rw [unescape.eq_3 _ _ hnumber, h]
    cases unescape rest <;> rfl
  | number h =>
    simp only [List.cons_append, List.nil_append]
    rw [unescape.eq_2, hexWord?_lowerDigit h]
    simp only [Option.bind_eq_bind, Option.bind_some]
    rw [if_neg (by omega), if_neg (by omega), Char.ofNat_toNat]
    cases unescape rest <;> rfl
  | itself hquote hbackslash h =>
    simp [unescape.eq_5, hbackslash]

/-- A character that was written does not end the text. -/
theorem Written.readText_append :
    readText (written ++ rest) = (readText rest).map fun x => (written ++ x.1, x.2) := by
  cases h with
  | @letter letter h hu =>
    have hnumber : ∀ a b d e more, letter = 'u' → rest = a :: b :: d :: e :: more → False :=
      fun _ _ _ _ _ he _ => hu he
    show readText ('\\' :: letter :: rest) = _
    rw [readText.eq_4 _ _ hnumber, h]
    cases readText rest <;> rfl
  | number h =>
    simp only [List.cons_append, List.nil_append]
    rw [readText.eq_3, hexWord?_lowerDigit h]
    cases readText rest <;> rfl
  | itself hquote hbackslash h =>
    rw [List.singleton_append, readText.eq_5 c rest hquote (fun _ _ _ _ _ he _ => hbackslash he)
      (fun _ _ he _ => hbackslash he), if_neg (by simp [hbackslash, h])]
    rfl

end

/-- An escaped text is read back. -/
theorem unescape_escape (text : List Char) : unescape (escape text) = some text := by
  induction text with
  | nil => rfl
  | cons c text ih =>
    rw [escape] at ih
    rw [escape, List.flatMap_cons, (written_escapeChar c).unescape_append, ih]
    rfl

/-- Different texts are escaped to different texts. -/
theorem escape_injective : Function.Injective escape := by
  intro s t h
  have hs := unescape_escape s
  rw [h, unescape_escape] at hs
  exact (Option.some.inj hs).symm

/-- A text that was escaped is read up to the quote behind it. -/
theorem readText_escape (text rest : List Char) :
    readText (escape text ++ '"' :: rest) = some (escape text, rest) := by
  induction text with
  | nil => rfl
  | cons c text ih =>
    rw [escape] at ih
    rw [escape, List.flatMap_cons, List.append_assoc, (written_escapeChar c).readText_append, ih]
    rfl

/-- A text in quotes with a colon behind it is read as the name of a member. -/
theorem readName_escape (name rest : List Char) :
    readName ('"' :: escape name ++ '"' :: ':' :: rest) = some (escape name, rest) := by
  rw [List.cons_append, readName, readText_escape]
  rfl

/-! ## Integers -/

/-- The digits of a number denote it. -/
theorem digitsValue_digits (n : Nat) : Decimal.digitsValue (Numeral.digits n) = n := by
  fun_induction Numeral.digits n with
  | case1 n hn => simp [Decimal.digitsValue, Numeral.digit?_digitChar hn]
  | case2 n hn ih =>
    simp only [Decimal.digitsValue] at ih
    have hlast := Numeral.digit?_digitChar (Nat.mod_lt n (by decide : 0 < 10))
    simp only [Decimal.digitsValue, List.foldl_append, ih, List.foldl_cons, List.foldl_nil, hlast,
      Option.getD_some]
    omega

/-- The literal of an integer tells the integer. -/
theorem literal_ofInt_injective : Function.Injective Decimal.Literal.ofInt := by
  intro m n h
  simp only [Decimal.Literal.ofInt, Decimal.Literal.mk.injEq, decide_eq_decide, and_true] at h
  have habs := congrArg Decimal.digitsValue h.2
  rw [digitsValue_digits, digitsValue_digits] at habs
  omega

/-- The digits of a number are digits of a document. -/
theorem isDigit_of_mem_digits {n : Nat} {c : Char} (h : c ∈ Numeral.digits n) : isDigit c = true := by
  simpa [isDigit, Numeral.IsDigit] using Numeral.isDigit_of_mem_digits h

/-- Whether a number goes on with a character. -/
def goesOnNumber (c : Char) : Bool := isDigit c || c = '.' || c = 'e' || c = 'E'

section
variable {rest : List Char} (h : RunEnds goesOnNumber rest)
include h

/-- What cannot go on a number starts with no digit. -/
theorem runEnds_isDigit : RunEnds isDigit rest := by
  intro c hc
  have hc := h c hc
  simp only [goesOnNumber, Bool.or_eq_false_iff] at hc
  exact hc.1.1.1

/-- The digits of a number are read as far as they go. -/
theorem readDigits_digits (n : Nat) :
    readDigits (Numeral.digits n ++ rest) = some (Numeral.digits n, rest) := by
  have hdigits : ∀ c ∈ Numeral.digits n, isDigit c = true := fun _ hc => isDigit_of_mem_digits hc
  rw [readDigits, takeWhile_run hdigits (runEnds_isDigit h), dropWhile_run hdigits (runEnds_isDigit h)]
  split
  next hnil => exact absurd hnil (Numeral.digits_ne_nil n)
  next => rfl

/-- The digits of a number are read as a whole number: only zero starts with a zero. -/
theorem readWhole_digits (n : Nat) :
    readWhole (Numeral.digits n ++ rest) = some (Numeral.digits n, rest) := by
  unfold readWhole
  split
  next more hzero =>
    obtain ⟨c, digits, hdigits⟩ := List.exists_cons_of_ne_nil (Numeral.digits_ne_nil n)
    have hn : n = 0 := by
      by_contra hne
      rw [hdigits, List.cons_append, List.cons.injEq] at hzero
      exact Numeral.digits_ne_zero_cons hne digits (hzero.1 ▸ hdigits)
    subst hn
    have hdigits : Numeral.digits 0 = ['0'] := by rw [Numeral.digits, if_pos (by decide)]; rfl
    rw [hdigits] at hzero ⊢
    cases hzero
    rfl
  next => exact readDigits_digits h n

/-- What cannot go on a number is no fraction. -/
theorem readFraction_of_runEnds : readFraction rest = some ([], rest) := by
  unfold readFraction
  split
  next => cases h '.' rfl
  next => rfl

/-- What cannot go on a number is no exponent. -/
theorem readExponent_of_runEnds : readExponent rest = some (none, rest) := by
  unfold readExponent
  split
  next c more =>
    have hc := h c rfl
    simp only [goesOnNumber, Bool.or_eq_false_iff, decide_eq_false_iff_not] at hc
    rw [if_neg (by simp [hc.1.2, hc.2])]
  next => rfl

/-- The characters of an integer are read back. -/
theorem readNumber_ofInt (n : Int) :
    readNumber ((Decimal.Literal.ofInt n).chars ++ rest) = some (.ofInt n, rest) := by
  obtain ⟨c, digits, hdigits⟩ := List.exists_cons_of_ne_nil (Numeral.digits_ne_nil n.natAbs)
  have hread := readWhole_digits h n.natAbs
  have hfraction := readFraction_of_runEnds h
  have hexponent := readExponent_of_runEnds h
  by_cases hn : n < 0
  · have hchars : (Decimal.Literal.ofInt n).chars ++ rest =
        '-' :: (Numeral.digits n.natAbs ++ rest) := by
      simp [Decimal.Literal.chars, Decimal.Literal.ofInt, hn]
    rw [hchars, readNumber.eq_1, hread]
    simp [hfraction, hexponent, Decimal.Literal.ofInt, hn]
  · have hchars : (Decimal.Literal.ofInt n).chars ++ rest = Numeral.digits n.natAbs ++ rest := by
      simp [Decimal.Literal.chars, Decimal.Literal.ofInt, hn]
    have hminus : ∀ more, Numeral.digits n.natAbs ++ rest = '-' :: more → False := by
      intro more he
      rw [hdigits, List.cons_append, List.cons.injEq] at he
      have hc : isDigit c = true := isDigit_of_mem_digits (hdigits ▸ List.mem_cons_self)
      rw [he.1] at hc
      cases hc
    rw [hchars, readNumber.eq_2 _ hminus, hread]
    simp [hfraction, hexponent, Decimal.Literal.ofInt, hn]

end

/-! ## Documents -/

/-- The documents whose texts are escaped and whose numbers are integers. -/
inductive Tidy : Json → Prop
  | null : Tidy .null
  | bool (value : Bool) : Tidy (.bool value)
  | integer (n : Int) : Tidy (ofInt n)
  | text (text : String) : Tidy (ofString text)
  | array {items : List Json} (h : ∀ item ∈ items, Tidy item) : Tidy (.array items)
  | object {members : List (String × Json)} (h : ∀ m ∈ members, Tidy m.2) : Tidy (ofMembers members)

/-- Whether an integer can start with a character. -/
def startsInteger (c : Char) : Bool := isDigit c || c = '-'

/-- The text of an integer starts with a sign or a digit. -/
theorem exists_chars_ofInt (n : Int) :
    ∃ c more, (ofInt n).chars = c :: more ∧ startsInteger c = true := by
  obtain ⟨c, digits, hdigits⟩ := List.exists_cons_of_ne_nil (Numeral.digits_ne_nil n.natAbs)
  have hc : isDigit c = true := isDigit_of_mem_digits (hdigits ▸ List.mem_cons_self)
  by_cases hn : n < 0
  · refine ⟨'-', c :: digits, ?_, rfl⟩
    simp [ofInt, chars, Decimal.Literal.chars, Decimal.Literal.ofInt, hn, hdigits]
  · refine ⟨c, digits, ?_, by simp [startsInteger, hc]⟩
    simp [ofInt, chars, Decimal.Literal.chars, Decimal.Literal.ofInt, hn, hdigits]

/-- An integer starts with no space. -/
theorem isSpace_of_startsInteger {c : Char} (h : startsInteger c = true) : isSpace c = false := by
  rw [Bool.eq_false_iff]
  intro hspace
  simp only [isSpace, Bool.or_eq_true, beq_iff_eq] at hspace
  rcases hspace with ((rfl | rfl) | rfl) | rfl <;> cases h

/-- A document starts with a character that is no blank and closes no array. -/
theorem Tidy.exists_head {j : Json} (h : Tidy j) :
    ∃ c more, j.chars = c :: more ∧ isSpace c = false ∧ c ≠ ']' := by
  cases h with
  | null => exact ⟨_, _, rfl, rfl, by decide⟩
  | bool value => cases value <;> exact ⟨_, _, rfl, rfl, by decide⟩
  | integer n =>
    obtain ⟨c, more, hchars, hc⟩ := exists_chars_ofInt n
    refine ⟨c, more, hchars, isSpace_of_startsInteger hc, ?_⟩
    rintro rfl
    cases hc
  | text text => exact ⟨'"', _, rfl, rfl, by decide⟩
  | @array items h => cases items <;> exact ⟨'[', _, rfl, rfl, by decide⟩
  | @object members h => cases members <;> exact ⟨'\x7b', _, rfl, rfl, by decide⟩

/-- Nothing is skipped in front of a character that is no space. -/
theorem skipSpace_cons {c : Char} (h : isSpace c = false) (rest : List Char) :
    skipSpace (c :: rest) = c :: rest :=
  List.dropWhile_cons_of_neg (by simp [h])

/-- The characters of a document are read back, before any text that does not go on a number. -/
def Reads (j : Json) : Prop :=
  ∀ fuel rest, j.chars.length ≤ fuel → RunEnds goesOnNumber rest →
    readValue fuel (j.chars ++ rest) = some (j, rest)

/-- The text of an integer is read back. -/
theorem reads_ofInt (n : Int) : Reads (ofInt n) := by
  intro fuel rest hfuel hrest
  obtain ⟨c, more, hchars, hc⟩ := exists_chars_ofInt n
  have hnumber := readNumber_ofInt hrest n
  rw [show (Decimal.Literal.ofInt n).chars = c :: more from hchars] at hnumber
  rw [hchars] at hfuel ⊢
  cases fuel with
  | zero => cases hfuel
  | succ fuel =>
    rw [readValue.eq_2, List.cons_append, skipSpace_cons (isSpace_of_startsInteger hc)]
    split
    iterate 6
      next heq =>
        rw [(List.cons.inj heq).1] at hc
        cases hc
    next =>
      rw [← List.cons_append, hnumber]
      rfl

/-- What follows an item cannot go on a number. -/
theorem runEnds_charsItems (items : List Json) (rest : List Char) :
    RunEnds goesOnNumber (charsItems items ++ ']' :: rest) := by
  cases items with
  | nil => exact runEnds_cons rfl _
  | cons => exact runEnds_cons rfl _

/-- What follows a member cannot go on a number. -/
theorem runEnds_charsMembers (members : List (List Char × Json)) (rest : List Char) :
    RunEnds goesOnNumber (charsMembers members ++ '\x7d' :: rest) := by
  cases members with
  | nil => exact runEnds_cons rfl _
  | cons => exact runEnds_cons rfl _

/-- Items are read back if each of them is. -/
theorem readItems_charsItems {items : List Json} (htidy : ∀ item ∈ items, Tidy item)
    (h : ∀ item ∈ items, Reads item) {fuel : Nat} (hfuel : (charsItems items).length < fuel)
    (rest : List Char) : readItems fuel (charsItems items ++ ']' :: rest) = some (items, rest) := by
  induction items generalizing fuel with
  | nil =>
    cases fuel with
    | zero => cases hfuel
    | succ fuel => rfl
  | cons item items ih =>
    cases fuel with
    | zero => cases hfuel
    | succ fuel =>
      obtain ⟨hitem, hitems⟩ := List.forall_mem_cons.1 h
      obtain ⟨c, more, hchars, -⟩ := (htidy item List.mem_cons_self).exists_head
      have hlength : (charsItems (item :: items)).length =
          1 + item.chars.length + (charsItems items).length := by
        simp [charsItems]
        omega
      have hpos : 0 < item.chars.length := by simp [hchars]
      have htext : charsItems (item :: items) ++ ']' :: rest =
          ',' :: (item.chars ++ (charsItems items ++ ']' :: rest)) := by
        simp [charsItems]
      rw [htext, readItems.eq_2, skipSpace_cons rfl]
      simp only
      rw [hitem fuel _ (by omega) (runEnds_charsItems items rest)]
      simp only [Option.bind_eq_bind, Option.bind_some]
      rw [ih (fun item h => htidy item (List.mem_cons_of_mem _ h)) hitems (by omega)]
      rfl

/-- Members are read back if the document of each of them is. -/
theorem readMembers_charsMembers {members : List (String × Json)} (h : ∀ m ∈ members, Reads m.2)
    {fuel : Nat} (rest : List Char)
    (hfuel : (charsMembers (members.map fun m => (escape m.1.toList, m.2))).length < fuel) :
    readMembers fuel
        (charsMembers (members.map fun m => (escape m.1.toList, m.2)) ++ '\x7d' :: rest) =
      some (members.map fun m => (escape m.1.toList, m.2), rest) := by
  induction members generalizing fuel with
  | nil =>
    cases fuel with
    | zero => cases hfuel
    | succ fuel => rfl
  | cons m members ih =>
    cases fuel with
    | zero => cases hfuel
    | succ fuel =>
      obtain ⟨hm, hmembers⟩ := List.forall_mem_cons.1 h
      rw [List.map_cons] at hfuel ⊢
      generalize hmore : (members.map fun m => (escape m.1.toList, m.2)) = more at *
      have hlength : (charsMembers ((escape m.1.toList, m.2) :: more)).length =
          4 + (escape m.1.toList).length + m.2.chars.length + (charsMembers more).length := by
        simp [charsMembers]
        omega
      have htext : charsMembers ((escape m.1.toList, m.2) :: more) ++ '\x7d' :: rest =
          ',' :: ('"' :: escape m.1.toList ++ '"' :: ':' ::
            (m.2.chars ++ (charsMembers more ++ '\x7d' :: rest))) := by
        simp [charsMembers]
      rw [htext, readMembers.eq_2, skipSpace_cons rfl]
      simp only
      rw [List.cons_append, skipSpace_cons rfl, ← List.cons_append, readName_escape]
      simp only [Option.bind_eq_bind, Option.bind_some]
      rw [hm fuel _ (by omega) (runEnds_charsMembers more rest)]
      simp only [Option.bind_some]
      rw [ih hmembers (by omega)]
      rfl

/-- A list is read back if each of its items is. -/
theorem reads_array {items : List Json} (htidy : ∀ item ∈ items, Tidy item)
    (h : ∀ item ∈ items, Reads item) : Reads (.array items) := by
  intro fuel rest hfuel _
  cases fuel with
  | zero => cases items <;> cases hfuel
  | succ fuel =>
    cases items with
    | nil => rfl
    | cons item items =>
      obtain ⟨hitem, hitems⟩ := List.forall_mem_cons.1 h
      obtain ⟨htidyItem, htidyItems⟩ := List.forall_mem_cons.1 htidy
      obtain ⟨c, more, hchars, hspace, hclose⟩ := htidyItem.exists_head
      have hlength : (array (item :: items)).chars.length =
          2 + item.chars.length + (charsItems items).length := by
        simp [chars]
        omega
      have htext : (array (item :: items)).chars ++ rest =
          '[' :: (item.chars ++ (charsItems items ++ ']' :: rest)) := by
        simp [chars]
      have hread := hitem fuel _ (by omega) (runEnds_charsItems items rest)
      rw [hchars, List.cons_append] at hread
      rw [htext, readValue.eq_2, skipSpace_cons rfl, hchars, List.cons_append]
      simp only
      rw [skipSpace_cons hspace]
      split
      next heq => exact absurd (List.cons.inj heq).1 hclose
      next =>
        rw [hread]
        simp only [Option.bind_eq_bind, Option.bind_some]
        rw [readItems_charsItems htidyItems hitems (by omega)]
        rfl

/-- An object is read back if the document of each of its members is. -/
theorem reads_ofMembers {members : List (String × Json)} (h : ∀ m ∈ members, Reads m.2) :
    Reads (ofMembers members) := by
  intro fuel rest hfuel _
  cases fuel with
  | zero => cases members <;> cases hfuel
  | succ fuel =>
    cases members with
    | nil => rfl
    | cons m members =>
      obtain ⟨hm, hmembers⟩ := List.forall_mem_cons.1 h
      have hlength : (ofMembers (m :: members)).chars.length =
          5 + (escape m.1.toList).length + m.2.chars.length +
            (charsMembers (members.map fun m => (escape m.1.toList, m.2))).length := by
        simp [ofMembers, chars]
        omega
      have htext : (ofMembers (m :: members)).chars ++ rest =
          '\x7b' :: ('"' :: escape m.1.toList ++ '"' :: ':' :: (m.2.chars ++
            (charsMembers (members.map fun m => (escape m.1.toList, m.2)) ++ '\x7d' :: rest))) := by
        simp [ofMembers, chars]
      rw [htext, readValue.eq_2, skipSpace_cons rfl]
      simp only
      rw [List.cons_append, skipSpace_cons rfl, ← List.cons_append]
      split
      next heq => exact absurd (List.cons.inj heq).1 (by decide)
      next =>
        rw [readName_escape]
        simp only [Option.bind_eq_bind, Option.bind_some]
        rw [hm fuel _ (by omega) (runEnds_charsMembers _ rest)]
        simp only [Option.bind_some]
        rw [readMembers_charsMembers hmembers rest (by omega)]
        rfl

/-- The characters of a tidy document are read back. -/
theorem Tidy.reads {j : Json} (h : Tidy j) : Reads j := by
  induction h with
  | null =>
    intro fuel rest hfuel _
    cases fuel with
    | zero => cases hfuel
    | succ fuel => rfl
  | bool value =>
    intro fuel rest hfuel _
    cases fuel with
    | zero => cases value <;> cases hfuel
    | succ fuel => cases value <;> rfl
  | integer n => exact reads_ofInt n
  | text text =>
    intro fuel rest hfuel _
    cases fuel with
    | zero => cases hfuel
    | succ fuel =>
      have htext : (ofString text).chars ++ rest = '"' :: (escape text.toList ++ '"' :: rest) := by
        simp [ofString, chars]
      rw [htext, readValue.eq_2, skipSpace_cons rfl]
      simp only
      rw [readText_escape]
      rfl
  | array htidy ih => exact reads_array htidy ih
  | object _ ih => exact reads_ofMembers ih

/-- Tidy documents of the same characters are the same. -/
theorem Tidy.chars_injective {j k : Json} (hj : Tidy j) (hk : Tidy k) (h : j.chars = k.chars) :
    j = k := by
  have hread := hj.reads _ [] (Nat.le_refl _) (runEnds_nil _)
  rw [h, hk.reads _ [] (Nat.le_refl _) (runEnds_nil _)] at hread
  exact (Prod.mk.inj (Option.some.inj hread)).1.symm

/-- The text of a tidy document is read back. -/
theorem Tidy.parse_print {j : Json} (h : Tidy j) : parse j.print = some j := by
  have hread := h.reads (2 * j.chars.length + 1) [] (by omega) (runEnds_nil _)
  rw [List.append_nil] at hread
  rw [parse, print, String.length_ofList, String.toList_ofList, hread]
  rfl

end TextAdventure.Json
