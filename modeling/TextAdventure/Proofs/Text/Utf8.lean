import TextAdventure.Proofs.Steps
import TextAdventure.Text.Utf8

/-!
# Decoding and encoding undo each other

The bytes of a text are read back as that text (`decode_ofString`). The proof follows the four
lengths of an encoded character. In each, the bytes fall into the ranges that the decoder asks for,
and the bits they carry add up to the character's code point. Two facts about characters are used on
the way: a character of three bytes is no surrogate, and one of four bytes lies below `0x110000`.

Conversely, bytes that are read as a text are the bytes of that text (`ofString_of_decode`): the
ranges leave no second spelling of a character. Here the ranges of the second byte do the work, since
a number below them would have a shorter encoding and one above them is no character.
-/

namespace TextAdventure.Utf8

/-! ## Bytes as numbers -/

/-- A number below 256 is the value of its byte. -/
theorem toNat_byte {n : Nat} (h : n < 0x100) : (byte n).toNat = n := by
  rw [byte, UInt8.toNat_ofNat_of_lt' h]

/-- Bytes of different numbers are different. -/
theorem byte_eq_iff {n m : Nat} (hn : n < 0x100) (hm : m < 0x100) :
    byte n = UInt8.ofNat m ↔ n = m := by
  rw [← UInt8.toNat_inj, toNat_byte hn, UInt8.toNat_ofNat_of_lt' hm]

/-- Bytes compare with the bound of the single-byte characters as their numbers do. -/
theorem byte_lt_iff {n : Nat} (h : n < 0x100) : byte n < 0x80 ↔ n < 0x80 := by
  rw [UInt8.lt_iff_toNat_lt, toNat_byte h]
  rfl

/-- A byte lies in a range if its number does. -/
theorem within_byte {first last n : Nat} (h : n < 0x100) :
    within first last (byte n) = true ↔ first ≤ n ∧ n ≤ last := by
  rw [within, toNat_byte h, Bool.and_eq_true, decide_eq_true_iff, decide_eq_true_iff]

/-- Six bits on top of `0x80` make a continuation byte. -/
theorem isContinuation_byte {n : Nat} (h : n < 0x40) : isContinuation (byte (0x80 + n)) = true :=
  (within_byte (by omega)).2 (by omega)

/-- A continuation byte carries the six bits it was made of. -/
theorem payload_byte {n : Nat} (h : n < 0x40) : payload (byte (0x80 + n)) = n := by
  rw [payload, toNat_byte (by omega)]
  omega

/-- The second byte of a three-byte character lies in the range that its lead asks for: no overlong
form, since the character needs three bytes, and no surrogate. -/
theorem second₃_byte {n : Nat} (h : 0x800 ≤ n) (hn : n < 0xD800 ∨ 0xDFFF < n) (hlt : n < 0x10000) :
    second₃ (byte (0xE0 + n / 0x1000)) (byte (0x80 + n / 0x40 % 0x40)) = true := by
  unfold second₃
  split
  next hlead =>
    have hn₀ := (byte_eq_iff (m := 0xE0) (by omega) (by omega)).1 hlead
    exact (within_byte (by omega)).2 (by omega)
  next =>
    split
    next hlead =>
      have hn₀ := (byte_eq_iff (m := 0xED) (by omega) (by omega)).1 hlead
      exact (within_byte (by omega)).2 (by omega)
    next => exact isContinuation_byte (by omega)

/-- The second byte of a four-byte character lies in the range that its lead asks for: no overlong
form, and nothing above the last code point. -/
theorem second₄_byte {n : Nat} (h : 0x10000 ≤ n) (hlt : n < 0x110000) :
    second₄ (byte (0xF0 + n / 0x40000)) (byte (0x80 + n / 0x1000 % 0x40)) = true := by
  unfold second₄
  split
  next hlead =>
    have hn₀ := (byte_eq_iff (m := 0xF0) (by omega) (by omega)).1 hlead
    exact (within_byte (by omega)).2 (by omega)
  next =>
    split
    next hlead =>
      have hn₀ := (byte_eq_iff (m := 0xF4) (by omega) (by omega)).1 hlead
      exact (within_byte (by omega)).2 (by omega)
    next => exact isContinuation_byte (by omega)

/-! ## One character -/

section
variable (index : Nat) (rest : List UInt8)

/-- A character of one byte is read back. -/
theorem decodeFrom_one {c : Char} (hlt : c.toNat < 0x80) :
    decodeFrom index (byte c.toNat :: rest) = (decodeFrom (index + 1) rest).map (c :: ·) := by
  rw [decodeFrom.eq_def]
  simp only [(byte_lt_iff (by omega)).2 hlt, if_true]
  rw [toNat_byte (by omega), Char.ofNat_toNat]

/-- A character of two bytes is read back. -/
theorem decodeFrom_two {c : Char} (h : 0x80 ≤ c.toNat) (hlt : c.toNat < 0x800) :
    decodeFrom index (byte (0xC0 + c.toNat / 0x40) :: byte (0x80 + c.toNat % 0x40) :: rest) =
      (decodeFrom (index + 2) rest).map (c :: ·) := by
  have h₁ : ¬ byte (0xC0 + c.toNat / 0x40) < 0x80 := by rw [byte_lt_iff (by omega)]; omega
  have h₂ : within 0xC2 0xDF (byte (0xC0 + c.toNat / 0x40)) = true :=
    (within_byte (by omega)).2 (by omega)
  have hc : (0xC0 + c.toNat / 0x40) % 0x20 * 0x40 + c.toNat % 0x40 = c.toNat := by omega
  rw [decodeFrom.eq_def]
  simp only [h₁, h₂, isContinuation_byte (Nat.mod_lt c.toNat (by decide)), if_true, if_false]
  rw [payload_byte (Nat.mod_lt _ (by decide)), toNat_byte (by omega), hc, Char.ofNat_toNat]

/-- A character of three bytes is read back. -/
theorem decodeFrom_three {c : Char} (h : 0x800 ≤ c.toNat)
    (hs : c.toNat < 0xD800 ∨ 0xDFFF < c.toNat) (hlt : c.toNat < 0x10000) :
    decodeFrom index (byte (0xE0 + c.toNat / 0x1000) :: byte (0x80 + c.toNat / 0x40 % 0x40)
        :: byte (0x80 + c.toNat % 0x40) :: rest) =
      (decodeFrom (index + 3) rest).map (c :: ·) := by
  have h₁ : ¬ byte (0xE0 + c.toNat / 0x1000) < 0x80 := by rw [byte_lt_iff (by omega)]; omega
  have h₂ : ¬ within 0xC2 0xDF (byte (0xE0 + c.toNat / 0x1000)) = true := by
    rw [within_byte (by omega)]; omega
  have h₃ : within 0xE0 0xEF (byte (0xE0 + c.toNat / 0x1000)) = true :=
    (within_byte (by omega)).2 (by omega)
  have hc : (0xE0 + c.toNat / 0x1000) % 0x10 * 0x1000 + c.toNat / 0x40 % 0x40 * 0x40
      + c.toNat % 0x40 = c.toNat := by omega
  rw [decodeFrom.eq_def]
  simp only [h₁, h₂, h₃, second₃_byte h hs hlt,
    isContinuation_byte (Nat.mod_lt c.toNat (by decide)), if_true, if_false, Bool.false_eq_true]
  rw [payload_byte (Nat.mod_lt c.toNat (by decide)), payload_byte (Nat.mod_lt _ (by decide)),
    toNat_byte (by omega), hc, Char.ofNat_toNat]

/-- A character of four bytes is read back. -/
theorem decodeFrom_four {c : Char} (h : 0x10000 ≤ c.toNat) (hlt : c.toNat < 0x110000) :
    decodeFrom index (byte (0xF0 + c.toNat / 0x40000) :: byte (0x80 + c.toNat / 0x1000 % 0x40)
        :: byte (0x80 + c.toNat / 0x40 % 0x40) :: byte (0x80 + c.toNat % 0x40) :: rest) =
      (decodeFrom (index + 4) rest).map (c :: ·) := by
  have h₁ : ¬ byte (0xF0 + c.toNat / 0x40000) < 0x80 := by rw [byte_lt_iff (by omega)]; omega
  have h₂ : ¬ within 0xC2 0xDF (byte (0xF0 + c.toNat / 0x40000)) = true := by
    rw [within_byte (by omega)]; omega
  have h₃ : ¬ within 0xE0 0xEF (byte (0xF0 + c.toNat / 0x40000)) = true := by
    rw [within_byte (by omega)]; omega
  have h₄ : within 0xF0 0xF4 (byte (0xF0 + c.toNat / 0x40000)) = true :=
    (within_byte (by omega)).2 (by omega)
  have hc : (0xF0 + c.toNat / 0x40000) % 0x08 * 0x40000 + c.toNat / 0x1000 % 0x40 * 0x1000
      + c.toNat / 0x40 % 0x40 * 0x40 + c.toNat % 0x40 = c.toNat := by omega
  rw [decodeFrom.eq_def]
  simp only [h₁, h₂, h₃, h₄, second₄_byte h hlt,
    isContinuation_byte (Nat.mod_lt c.toNat (by decide)),
    isContinuation_byte (Nat.mod_lt (c.toNat / 0x40) (by decide)), if_true, if_false,
    Bool.false_eq_true]
  rw [payload_byte (Nat.mod_lt c.toNat (by decide)), payload_byte (Nat.mod_lt _ (by decide)),
    payload_byte (Nat.mod_lt _ (by decide)), toNat_byte (by omega), hc, Char.ofNat_toNat]

end

/-- An encoded character is read back, whatever follows it. The four cases are the four lengths of
an encoded character. -/
theorem decodeFrom_encodeChar (index : Nat) (c : Char) (rest : List UInt8) :
    decodeFrom index (encodeChar c ++ rest) =
      (decodeFrom (index + (encodeChar c).length) rest).map (c :: ·) := by
  have hc : c.toNat < 0xD800 ∨ 0xDFFF < c.toNat ∧ c.toNat < 0x110000 := c.valid
  unfold encodeChar
  simp only
  split
  · exact decodeFrom_one index rest (by omega)
  · split
    · exact decodeFrom_two index rest (by omega) (by omega)
    · split
      · exact decodeFrom_three index rest (by omega) (by omega) (by omega)
      · exact decodeFrom_four index rest (by omega) (by omega)

/-! ## Texts -/

/-- An encoded text is read back, wherever it stands. -/
theorem decodeFrom_encode : ∀ (text : List Char) (index : Nat),
    decodeFrom index (encode text) = .ok text
  | [], _ => rfl
  | c :: text, index => by
      rw [encode, List.flatMap_cons, decodeFrom_encodeChar]
      change (decodeFrom _ (encode text)).map _ = _
      rw [decodeFrom_encode text]
      rfl

/-- The bytes of a string are read back as that string. -/
theorem decode_ofString (text : String) : decode (ofString text) = .ok text := by
  rw [decode, ofString, decodeFrom_encode]
  change Except.ok (String.ofList text.toList) = _
  rw [String.ofList_toList]

/-! ## Encoding undoes decoding -/

/-- A byte lies in a range if its value does. -/
theorem within_iff {first last : Nat} {b : UInt8} :
    within first last b = true ↔ first ≤ b.toNat ∧ b.toNat ≤ last := by
  rw [within, Bool.and_eq_true, decide_eq_true_iff, decide_eq_true_iff]

/-- A byte is that of its own value. -/
theorem byte_of_eq_toNat {n : Nat} {b : UInt8} (h : n = b.toNat) : byte n = b := by
  rw [h, byte, UInt8.ofNat_toNat]

/-- The second byte of a sequence continues it, not below a bound after one lead and not above a
bound after another one. -/
theorem bounds_of_second {x y lead b : UInt8} (hxy : x ≠ y) {low high : Nat} (hlow : 0x80 ≤ low)
    (hhigh : high ≤ 0xBF) (h : (if lead = x then within low 0xBF
      else if lead = y then within 0x80 high else isContinuation) b = true) :
    0x80 ≤ b.toNat ∧ b.toNat ≤ 0xBF ∧ (lead.toNat = x.toNat → low ≤ b.toNat) ∧
      (lead.toNat = y.toNat → b.toNat ≤ high) := by
  simp only [UInt8.toNat_inj]
  split at h
  next hx =>
    rw [within_iff] at h
    exact ⟨by omega, h.2, fun _ => h.1, fun hy => absurd (hx.symm.trans hy) hxy⟩
  next hx =>
    split at h
    next hy =>
      rw [within_iff] at h
      exact ⟨h.1, by omega, fun h => absurd h hx, fun _ => h.2⟩
    next hy =>
      rw [isContinuation, within_iff] at h
      exact ⟨h.1, h.2, fun h => absurd h hx, fun h => absurd h hy⟩

/-- A number that is no surrogate and not too large is the code point of its character. -/
theorem toNat_ofNat {n : Nat} (h : n < 0xD800 ∨ 0xDFFF < n ∧ n < 0x110000) :
    (Char.ofNat n).toNat = n := by
  rw [Char.ofNat, dif_pos h]
  rfl

/-- A continuation byte is made of the six bits that it carries. -/
theorem byte_payload {b : UInt8} (hlow : 0x80 ≤ b.toNat) (hhigh : b.toNat ≤ 0xBF) :
    byte (0x80 + payload b) = b :=
  byte_of_eq_toNat (by rw [payload]; omega)

/-- A continuation byte carries six bits. -/
theorem payload_lt (b : UInt8) : payload b < 0x40 := Nat.mod_lt _ (by decide)

/-- A character of three bytes, given by the bits of each. -/
theorem encodeChar_bits₃ {x y z : Nat} (hx : x < 0x10) (hy : y < 0x40) (hz : z < 0x40)
    (hlow : 0x800 ≤ x * 0x1000 + y * 0x40 + z)
    (hvalid : x * 0x1000 + y * 0x40 + z < 0xD800 ∨ 0xDFFF < x * 0x1000 + y * 0x40 + z) :
    encodeChar (Char.ofNat (x * 0x1000 + y * 0x40 + z)) =
      [byte (0xE0 + x), byte (0x80 + y), byte (0x80 + z)] := by
  have h₀ : (x * 0x1000 + y * 0x40 + z) / 0x1000 = x := by omega
  have h₁ : (x * 0x1000 + y * 0x40 + z) / 0x40 % 0x40 = y := by omega
  have h₂ : (x * 0x1000 + y * 0x40 + z) % 0x40 = z := by omega
  rw [encodeChar, toNat_ofNat (by omega), if_neg (by omega), if_neg (by omega), if_pos (by omega),
    h₀, h₁, h₂]

/-- A character of four bytes, given by the bits of each. -/
theorem encodeChar_bits₄ {w x y z : Nat} (hx : x < 0x40) (hy : y < 0x40) (hz : z < 0x40)
    (hlow : 0x10000 ≤ w * 0x40000 + x * 0x1000 + y * 0x40 + z)
    (hvalid : w * 0x40000 + x * 0x1000 + y * 0x40 + z < 0x110000) :
    encodeChar (Char.ofNat (w * 0x40000 + x * 0x1000 + y * 0x40 + z)) =
      [byte (0xF0 + w), byte (0x80 + x), byte (0x80 + y), byte (0x80 + z)] := by
  have h₀ : (w * 0x40000 + x * 0x1000 + y * 0x40 + z) / 0x40000 = w := by omega
  have h₁ : (w * 0x40000 + x * 0x1000 + y * 0x40 + z) / 0x1000 % 0x40 = x := by omega
  have h₂ : (w * 0x40000 + x * 0x1000 + y * 0x40 + z) / 0x40 % 0x40 = y := by omega
  have h₃ : (w * 0x40000 + x * 0x1000 + y * 0x40 + z) % 0x40 = z := by omega
  rw [encodeChar, toNat_ofNat (by omega), if_neg (by omega), if_neg (by omega), if_neg (by omega),
    h₀, h₁, h₂, h₃]

section
variable {b₀ b₁ b₂ b₃ : UInt8}

/-- A sequence of one byte is the encoding of its character. -/
theorem encodeChar_one (h₀ : b₀ < 0x80) : encodeChar (Char.ofNat b₀.toNat) = [b₀] := by
  have hlt : b₀.toNat < 0x80 := UInt8.lt_iff_toNat_lt.1 h₀
  rw [encodeChar, toNat_ofNat (by omega), if_pos hlt, byte_of_eq_toNat rfl]

/-- A sequence of two bytes is the encoding of its character. -/
theorem encodeChar_two (h₀ : within 0xC2 0xDF b₀ = true) (h₁ : isContinuation b₁ = true) :
    encodeChar (Char.ofNat (b₀.toNat % 0x20 * 0x40 + payload b₁)) = [b₀, b₁] := by
  rw [within_iff] at h₀
  rw [isContinuation, within_iff] at h₁
  rw [payload, encodeChar, toNat_ofNat (by omega), if_neg (by omega), if_pos (by omega),
    byte_of_eq_toNat (b := b₀) (by omega), byte_of_eq_toNat (b := b₁) (by omega)]

/-- A sequence of three bytes is the encoding of its character. -/
theorem encodeChar_three (h₀ : within 0xE0 0xEF b₀ = true) (h₁ : second₃ b₀ b₁ = true)
    (h₂ : isContinuation b₂ = true) :
    encodeChar (Char.ofNat (b₀.toNat % 0x10 * 0x1000 + payload b₁ * 0x40 + payload b₂)) =
      [b₀, b₁, b₂] := by
  rw [within_iff] at h₀
  rw [isContinuation, within_iff] at h₂
  obtain ⟨hmin, hmax, hlong, hsurrogate⟩ : 0x80 ≤ b₁.toNat ∧ b₁.toNat ≤ 0xBF ∧
      (b₀.toNat = 0xE0 → 0xA0 ≤ b₁.toNat) ∧ (b₀.toNat = 0xED → b₁.toNat ≤ 0x9F) :=
    bounds_of_second (by decide) (by decide) (by decide) h₁
  have hbits₁ : payload b₁ = b₁.toNat - 0x80 := by rw [payload]; omega
  have hlt₂ := payload_lt b₂
  rw [encodeChar_bits₃ (Nat.mod_lt _ (by decide)) (payload_lt b₁) hlt₂ (by omega) (by omega),
    byte_payload hmin hmax, byte_payload h₂.1 h₂.2, byte_of_eq_toNat (b := b₀) (by omega)]

/-- A sequence of four bytes is the encoding of its character. -/
theorem encodeChar_four (h₀ : within 0xF0 0xF4 b₀ = true) (h₁ : second₄ b₀ b₁ = true)
    (h₂ : isContinuation b₂ = true) (h₃ : isContinuation b₃ = true) :
    encodeChar (Char.ofNat (b₀.toNat % 0x08 * 0x40000 + payload b₁ * 0x1000 + payload b₂ * 0x40
      + payload b₃)) = [b₀, b₁, b₂, b₃] := by
  rw [within_iff] at h₀
  rw [isContinuation, within_iff] at h₂ h₃
  obtain ⟨hmin, hmax, hlong, hbeyond⟩ : 0x80 ≤ b₁.toNat ∧ b₁.toNat ≤ 0xBF ∧
      (b₀.toNat = 0xF0 → 0x90 ≤ b₁.toNat) ∧ (b₀.toNat = 0xF4 → b₁.toNat ≤ 0x8F) :=
    bounds_of_second (by decide) (by decide) (by decide) h₁
  have hbits₁ : payload b₁ = b₁.toNat - 0x80 := by rw [payload]; omega
  have hlt₂ := payload_lt b₂
  have hlt₃ := payload_lt b₃
  rw [encodeChar_bits₄ (payload_lt b₁) hlt₂ hlt₃ (by omega) (by omega), byte_payload hmin hmax,
    byte_payload h₂.1 h₂.2, byte_payload h₃.1 h₃.2, byte_of_eq_toNat (b := b₀) (by omega)]

end

/-- A sequence that is read as a character is put before what is read as a text. -/
theorem encode_of_map {index : Nat} {rest sequence : List UInt8} {c : Char} {text : List Char}
    (hrest : ∀ {text}, decodeFrom index rest = .ok text → encode text = rest)
    (hc : encodeChar c = sequence) (h : (decodeFrom index rest).map (c :: ·) = .ok text) :
    encode text = sequence ++ rest := by
  obtain ⟨later, hlater, rfl⟩ := Steps.map_eq_ok_iff.1 h
  rw [encode, List.flatMap_cons, hc, ← encode, hrest hlater]

/-- Bytes that are read as characters are the encoding of these. -/
theorem encode_of_decodeFrom {index : Nat} {bytes : List UInt8} {text : List Char}
    (h : decodeFrom index bytes = .ok text) : encode text = bytes := by
  fun_induction decodeFrom index bytes generalizing text with
  | case1 =>
    cases h
    rfl
  | case2 _ _ _ h₀ ih => exact encode_of_map ih (encodeChar_one h₀) h
  | case4 _ _ _ h₀ _ _ h₁ ih => exact encode_of_map ih (encodeChar_two h₀ h₁) h
  | case8 _ _ _ _ h₀ _ h₁ _ _ h₂ ih => exact encode_of_map ih (encodeChar_three h₀ h₁ h₂) h
  | case14 _ _ _ _ _ h₀ _ h₁ _ h₂ _ _ h₃ ih =>
    exact encode_of_map ih (encodeChar_four h₀ h₁ h₂ h₃) h
  | _ => cases h

/-- Bytes that are read as a string are the bytes of that string. -/
theorem ofString_of_decode {bytes : List UInt8} {text : String} (h : decode bytes = .ok text) :
    ofString text = bytes := by
  obtain ⟨chars, hchars, rfl⟩ := Steps.map_eq_ok_iff.1 h
  rw [ofString, String.toList_ofList, encode_of_decodeFrom hchars]

end TextAdventure.Utf8
