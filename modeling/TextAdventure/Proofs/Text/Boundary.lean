import TextAdventure.Proofs.Text.Utf8

/-!
# Byte offsets into a text

The bytes of a text can be cut at an offset without cutting a character if the offset is the end or
if the byte there does not continue a character (`IsBoundary`). The size of a beginning of the text is
such an offset (`isBoundary_size`), and what stands between two of them is the bytes of the characters
between them (`slice_append`).
-/

namespace TextAdventure.Utf8

/-- An offset at which the bytes of a text can be cut without cutting a character. -/
structure IsBoundary (text : List Char) (offset : Nat) : Prop where
  le_length : offset ≤ (encode text).length
  not_continuation : ∀ b, (encode text)[offset]? = some b → isContinuation b = false

/-- The bytes of a text from one offset up to another. -/
def slice (text : List Char) (start stop : Nat) : List UInt8 :=
  ((encode text).take stop).drop start

/-- A text is determined by its bytes. -/
theorem encode_injective : Function.Injective encode := by
  intro text other h
  have hread := decodeFrom_encode text 0
  rw [h, decodeFrom_encode] at hread
  exact (Except.ok.inj hread).symm

/-! ## Sizes -/

/-- Texts are encoded one after the other. -/
@[simp] theorem encode_append (text more : List Char) :
    encode (text ++ more) = encode text ++ encode more :=
  List.flatMap_append

/-- The number of bytes of a character is told by its number. -/
theorem utf8Size_eq (c : Char) : c.utf8Size =
    if c.toNat < 0x80 then 1 else if c.toNat < 0x800 then 2
    else if c.toNat < 0x10000 then 3 else 4 := by
  have hle : ∀ n m : Nat, (h : n < UInt32.size) → m = n + 1 →
      (c.val ≤ UInt32.ofNatLT n h ↔ c.toNat < m) := by
    intro n m h hm
    rw [UInt32.le_iff_toNat_le, UInt32.toNat_ofNatLT, hm]
    exact Nat.lt_succ_iff.symm
  unfold Char.utf8Size
  simp only [hle _ 0x80 _ rfl, hle _ 0x800 _ rfl, hle _ 0x10000 _ rfl]

/-- A character has as many bytes as its size says. -/
theorem length_encodeChar (c : Char) : (encodeChar c).length = c.utf8Size := by
  rw [utf8Size_eq, encodeChar]
  split
  · rfl
  · split
    · rfl
    · split <;> rfl

/-- The size of a text is the number of its bytes. -/
theorem length_encode (text : List Char) : (encode text).length = size text := by
  induction text with
  | nil => rfl
  | cons c rest ih =>
    rw [size, ← ih, ← length_encodeChar]
    exact List.length_append

/-- The size of two texts is the sum of their sizes. -/
@[simp] theorem size_append (text more : List Char) : size (text ++ more) = size text + size more := by
  rw [← length_encode, ← length_encode, ← length_encode, encode_append, List.length_append]

/-- A text that is not empty has a size. -/
theorem size_pos {text : List Char} (h : text ≠ []) : 0 < size text := by
  obtain ⟨c, rest, rfl⟩ := List.exists_cons_of_ne_nil h
  have := c.utf8Size_pos
  rw [size]
  omega

/-! ## Boundaries -/

/-- The first byte of a character does not continue one. -/
theorem exists_lead (c : Char) :
    ∃ lead rest, encodeChar c = lead :: rest ∧ isContinuation lead = false := by
  have hlead : ∀ {n : Nat}, n < 0x100 → (n < 0x80 ∨ 0xBF < n) → isContinuation (byte n) = false := by
    intro n h hn
    rw [Bool.eq_false_iff, isContinuation, Ne, within_byte h]
    omega
  have hc : c.toNat < 0xD800 ∨ 0xDFFF < c.toNat ∧ c.toNat < 0x110000 := c.valid
  rw [encodeChar]
  split
  · exact ⟨_, _, rfl, hlead (by omega) (by omega)⟩
  · split
    · exact ⟨_, _, rfl, hlead (by omega) (by omega)⟩
    · split
      · exact ⟨_, _, rfl, hlead (by omega) (by omega)⟩
      · exact ⟨_, _, rfl, hlead (by omega) (by omega)⟩

/-- A text can be cut behind a beginning of it. -/
theorem isBoundary_size (before after : List Char) : IsBoundary (before ++ after) (size before) where
  le_length := by
    rw [length_encode, size_append]
    exact Nat.le_add_right _ _
  not_continuation := by
    intro b hb
    rw [encode_append, ← length_encode, List.getElem?_append_right (Nat.le_refl _), Nat.sub_self] at hb
    cases after with
    | nil => cases hb
    | cons c after =>
      obtain ⟨lead, rest, hc, hlead⟩ := exists_lead c
      have hencode : encode (c :: after) = lead :: (rest ++ encode after) := by
        rw [← List.cons_append, ← hc]
        rfl
      rw [hencode] at hb
      cases hb
      exact hlead

/-- What stands between the sizes of two beginnings is what the longer one has more. -/
theorem slice_append (before inside after : List Char) :
    slice (before ++ (inside ++ after)) (size before) (size before + size inside) = encode inside := by
  rw [slice, encode_append, encode_append, ← List.append_assoc, ← length_encode, ← length_encode,
    ← List.length_append, List.take_left, List.drop_left]

end TextAdventure.Utf8
