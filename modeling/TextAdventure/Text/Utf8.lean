/-!
# Text as UTF-8 bytes

Encoding writes each character in one to four bytes. Decoding accepts exactly the well-formed
sequences: no overlong form, no surrogate, nothing above U+10FFFF. A refusal says where the bad
sequence starts and how many of its bytes were acceptable.
-/

namespace TextAdventure

namespace Utf8

/-- Why bytes are not UTF-8. -/
inductive Fault where
  /-- At `index` stands a sequence that goes wrong after its first `length` bytes. -/
  | invalid (index length : Nat)
  /-- The bytes end inside the sequence that starts at `index`. -/
  | incomplete (index : Nat)
deriving DecidableEq

/-- The byte of a number below 256. -/
def byte (n : Nat) : UInt8 := UInt8.ofNat n

/-- The bytes of a character. -/
def encodeChar (c : Char) : List UInt8 :=
  let n := c.toNat
  if n < 0x80 then
    [byte n]
  else if n < 0x800 then
    [byte (0xC0 + n / 0x40), byte (0x80 + n % 0x40)]
  else if n < 0x10000 then
    [byte (0xE0 + n / 0x1000), byte (0x80 + n / 0x40 % 0x40), byte (0x80 + n % 0x40)]
  else
    [byte (0xF0 + n / 0x40000), byte (0x80 + n / 0x1000 % 0x40), byte (0x80 + n / 0x40 % 0x40),
      byte (0x80 + n % 0x40)]

/-- The bytes of a text. -/
def encode (text : List Char) : List UInt8 := text.flatMap encodeChar

/-- The number of bytes of a text. -/
def size : List Char → Nat
  | [] => 0
  | c :: rest => c.utf8Size + size rest

/-- Whether a byte lies in a range, ends included. -/
def within (first last : Nat) (b : UInt8) : Bool := first ≤ b.toNat && b.toNat ≤ last

/-- Whether a byte continues a sequence. -/
def isContinuation (b : UInt8) : Bool := within 0x80 0xBF b

/-- The six bits that a continuation byte carries. -/
def payload (b : UInt8) : Nat := b.toNat % 0x40

/-- The range of the second byte of a three-byte sequence, which excludes overlong forms after `E0`
and surrogates after `ED`. -/
def second₃ (lead : UInt8) : UInt8 → Bool :=
  if lead = 0xE0 then within 0xA0 0xBF
  else if lead = 0xED then within 0x80 0x9F
  else isContinuation

/-- The range of the second byte of a four-byte sequence, which excludes overlong forms after `F0`
and code points above U+10FFFF after `F4`. -/
def second₄ (lead : UInt8) : UInt8 → Bool :=
  if lead = 0xF0 then within 0x90 0xBF
  else if lead = 0xF4 then within 0x80 0x8F
  else isContinuation

/-- Decodes bytes of which the first stands at `index`. -/
def decodeFrom (index : Nat) : List UInt8 → Except Fault (List Char)
  | [] => .ok []
  | b₀ :: rest₀ =>
    if b₀ < 0x80 then
      (decodeFrom (index + 1) rest₀).map (Char.ofNat b₀.toNat :: ·)
    else if within 0xC2 0xDF b₀ then
      match rest₀ with
      | [] => .error (.incomplete index)
      | b₁ :: rest₁ =>
        if isContinuation b₁ then
          (decodeFrom (index + 2) rest₁).map
            (Char.ofNat (b₀.toNat % 0x20 * 0x40 + payload b₁) :: ·)
        else .error (.invalid index 1)
    else if within 0xE0 0xEF b₀ then
      match rest₀ with
      | [] => .error (.incomplete index)
      | b₁ :: rest₁ =>
        if second₃ b₀ b₁ then
          match rest₁ with
          | [] => .error (.incomplete index)
          | b₂ :: rest₂ =>
            if isContinuation b₂ then
              (decodeFrom (index + 3) rest₂).map
                (Char.ofNat (b₀.toNat % 0x10 * 0x1000 + payload b₁ * 0x40 + payload b₂) :: ·)
            else .error (.invalid index 2)
        else .error (.invalid index 1)
    else if within 0xF0 0xF4 b₀ then
      match rest₀ with
      | [] => .error (.incomplete index)
      | b₁ :: rest₁ =>
        if second₄ b₀ b₁ then
          match rest₁ with
          | [] => .error (.incomplete index)
          | b₂ :: rest₂ =>
            if isContinuation b₂ then
              match rest₂ with
              | [] => .error (.incomplete index)
              | b₃ :: rest₃ =>
                if isContinuation b₃ then
                  (decodeFrom (index + 4) rest₃).map
                    (Char.ofNat (b₀.toNat % 0x08 * 0x40000 + payload b₁ * 0x1000
                      + payload b₂ * 0x40 + payload b₃) :: ·)
                else .error (.invalid index 3)
            else .error (.invalid index 2)
        else .error (.invalid index 1)
    else .error (.invalid index 1)

/-- The text that the bytes encode. -/
def decode (bytes : List UInt8) : Except Fault String :=
  (decodeFrom 0 bytes).map String.ofList

/-- The bytes of a string. -/
def ofString (text : String) : List UInt8 := encode text.toList

end Utf8

end TextAdventure
