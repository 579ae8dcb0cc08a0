/-!
# Blank characters

A character is blank if it has the Unicode property `White_Space`. Trimming removes blanks at the two
ends of a text and nothing inside it.
-/

namespace TextAdventure.Text

/-- The code points with the property `White_Space`, as inclusive ranges. -/
def blankRanges : List (Nat × Nat) :=
  [(0x09, 0x0D), (0x20, 0x20), (0x85, 0x85), (0xA0, 0xA0), (0x1680, 0x1680), (0x2000, 0x200A),
    (0x2028, 0x2029), (0x202F, 0x202F), (0x205F, 0x205F), (0x3000, 0x3000)]

/-- Whether a character is white space. -/
def isBlank (c : Char) : Bool :=
  blankRanges.any fun (first, last) => first ≤ c.toNat && c.toNat ≤ last

/-- The text from its first character that is not blank. -/
def trimStart (text : List Char) : List Char := text.dropWhile isBlank

/-- The text up to its last character that is not blank. -/
def trimEnd (text : List Char) : List Char := (text.reverse.dropWhile isBlank).reverse

/-- The text without the blanks at its two ends. -/
def trim (text : List Char) : List Char := trimEnd (trimStart text)

/-- Trimming does not lengthen a text. -/
theorem length_trim_le (text : List Char) : (trim text).length ≤ text.length := by
  have hend : (trimEnd (trimStart text)).length ≤ (trimStart text).length := by
    simpa [trimEnd] using (List.dropWhile_suffix isBlank (l := (trimStart text).reverse)).length_le
  exact Nat.le_trans hend (List.dropWhile_suffix isBlank).length_le

end TextAdventure.Text
