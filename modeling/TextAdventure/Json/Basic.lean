import TextAdventure.Decimal.Literal
import TextAdventure.Text.Hex

/-!
# Documents

A document is kept as it is written: numbers as literals, texts as the characters between their
quotes, members of objects in their order. `Json.ofString` and `Json.unescape` go between a text and
its written form; `Json.chars` writes a document without any blank.
-/

namespace TextAdventure

/-- A document as it is written. -/
inductive Json where
  | null
  | bool (value : Bool)
  | number (literal : Decimal.Literal)
  /-- A text, by the characters between its quotes. -/
  | string (raw : List Char)
  | array (items : List Json)
  /-- Members by their names, which are given as texts are. -/
  | object (members : List (List Char × Json))

namespace Json

/-! ## Texts -/

/-- A character as it is written in a text. -/
def escapeChar (c : Char) : List Char :=
  match c with
  | '"' => ['\\', '"']
  | '\\' => ['\\', '\\']
  | '\x08' => ['\\', 'b']
  | '\x0c' => ['\\', 'f']
  | '\n' => ['\\', 'n']
  | '\r' => ['\\', 'r']
  | '\t' => ['\\', 't']
  | c =>
    if c.toNat < 0x20 then
      ['\\', 'u', '0', '0', Hex.lowerDigit (c.toNat / 16), Hex.lowerDigit (c.toNat % 16)]
    else [c]

/-- A text as it is written. -/
def escape (text : List Char) : List Char := text.flatMap escapeChar

/-- The number of four hexadecimal digits. -/
def hexWord? (a b c d : Char) : Option Nat := do
  let a ← Hex.digit? a
  let b ← Hex.digit? b
  let c ← Hex.digit? c
  let d ← Hex.digit? d
  return ((a * 16 + b) * 16 + c) * 16 + d

/-- The character that a letter after a backslash stands for. -/
def shortEscape? : Char → Option Char
  | '"' => some '"'
  | '\\' => some '\\'
  | '/' => some '/'
  | 'b' => some '\x08'
  | 'f' => some '\x0c'
  | 'n' => some '\n'
  | 'r' => some '\r'
  | 't' => some '\t'
  | _ => none

/-- The text that was written, unless it has a surrogate without its partner. -/
def unescape : List Char → Option (List Char)
  | [] => some []
  | '\\' :: 'u' :: a :: b :: c :: d :: rest => do
    let n ← hexWord? a b c d
    if 0xD800 ≤ n ∧ n < 0xDC00 then
      match rest with
      | '\\' :: 'u' :: e :: f :: g :: h :: rest => do
        let m ← hexWord? e f g h
        if 0xDC00 ≤ m ∧ m < 0xE000 then
          return Char.ofNat (0x10000 + (n - 0xD800) * 0x400 + (m - 0xDC00)) :: (← unescape rest)
        else none
      | _ => none
    else if 0xDC00 ≤ n ∧ n < 0xE000 then none
    else return Char.ofNat n :: (← unescape rest)
  | '\\' :: c :: rest => do
    let c ← shortEscape? c
    return c :: (← unescape rest)
  | ['\\'] => none
  | c :: rest => (unescape rest).map (c :: ·)

/-! ## Documents of values -/

/-- The document of a text. -/
def ofString (text : String) : Json := .string (escape text.toList)

/-- The document of an integer. -/
def ofInt (n : Int) : Json := .number (.ofInt n)

/-- An object with its members in order. -/
def ofMembers (members : List (String × Json)) : Json :=
  .object (members.map fun (name, value) => (escape name.toList, value))

/-! ## Writing -/

mutual

/-- The document, without blanks. -/
def chars : Json → List Char
  | .null => ['n', 'u', 'l', 'l']
  | .bool true => ['t', 'r', 'u', 'e']
  | .bool false => ['f', 'a', 'l', 's', 'e']
  | .number literal => literal.chars
  | .string raw => '"' :: raw ++ ['"']
  | .array [] => ['[', ']']
  | .array (item :: items) => '[' :: chars item ++ charsItems items ++ [']']
  | .object [] => ['\x7b', '\x7d']
  | .object ((name, value) :: members) =>
    '\x7b' :: '"' :: name ++ '"' :: ':' :: chars value ++ charsMembers members ++ ['\x7d']

/-- The further items of an array, each after a comma. -/
def charsItems : List Json → List Char
  | [] => []
  | item :: items => ',' :: chars item ++ charsItems items

/-- The further members of an object, each after a comma. -/
def charsMembers : List (List Char × Json) → List Char
  | [] => []
  | (name, value) :: members =>
    ',' :: '"' :: name ++ '"' :: ':' :: chars value ++ charsMembers members

end

/-- The text of a document. -/
def print (j : Json) : String := String.ofList j.chars

end Json

end TextAdventure
