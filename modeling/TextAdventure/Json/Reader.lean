import TextAdventure.Json.Basic

/-!
# Reading documents

The reader checks the grammar and keeps numbers and texts as they are written; what a number is
worth, and whether a text is sound, is decided by whoever uses the value. Blanks between the parts
are spaces, tabs, line feeds and carriage returns.
-/

namespace TextAdventure.Json

/-- Whether a character may stand between the parts of a document. -/
def isSpace (c : Char) : Bool := c == ' ' || c == '\n' || c == '\t' || c == '\r'

/-- The text from its first character that is no blank. -/
def skipSpace (text : List Char) : List Char := text.dropWhile isSpace

/-- Reads the rest of a text up to its closing quote: the characters before the quote, and what
follows it. -/
def readText : List Char → Option (List Char × List Char)
  | [] => none
  | '"' :: rest => some ([], rest)
  | '\\' :: 'u' :: a :: b :: c :: d :: rest => do
    let _ ← hexWord? a b c d
    let (raw, rest) ← readText rest
    return ('\\' :: 'u' :: a :: b :: c :: d :: raw, rest)
  | '\\' :: c :: rest => do
    let _ ← shortEscape? c
    let (raw, rest) ← readText rest
    return ('\\' :: c :: raw, rest)
  | c :: rest =>
    if c == '\\' || c.toNat < 0x20 then none
    else (readText rest).map fun (raw, rest) => (c :: raw, rest)

/-- Whether a character is an ASCII digit. -/
def isDigit (c : Char) : Bool := '0' ≤ c && c ≤ '9'

/-- Reads one digit or more. -/
def readDigits (text : List Char) : Option (List Char × List Char) :=
  match text.takeWhile isDigit with
  | [] => none
  | digits => some (digits, text.dropWhile isDigit)

/-- Reads the digits after a point, if there is a point. -/
def readFraction : List Char → Option (List Char × List Char)
  | '.' :: rest => readDigits rest
  | text => some ([], text)

/-- Reads the sign of an exponent. -/
def readSign : List Char → Decimal.ExponentSign × List Char
  | '+' :: rest => (.plus, rest)
  | '-' :: rest => (.minus, rest)
  | text => (.absent, text)

/-- Reads an exponent, if there is one. -/
def readExponent : List Char → Option (Option Decimal.Exponent × List Char)
  | c :: rest =>
    if c == 'e' || c == 'E' then do
      let (sign, rest) := readSign rest
      let (digits, rest) ← readDigits rest
      return (some { sign, digits }, rest)
    else some (none, c :: rest)
  | [] => some (none, [])

/-- Reads the whole digits of a number: a zero alone, or digits of which the first is no zero. -/
def readWhole : List Char → Option (List Char × List Char)
  | '0' :: rest => some (['0'], rest)
  | text => readDigits text

/-- Reads a number. -/
def readNumber (text : List Char) : Option (Decimal.Literal × List Char) := do
  let (negative, text) := match text with
    | '-' :: rest => (true, rest)
    | text => (false, text)
  let (whole, text) ← readWhole text
  let (fraction, text) ← readFraction text
  let (exponent, text) ← readExponent text
  return ({ negative, whole, fraction, exponent }, text)

/-- Reads the name of a member and the colon after it. -/
def readName : List Char → Option (List Char × List Char)
  | '"' :: rest => do
    let (name, rest) ← readText rest
    match skipSpace rest with
    | ':' :: rest => some (name, rest)
    | _ => none
  | _ => none

mutual

/-- Reads a value. Every value takes a character at least, so twice the length of the text is enough
fuel. -/
def readValue : (fuel : Nat) → List Char → Option (Json × List Char)
  | 0, _ => none
  | fuel + 1, text =>
    match skipSpace text with
    | 'n' :: 'u' :: 'l' :: 'l' :: rest => some (.null, rest)
    | 't' :: 'r' :: 'u' :: 'e' :: rest => some (.bool true, rest)
    | 'f' :: 'a' :: 'l' :: 's' :: 'e' :: rest => some (.bool false, rest)
    | '"' :: rest => (readText rest).map fun (raw, rest) => (.string raw, rest)
    | '[' :: rest =>
      match skipSpace rest with
      | ']' :: rest => some (.array [], rest)
      | rest => do
        let (item, rest) ← readValue fuel rest
        let (items, rest) ← readItems fuel rest
        return (.array (item :: items), rest)
    | '\x7b' :: rest =>
      match skipSpace rest with
      | '\x7d' :: rest => some (.object [], rest)
      | rest => do
        let (name, rest) ← readName rest
        let (value, rest) ← readValue fuel rest
        let (members, rest) ← readMembers fuel rest
        return (.object ((name, value) :: members), rest)
    | text => (readNumber text).map fun (literal, rest) => (.number literal, rest)

/-- Reads the further items of an array and its closing bracket. -/
def readItems : (fuel : Nat) → List Char → Option (List Json × List Char)
  | 0, _ => none
  | fuel + 1, text =>
    match skipSpace text with
    | ']' :: rest => some ([], rest)
    | ',' :: rest => do
      let (item, rest) ← readValue fuel rest
      let (items, rest) ← readItems fuel rest
      return (item :: items, rest)
    | _ => none

/-- Reads the further members of an object and its closing brace. -/
def readMembers : (fuel : Nat) → List Char → Option (List (List Char × Json) × List Char)
  | 0, _ => none
  | fuel + 1, text =>
    match skipSpace text with
    | '\x7d' :: rest => some ([], rest)
    | ',' :: rest => do
      let (name, rest) ← readName (skipSpace rest)
      let (value, rest) ← readValue fuel rest
      let (members, rest) ← readMembers fuel rest
      return ((name, value) :: members, rest)
    | _ => none

end

/-- Reads a whole text as one document. -/
def parse (text : String) : Option Json := do
  let (value, rest) ← readValue (2 * text.length + 1) text.toList
  if (skipSpace rest).isEmpty then some value else none

end TextAdventure.Json
