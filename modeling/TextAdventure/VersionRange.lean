import TextAdventure.Text.Split
import TextAdventure.Version

/-!
# Ranges of versions

A range has two reference versions and may be open on either side. Its text is the two versions
joined by `-`, or one version if both are equal, with a leading `-` if it is open below and a
trailing `+` if it is open above.
-/

namespace TextAdventure

/-- The versions that an adventure or an artifact accepts. -/
structure VersionRange where
  /-- The lower reference version. -/
  base : Version
  /-- The upper reference version. -/
  top : Version
  /-- Versions above `top` belong to the range too. -/
  orHigher : Bool
  /-- Versions below `base` belong to the range too. -/
  orLower : Bool
deriving DecidableEq

namespace VersionRange

/-- Only this version. -/
def exact (v : Version) : VersionRange := ⟨v, v, false, false⟩

/-- This version and those above it. -/
def atLeast (v : Version) : VersionRange := ⟨v, v, true, false⟩

/-- The versions from the first to the second. -/
def between (base top : Version) : VersionRange := ⟨base, top, false, false⟩

/-- Whether a version belongs to the range. The comparisons are those of `Version`, so one larger
component is enough to lie above an end. -/
def accepts (r : VersionRange) (v : Version) : Bool :=
  if v = r.base ∨ v = r.top then true
  else if r.base = r.top ∧ r.orHigher = false ∧ r.orLower = false then false
  else (v.above r.base && v.below r.top) || (r.orHigher && v.above r.top)
    || (r.orLower && v.below r.base)

/-- The text of a range, as characters. -/
def chars (r : VersionRange) : List Char :=
  (if r.orLower then ['-'] else []) ++ r.base.chars
    ++ (if r.base = r.top then [] else '-' :: r.top.chars)
    ++ (if r.orHigher then ['+'] else [])

/-- The text of a range, such as `v0.1.0+`. -/
def print (r : VersionRange) : String := String.ofList r.chars

/-- Takes the leading `-` off a text. -/
def takeLower : List Char → Bool × List Char
  | '-' :: rest => (true, rest)
  | text => (false, text)

/-- Takes the trailing `+` off a text. -/
def takeHigher (text : List Char) : Bool × List Char :=
  if text.getLast? = some '+' then (true, text.dropLast) else (false, text)

/-- Reads a range from characters. The marks at the two ends come off first; of what remains, the
first `-` divides two versions. -/
def read (text : List Char) : Except FormatError VersionRange := do
  let (orLower, text) := takeLower text
  let (orHigher, text) := takeHigher text
  match Text.splitFirst '-' text with
  | some (base, top) =>
    let base ← Version.read base
    let top ← Version.read top
    return { base, top, orHigher, orLower }
  | none =>
    let version ← Version.read text
    return { base := version, top := version, orHigher, orLower }

/-- Reads a range. -/
def parse (text : String) : Except FormatError VersionRange := read text.toList

end VersionRange

end TextAdventure
