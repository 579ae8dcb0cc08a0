import TextAdventure.FormatError

/-!
# Versions

A version has three components of 32 bits. Its text is `v` and the components joined by points; when
reading, the `v` may be left out and a component may have one leading `+`.

The two comparisons are no order: a version is *above* another if any component is larger, and
*below* another only if all components are smaller.
-/

namespace TextAdventure

/-- A version of the compiler or of a runtime. -/
structure Version where
  major : UInt32
  minor : UInt32
  patch : UInt32
deriving DecidableEq

namespace Version

/-- The text of a version, as characters. -/
def chars (v : Version) : List Char :=
  'v' :: (Numeral.digits v.major.toNat ++ '.' :: (Numeral.digits v.minor.toNat
    ++ '.' :: Numeral.digits v.patch.toNat))

/-- The text of a version, such as `v0.1.0`. -/
def print (v : Version) : String := String.ofList v.chars

/-- Reads one component; `text` is the whole version text, for the message. -/
def readPart (part : VersionPart) (text raw : List Char) : Except FormatError UInt32 :=
  (Numeral.readWord raw).mapError
    (.versionPart part (String.ofList raw) (String.ofList text))

/-- The text behind one leading `v`. -/
def dropMark : List Char → List Char
  | 'v' :: rest => rest
  | text => text

/-- Reads a version from characters. The components are read in order, so the first bad one is
reported. -/
def read (text : List Char) : Except FormatError Version :=
  match (dropMark text).splitOn '.' with
  | [major, minor, patch] => do
    let major ← readPart .major text major
    let minor ← readPart .minor text minor
    let patch ← readPart .patch text patch
    return { major, minor, patch }
  | _ => .error (.versionShape (String.ofList text))

/-- Reads a version. -/
def parse (text : String) : Except FormatError Version := read text.toList

/-- Some component of `v` is larger than that of `w`. -/
def above (v w : Version) : Bool :=
  w.major < v.major || w.minor < v.minor || w.patch < v.patch

/-- Every component of `v` is smaller than that of `w`. -/
def below (v w : Version) : Bool :=
  v.major < w.major && v.minor < w.minor && v.patch < w.patch

end Version

end TextAdventure
