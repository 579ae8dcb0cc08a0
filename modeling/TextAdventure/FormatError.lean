import TextAdventure.Text.Hex
import TextAdventure.Text.Numeral
import TextAdventure.Text.Utf8

/-!
# Malformed input

The causes for which a version, a name or an artifact is refused, and their wording. Every message
starts with `format error: `.
-/

namespace TextAdventure

/-- A component of a version. -/
inductive VersionPart where
  | major
  | minor
  | patch
deriving DecidableEq

/-- The name of a component in messages. -/
def VersionPart.name : VersionPart → String
  | .major => "major"
  | .minor => "minor"
  | .patch => "patch"

/-- Why a text or a byte string cannot be read. -/
inductive FormatError where
  /-- The version text does not have three parts. -/
  | versionShape (text : String)
  /-- A part of the version text is not a number of 32 bits. -/
  | versionPart (part : VersionPart) (raw text : String) (fault : Numeral.Fault)
  /-- No direction has this name. -/
  | unknownDirection (name : String)
  /-- No keyword has this spelling. -/
  | unknownKeyword (spelling : String)
  /-- The artifact ends at `position`, inside something that should go on. -/
  | truncated (position : Nat)
  /-- At `position` other bytes were needed. -/
  | expected (bytes : List UInt8) (position : Nat)
  /-- The tag that ends a text does not occur after `position`. -/
  | missingTag (tag : List UInt8) (position : Nat)
  /-- A payload is not text. -/
  | notText (fault : Utf8.Fault)
  /-- A payload is not an identifier. -/
  | badId (text : String)
  /-- A direction is given by a code that no direction has. -/
  | badDirectionCode (code : String)
  /-- An entry of a mapping does not consist of one key and one value. -/
  | badEntry
  /-- Bytes follow the end of the artifact. -/
  | trailing (count : Nat)

/-- Where the bytes stop being UTF-8, in words. -/
def Utf8.Fault.message : Utf8.Fault → String
  | .invalid index length =>
    "invalid utf-8 sequence of " ++ Numeral.print length ++ " bytes from index "
      ++ Numeral.print index
  | .incomplete index => "incomplete utf-8 byte sequence from index " ++ Numeral.print index

/-- The cause, without the words that all malformed input shares. -/
def FormatError.reason : FormatError → String
  | .versionShape text =>
    "invalid version \"" ++ text ++ "\": expected vMAJOR.MINOR.PATCH"
  | .versionPart part raw text fault =>
    "invalid " ++ part.name ++ " component \"" ++ raw ++ "\" in \"" ++ text ++ "\": " ++ fault.message
  | .unknownDirection name => "unknown direction \"" ++ name ++ "\""
  | .unknownKeyword spelling => "unknown keyword \"" ++ spelling ++ "\""
  | .truncated position => "unexpected end of artifact at byte " ++ Numeral.print position
  | .expected bytes position =>
    "expected " ++ Hex.listing bytes ++ " at byte " ++ Numeral.print position
  | .missingTag tag position =>
    "missing " ++ Hex.listing tag ++ " after byte " ++ Numeral.print position
  | .notText fault => "payload is not UTF-8: " ++ fault.message
  | .badId text => "bad object ID \"" ++ text ++ "\""
  | .badDirectionCode code => "bad direction code \"" ++ code ++ "\""
  | .badEntry => "mapping entry without a single SET"
  | .trailing count => Numeral.print count ++ " trailing bytes after lookup region"

/-- The whole message. -/
def FormatError.message (e : FormatError) : String := "format error: " ++ e.reason

end TextAdventure
