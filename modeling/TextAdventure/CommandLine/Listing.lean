import TextAdventure.Artifact.Access
import TextAdventure.CommandLine.Table
import TextAdventure.Text.Blank

/-!
# Listings of artifacts

An artifact is listed by its header, a table with one row per record, and the number of its records.
-/

namespace TextAdventure.CommandLine

/-- What a record of a kind says of itself in one text. -/
def kindSummary (r : Record) : RecordKind → String
  | .room => (r.text? .roomName).getD ""
  | .descriptions => (r.text? .usual).getD ""
  | .item => (r.text? .itemName).getD ""
  | .verb => (r.text? .verbName).getD ""
  | .argument =>
    let name := (r.text? .argumentName).getD ""
    match r.argumentType? with
    | some type => name ++ " (" ++ type.label ++ ")"
    | none => name
  | .code =>
    let word := (r.keyword?.map Keyword.spelling).getD "?"
    let arguments := (r.list .codeArguments).toOption.getD []
    String.ofList (Text.trimEnd (word ++ " " ++ String.intercalate " " arguments).toList)

/-- What a record says of itself in one text. -/
def summary (r : Record) : String :=
  match r.body with
  | .rendered text => text
  | .typed kind _ => kindSummary r kind

/-- The longest text of a cell. -/
def longestCell : Nat := 60

/-- A text as it stands in a cell: a dash if it is empty, and cut if it is too long. -/
def abridge (text : String) : String :=
  let cs := text.toList
  if cs.isEmpty then "-"
  else if cs.length > longestCell then String.ofList (cs.take (longestCell - 3) ++ ['.', '.', '.'])
  else text

/-- The table of the records of an artifact. -/
def recordTable (a : Artifact) : Table where
  header := ["ID", "Type", "Summary", "Properties"]
  rows := a.records.map fun r =>
    [r.id.print, r.kindName, abridge (summary r), Numeral.print r.properties.length]

/-- The listing of an artifact, line by line. -/
def listing (a : Artifact) : List String :=
  ["  " ++ a.name, "  compiler: " ++ a.compilerVersion.print, "  runtimes: " ++ a.runtimes.print,
    "  starting room: " ++ a.startingRoom.print]
    ++ (if a.startingText.isEmpty then [] else ["  starting text: " ++ a.startingText])
    ++ [""] ++ (recordTable a).lines ++ ["", "  " ++ Numeral.print a.records.length ++ " records"]

end TextAdventure.CommandLine
