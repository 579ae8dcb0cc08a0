import TextAdventure.CommandLine.Run

/-!
# The program

The command line is run on what is known of the files. If it fails for want of a file that was not yet
looked for, that file is looked for and the command line is run again; in the end the files that it
changed are written.
-/

namespace TextAdventure.CommandLine

/-- What is at a path of the machine, if anything. -/
def look (path : String) : IO (Option FileEntry) := do
  try
    let bytes ← IO.FS.readBinFile path
    return some (.file bytes.toList)
  catch
    | .noFileOrDirectory .. => return none
    | .inappropriateType _ 21 _ => return some .directory
    | .inappropriateType .. => return some (.unreadable FileFault.notDirectory.message)
    | .permissionDenied .. => return some (.unreadable "Permission denied (os error 13)")
    | other => return some (.unreadable (toString other))

/-- Runs a command line, and looks for files until none that it needs is unknown. Returns what is then
known of the files, and the outcome. -/
partial def settle (arguments : List String) (t : FileTree) (looked : List String) :
    IO (FileTree × Outcome) := do
  let outcome := run t arguments
  match outcome.failure.bind Failure.unknownPath? with
  | none => return (t, outcome)
  | some path =>
    if path ∈ looked then
      return (t, outcome)
    else
      let t := match ← look path with
        | some entry => t.put path entry
        | none => t
      settle arguments t (path :: looked)

/-- Writes the files that a command line changed, and says whether all could be written. -/
def save (before after : FileTree) : IO Bool := do
  try
    (before.changes after).forM fun (place, bytes) =>
      IO.FS.writeBinFile place.path ⟨bytes.toArray⟩
    return true
  catch e =>
    IO.eprintln ("error: cannot write: " ++ toString e)
    return false

end TextAdventure.CommandLine

open TextAdventure TextAdventure.CommandLine in
/-- Runs the command line of the process. -/
def main (arguments : List String) : IO UInt32 := do
  let (known, outcome) ← settle arguments {} []
  outcome.report.forM IO.eprintln
  outcome.tally.forM IO.eprintln
  outcome.failureLine.forM IO.eprintln
  if outcome.code = 2 then
    usage.forM IO.eprintln
  if ← save known outcome.tree then
    IO.print outcome.outputText
    return outcome.code.toUInt32
  else
    return 1
