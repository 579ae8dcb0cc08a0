import TextAdventure.CommandLine.Arguments
import TextAdventure.CommandLine.Listing
import TextAdventure.CommandLine.Sample
import TextAdventure.Script.LibraryFolder
import TextAdventure.Script.Reading
import TextAdventure.Script.Report

/-!
# Running a command line

A command line is run on a tree of files and leaves an outcome: what is printed, the exit code, and the
tree as it is afterwards. A command that fails prints nothing on standard output and changes no file.
-/

namespace TextAdventure.CommandLine

open Script (IncludeError Diagnostic ReadScript Node errorCount warningCount)

/-- Why a command fails. -/
inductive Failure where
  | unreadable (path : String) (fault : FileFault)
  | unwritable (path : String) (fault : FileFault)
  /-- The libraries in a directory cannot be put into a script. -/
  | notExpanded (directory : String) (error : IncludeError)
  /-- The script has errors. -/
  | notSound
  | malformed (error : FormatError)
  | notCompiled (error : CompileError)

/-- The failure in words. -/
def Failure.message : Failure → String
  | .unreadable path fault => "cannot read " ++ path ++ ": " ++ fault.message
  | .unwritable path fault => "cannot write " ++ path ++ ": " ++ fault.message
  | .notExpanded _ error => error.message
  | .notSound => "check failed with errors"
  | .malformed error => error.message
  | .notCompiled error => error.message

/-- What a command line leaves behind. -/
structure Outcome where
  /-- The exit code. -/
  code : Nat
  /-- The lines on standard output. -/
  output : List String := []
  /-- The report of the problems of a script. -/
  report : List String := []
  /-- How many problems there are. -/
  tally : Option String := none
  failure : Option Failure := none
  /-- The files afterwards. -/
  tree : FileTree

namespace Outcome

/-- The text on standard output. -/
def outputText (o : Outcome) : String := String.join (o.output.map (· ++ "\n"))

/-- The line about a failure. -/
def failureLine (o : Outcome) : Option String := o.failure.map ("error: " ++ ·.message)

end Outcome

/-- A number of things, with their name in the singular. -/
def countOf (n : Nat) (name : String) : String :=
  Numeral.print n ++ " " ++ name ++ if n = 1 then "" else "s"

/-- How many problems a script has, unless it has none. -/
def tally (problems : List Diagnostic) : Option String :=
  let errors := errorCount problems
  let warnings := countOf (warningCount problems) "warning"
  if problems.isEmpty then none
  else if errors > 0 then some ("  " ++ countOf errors "error" ++ ", " ++ warnings)
  else some ("  " ++ warnings)

/-- A number at the right end of four columns. -/
def fourColumns (n : Nat) : String :=
  let digits := Numeral.digits n
  String.ofList (List.replicate (4 - digits.length) ' ' ++ digits)

/-! ## Scripts -/

/-- The directory in which the libraries of a script are looked for. -/
def libraryDirectory (file : String) (library : Option String) : String :=
  library.getD (String.ofList (Place.parentPath file.toList))

/-- Reads the script in a file. -/
def readScriptFile (t : FileTree) (file : String) (library : Option String) :
    Except Failure ReadScript := do
  let directory := libraryDirectory file library
  let source ← (t.readText file.toList).mapError (.unreadable file)
  (Script.readScript .standard (.ofDirectory t directory) source).mapError (.notExpanded directory)

/-- What a check says about a script without errors. -/
def checkLines (file : String) (script : ReadScript) : List String :=
  let nodes := script.reading.outline.nodes.tail
  let line (name : String) (counts : Node → Bool) : String :=
    "    " ++ fourColumns (nodes.countP counts) ++ " " ++ name
  ["  All checks passed for '" ++ file ++ "'.",
    "  " ++ Numeral.print script.reading.outline.count ++ " statements",
    line "commands" (·.content.kind.isCommand), line "groupings" (·.content.kind.isGrouping),
    line "values" (·.content.kind = .value)]

/-- The outcome of a command that reads a script and then says something about it. -/
def onScript (t : FileTree) (file : String) (library : Option String)
    (answer : ReadScript → Except Failure (List String)) : Outcome :=
  match readScriptFile t file library with
  | .error failure => { code := 1, failure := failure, tree := t }
  | .ok script =>
    let problems := script.reading.problems
    let report := Script.report script.expanded file problems
    match answer script with
    | .ok output => { code := 0, output, report, tally := tally problems, tree := t }
    | .error failure => { code := 1, report, tally := tally problems, failure := failure, tree := t }

/-! ## Artifacts -/

/-- Compiles the sample adventure into a file. -/
def writeSample (t : FileTree) (output : String) (compilerVersion : Option String) :
    Except Failure (List String × FileTree) := do
  let config : CompilerConfig ← match compilerVersion with
    | none => pure {}
    | some text => do
      let version ← (Version.parse text).mapError .malformed
      pure { version }
  let compilation := compile config sampleAdventure .fresh
  let bytes ← compilation.result.mapError .notCompiled
  let tree ← (t.write output.toList bytes).mapError (.unwritable output)
  let adventure := compilation.adventure
  return (["  Compiled '" ++ adventure.name ++ "' successfully.",
    "  " ++ Numeral.print adventure.objects.length ++ " records, " ++ Numeral.print bytes.length
      ++ " bytes -> " ++ output], tree)

/-- Lists the artifact in a file. -/
def listArtifact (t : FileTree) (path : String) : Except Failure (List String) := do
  let bytes ← (t.read path.toList).mapError (.unreadable path)
  let artifact ← (Artifact.decode bytes).mapError .malformed
  return listing artifact

/-! ## Commands -/

/-- Runs a command. -/
def Command.run (t : FileTree) : Command → Outcome
  | .parse file library => onScript t file library fun script => .ok [script.reading.outline.print]
  | .check file library => onScript t file library fun script =>
    if script.reading.hasErrors then .error .notSound else .ok (checkLines file script)
  | .sample output compilerVersion =>
    match writeSample t output compilerVersion with
    | .ok (lines, tree) => { code := 0, output := lines, tree }
    | .error failure => { code := 1, failure := failure, tree := t }
  | .inspect path =>
    match listArtifact t path with
    | .ok lines => { code := 0, output := lines, tree := t }
    | .error failure => { code := 1, failure := failure, tree := t }

/-- The name of the program, or of one of its commands, with its version. -/
def versionLine (command : Option CommandName) : String :=
  "acl" ++ (match command with
    | some command => "-" ++ String.ofList command.word
    | none => "") ++ " 0.1.0"

/-- How the program is used. -/
def usage : List String :=
  ["Usage: acl [-v] <command>", "", "  parse <file> [--lib <directory>]",
    "  check <file> [--lib <directory>]",
    "  sample [--output <file>] [--compiler-version <version>]", "  inspect <file>"]

/-- Runs a command line. -/
def run (t : FileTree) (arguments : List String) : Outcome :=
  match Request.ofArguments (arguments.map String.toList) with
  | .run command => command.run t
  | .version command => { code := 0, output := [versionLine command], tree := t }
  | .help => { code := 0, output := usage, tree := t }
  | .misuse => { code := 2, tree := t }

/-- The path on whose absence from the tree a failure rests: something may be there that the tree does
not know of. -/
def Failure.unknownPath? : Failure → Option String
  | .unreadable path .missing => some path
  | .unwritable path .missing => some (String.ofList (Place.parentPath path.toList))
  | .notExpanded directory (.notFound name) =>
    if Script.isLibraryName name.toList then some (String.ofList (Script.libraryPath directory name))
    else none
  | _ => none

end TextAdventure.CommandLine
