import TextAdventure.Text.Split

/-!
# Arguments of the command line

What a command line asks for. Arguments are read from left to right, and the first misuse or request
for help or the version ends the reading. A long option has its value after `=` or in the next
argument, a short one attached, after `=`, or in the next argument. An argument after `--` is never an
option.
-/

namespace TextAdventure.CommandLine

/-- The commands. -/
inductive CommandName where
  /-- Shows the outline of a script. -/
  | parse
  /-- Counts the statements of a script that has no errors. -/
  | check
  /-- Compiles the sample adventure. -/
  | sample
  /-- Lists the records of an artifact. -/
  | inspect
deriving DecidableEq

/-- The options that have a value. -/
inductive Setting where
  /-- The directory of the libraries. -/
  | library
  /-- The file to write. -/
  | output
  /-- The version of the compiler. -/
  | compilerVersion
deriving DecidableEq

/-- The options that have none. -/
inductive Flag where
  | verbose
  | version
  | help
deriving DecidableEq

namespace CommandName

/-- The word for the command. -/
def word : CommandName → List Char
  | .parse => ['p', 'a', 'r', 's', 'e']
  | .check => ['c', 'h', 'e', 'c', 'k']
  | .sample => ['s', 'a', 'm', 'p', 'l', 'e']
  | .inspect => ['i', 'n', 's', 'p', 'e', 'c', 't']

/-- The command with a word. -/
def ofWord? (word : List Char) : Option CommandName :=
  [parse, check, sample, inspect].find? (·.word = word)

/-- The options with a value that the command has. -/
def settings : CommandName → List Setting
  | .parse | .check => [.library]
  | .sample => [.output, .compilerVersion]
  | .inspect => []

/-- Whether the command has a file. -/
def hasFile : CommandName → Bool
  | .parse | .check | .inspect => true
  | .sample => false

end CommandName

namespace Setting

/-- The long form of the option, after its dashes. -/
def long : Setting → List Char
  | .library => ['l', 'i', 'b']
  | .output => ['o', 'u', 't', 'p', 'u', 't']
  | .compilerVersion => "compiler-version".toList

/-- The short form of the option. -/
def short? : Setting → Option Char
  | .library => some 'l'
  | .output => some 'o'
  | .compilerVersion => none

/-- Whether the value may be empty; a path may not. -/
def mayBeEmpty : Setting → Bool
  | .library | .output => false
  | .compilerVersion => true

end Setting

namespace Flag

/-- The long form of the option, after its dashes. -/
def long : Flag → List Char
  | .verbose => "verbose".toList
  | .version => "version".toList
  | .help => "help".toList

/-- The short form of the option. -/
def short : Flag → Char
  | .verbose => 'v'
  | .version => 'V'
  | .help => 'h'

/-- All options without a value. -/
def all : List Flag := [.verbose, .version, .help]

end Flag

/-- Why the reading of arguments ends before they do. -/
inductive Stop where
  | misuse
  | help
  | version
deriving DecidableEq

/-- What the arguments of a command have set so far. -/
structure Arguments where
  file : Option (List Char) := none
  settings : List (Setting × List Char) := []

namespace Arguments

/-- The value of an option. -/
def get? (a : Arguments) (setting : Setting) : Option (List Char) := a.settings.lookup setting

/-- Sets an option, which may happen only once. -/
def set (a : Arguments) (setting : Setting) (value : List Char) : Except Stop Arguments :=
  if (a.get? setting).isSome || value.isEmpty && !setting.mayBeEmpty then .error .misuse
  else .ok { a with settings := (setting, value) :: a.settings }

/-- Sets the file, which may happen only once and only for a command that has one. -/
def setFile (command : CommandName) (a : Arguments) (value : List Char) : Except Stop Arguments :=
  if command.hasFile && a.file.isNone && !value.isEmpty then .ok { a with file := some value }
  else .error .misuse

end Arguments

/-- The effect of an option without a value. -/
def Flag.raise : Flag → Except Stop Unit
  | .verbose => .ok ()
  | .version => .error .version
  | .help => .error .help

/-- An argument by its form. -/
inductive Form where
  /-- The argument `--`. -/
  | divider
  /-- A long option, with the text after `=`. -/
  | long (name : List Char) (value : Option (List Char))
  /-- Short options and an attached value. -/
  | short (text : List Char)
  /-- Anything else. -/
  | word (text : List Char)
deriving DecidableEq

/-- The form of an argument. -/
def Form.of : List Char → Form
  | ['-', '-'] => .divider
  | '-' :: '-' :: text =>
    match Text.splitFirst '=' text with
    | some (name, value) => .long name (some value)
    | none => .long text none
  | '-' :: c :: text => .short (c :: text)
  | text => .word text

/-- Reads short options; the last may be one that still lacks its value. -/
def readShort (settings : List Setting) (a : Arguments) :
    List Char → Except Stop (Arguments × Option Setting)
  | [] => .ok (a, none)
  | c :: rest =>
    match Flag.all.find? (·.short = c) with
    | some flag => do
      flag.raise
      readShort settings a rest
    | none =>
      match settings.find? (·.short? = some c), rest with
      | none, _ => .error .misuse
      | some setting, [] => .ok (a, some setting)
      | some setting, '=' :: value => return (← a.set setting value, none)
      | some setting, value => return (← a.set setting value, none)

/-- Reads a long option, which may still lack its value. -/
def readLong (settings : List Setting) (a : Arguments) (name : List Char) (value : Option (List Char)) :
    Except Stop (Arguments × Option Setting) :=
  match Flag.all.find? (·.long = name), value with
  | some flag, none => do
    flag.raise
    return (a, none)
  | some _, some _ => .error .misuse
  | none, _ =>
    match settings.find? (·.long = name), value with
    | none, _ => .error .misuse
    | some setting, none => .ok (a, some setting)
    | some setting, some value => return (← a.set setting value, none)

/-- Reads the arguments of a command, given the option that still lacks its value. -/
def readArguments (command : CommandName) (a : Arguments) :
    Option Setting → List (List Char) → Except Stop Arguments
  | none, [] => .ok a
  | some _, [] => .error .misuse
  | some setting, argument :: rest => do
    match Form.of argument with
    | .word value => readArguments command (← a.set setting value) none rest
    | _ => .error .misuse
  | none, argument :: rest => do
    match Form.of argument with
    | .divider => rest.foldlM (Arguments.setFile command) a
    | .word value => readArguments command (← a.setFile command value) none rest
    | .short text =>
      let (a, pending) ← readShort command.settings a text
      readArguments command a pending rest
    | .long name value =>
      let (a, pending) ← readLong command.settings a name value
      readArguments command a pending rest

/-- A command with all that it needs. -/
inductive Command where
  | parse (file : String) (library : Option String)
  | check (file : String) (library : Option String)
  | sample (output : String) (compilerVersion : Option String)
  | inspect (artifact : String)
deriving DecidableEq

/-- The file that the sample is written to if none is named. -/
def sampleFile : List Char := "test.acl".toList

/-- The command that arguments make up, unless its file is missing. -/
def Arguments.command? (a : Arguments) : CommandName → Option Command
  | .parse => a.file.map fun file =>
    .parse (String.ofList file) ((a.get? .library).map String.ofList)
  | .check => a.file.map fun file =>
    .check (String.ofList file) ((a.get? .library).map String.ofList)
  | .sample =>
    some (.sample (String.ofList ((a.get? .output).getD sampleFile))
      ((a.get? .compilerVersion).map String.ofList))
  | .inspect => a.file.map fun file => .inspect (String.ofList file)

/-- What a command line asks for. -/
inductive Request where
  | run (command : Command)
  /-- The version of the program, or of one of its commands. -/
  | version (command : Option CommandName)
  | help
  | misuse
deriving DecidableEq

/-- The request that an early end of the reading stands for. -/
def Stop.request (command : Option CommandName) : Stop → Request
  | .misuse => .misuse
  | .help => .help
  | .version => .version command

/-- The request of a command with its arguments. -/
def Request.ofCommand (command : CommandName) (arguments : List (List Char)) : Request :=
  match readArguments command {} none arguments with
  | .error stop => stop.request command
  | .ok a =>
    match a.command? command with
    | some command => .run command
    | none => .misuse

/-- The request for help about commands. -/
def Request.ofTopics (topics : List (List Char)) : Request :=
  match topics with
  | [] => .help
  | [topic] =>
    if (CommandName.ofWord? topic).isSome || topic = Flag.help.long then .help else .misuse
  | _ => .misuse

/-- The request of a command line. -/
def Request.ofArguments : List (List Char) → Request
  | [] => .misuse
  | argument :: rest =>
    let onward (read : Except Stop (Arguments × Option Setting)) : Request :=
      match read with
      | .error stop => stop.request none
      | .ok _ => ofArguments rest
    match Form.of argument with
    | .divider => .misuse
    | .long name value => onward (readLong [] {} name value)
    | .short text => onward (readShort [] {} text)
    | .word text =>
      match CommandName.ofWord? text with
      | some command => .ofCommand command rest
      | none => if text = Flag.help.long then .ofTopics rest else .misuse

end TextAdventure.CommandLine
