import Quorum.CommandLine.Settings

/-!
# Reading a command line

`Invocation.ofArgs` reads the arguments from left to right, and the first one that settles the
matter does so: an argument that has no place here, or a question for help or for the version.

A value stands behind its option, as the next argument or after an equals sign; behind a one-letter
option it can also follow directly. An argument that begins with a dash and is longer than the dash
is never the value of the option before it. No option can be given twice.
-/

namespace Quorum

/-- What the program can be asked to do. -/
inductive Command where
  | checkConfig
  | simulate
  deriving DecidableEq, Repr, Inhabited

namespace Command

def name : Command → String
  | checkConfig => "check-config"
  | simulate => "simulate"

def all : List Command := [checkConfig, simulate]

def flags : Command → List Flag
  | checkConfig => Flag.timings
  | simulate => Flag.simulation ++ Flag.timings

end Command

/-- The outcome of reading a command line. -/
inductive Invocation where
  | run (command : Command) (settings : Settings)
  /-- The version is asked for, of the program or of one of its commands. -/
  | version (command : Option Command)
  | help
  /-- The arguments do not fit. -/
  | refused
  deriving DecidableEq, Repr, Inhabited

/-- An argument by its dashes. -/
inductive Argument where
  /-- Two dashes alone: no options follow. -/
  | dashes
  | long (name : String) (value : Option String)
  | short (letters : List Char)
  | plain (text : String)
  deriving DecidableEq, Repr

/-- Split a text at its first equals sign. -/
def splitAtEquals (text : List Char) : List Char × Option (List Char) :=
  match text.span fun c => c ≠ '=' with
  | (before, _ :: after) => (before, some after)
  | (before, []) => (before, none)

def Argument.ofString (text : String) : Argument :=
  match text.toList with
  | ['-', '-'] => .dashes
  | '-' :: '-' :: rest =>
      let (name, value) := splitAtEquals rest
      .long (String.ofList name) (value.map String.ofList)
  | '-' :: letter :: rest => .short (letter :: rest)
  | _ => .plain text

/-- Where the reader of a command stands. -/
structure FlagReader where
  command : Command
  settings : Settings := {}
  /-- The options that have got a value. -/
  given : List Flag := []
  /-- The option whose value comes next. -/
  awaiting : Option Flag := none

namespace FlagReader

/-- Give an option its value. -/
def assign (reader : FlagReader) (flag : Flag) (text : String) : Except Invocation FlagReader :=
  if flag ∈ reader.given then .error .refused
  else match reader.settings.read? flag text with
    | some settings =>
        .ok { reader with settings, given := flag :: reader.given, awaiting := none }
    | none => .error .refused

/-- Meet an option, with its value or before it. -/
def meet (reader : FlagReader) (flag : Option Flag) (value : Option String) :
    Except Invocation FlagReader :=
  match flag, value with
  | some flag, some text => reader.assign flag text
  | some flag, none => .ok { reader with awaiting := some flag }
  | none, _ => .error .refused

/-- Meet a long name. -/
def meetLong (reader : FlagReader) (name : String) (value : Option String) :
    Except Invocation FlagReader :=
  if name = "version" && value.isNone then .error (.version reader.command)
  else if name = "help" && value.isNone then .error .help
  else reader.meet (reader.command.flags.find? fun flag => flag.name = name) value

/-- Meet one-letter names. What stands behind the name of an option is its value. -/
def meetShort (reader : FlagReader) (letters : List Char) : Except Invocation FlagReader :=
  match letters with
  | [] => .error .refused
  | 'V' :: _ => .error (.version reader.command)
  | 'h' :: _ => .error .help
  | letter :: rest =>
    let value := match rest with
      | [] => none
      | '=' :: text => some (String.ofList text)
      | text => some (String.ofList text)
    reader.meet (reader.command.flags.find? fun flag => flag.letter? = some letter) value

/-- Read the arguments of a command. -/
def readAll (reader : FlagReader) : List String → Except Invocation FlagReader
  | [] => if reader.awaiting.isSome then .error .refused else .ok reader
  | text :: rest => do
    match reader.awaiting, Argument.ofString text with
    | some flag, .plain value => (← reader.assign flag value).readAll rest
    | some _, _ => .error .refused
    | none, .plain _ => .error .refused
    | none, .dashes => if rest.isEmpty then .ok reader else .error .refused
    | none, .long name value => (← reader.meetLong name value).readAll rest
    | none, .short letters => (← reader.meetShort letters).readAll rest

end FlagReader

namespace Invocation

/-- Read the arguments of a command. -/
def ofCommand (command : Command) (args : List String) : Invocation :=
  match FlagReader.readAll { command } args with
  | .ok reader => .run command reader.settings
  | .error found => found

/-- Whether help can be asked for on the given words. -/
def isTopic : List String → Bool
  | [] => true
  | [word] => word = "help" || Command.all.any fun command => command.name = word
  | _ => false

/-- Read a command line. -/
def ofArgs : List String → Invocation
  | [] => .refused
  | text :: rest =>
    match Argument.ofString text with
    | .long "version" none => .version none
    | .long "help" none => .help
    | .short ('V' :: _) => .version none
    | .short ('h' :: _) => .help
    | .plain "help" => if isTopic rest then .help else .refused
    | .plain word =>
      match Command.all.find? fun command => command.name = word with
      | some command => ofCommand command rest
      | none => .refused
    | _ => .refused

end Invocation

end Quorum
