import Quorum.CommandLine.Invocation
import Quorum.CommandLine.Simulation

/-!
# The program

`Outcome.ofArgs` is the whole program as a function of its arguments: what it prints, and the code
with which it ends. The source of drawn numbers is an argument as well.
-/

namespace Quorum

/-- What a run of the program leaves behind. -/
structure Outcome where
  exitCode : Nat
  output : String := ""
  errors : String := ""
  deriving DecidableEq, Repr, Inhabited

/-- The name and the version of the program. -/
def programName : String := "fufile-coord"

def programVersion : String := "0.1.0"

/-- A text in quotes, as errors are shown. -/
def quoted (text : String) : String := "\"" ++ text ++ "\""

/-- An error by its name and parts, as the program ends with it. -/
def Error.display : Error → String
  | capacityExceeded delayMs capacityMs =>
      "TimerCapacityExceeded \x7b delay_ms: " ++ toString delayMs ++ ", capacity_ms: " ++
        toString capacityMs ++ " \x7d"
  | invalidConfig problem => "InvalidConfig(" ++ quoted problem.message ++ ")"
  | schedulerStopped => "SchedulerStopped"
  | channelClosed channel => "ChannelClosed(" ++ quoted channel ++ ")"
  | internal what => "Internal(" ++ quoted what ++ ")"

namespace Outcome

/-- The program has printed these lines. -/
def printed (lines : List String) : Outcome where
  exitCode := 0
  output := String.join (lines.map fun line => line ++ "\n")

/-- The program ended early. -/
def ofFailure : Failure → Outcome
  | .error cause => { exitCode := 1, errors := "Error: " ++ cause.display ++ "\n" }
  | .fault _ => { exitCode := 101, errors := "The computation left its bounds.\n" }

def ofExcept : Except Failure (List String) → Outcome
  | .ok lines => printed lines
  | .error failure => ofFailure failure

/-- How the program is used. -/
def usage : List String :=
  let options (flags : List Flag) : List String :=
    flags.map fun flag => "      --" ++ flag.name ++ " VALUE"
  ["Usage: " ++ programName ++ " COMMAND [OPTIONS]", "",
    "  check-config  Validate timer and timeout settings"] ++ options Command.checkConfig.flags ++
    ["  simulate      Run a cluster inside one process"] ++ options Command.simulate.flags

end Outcome

/-- Check the settings, and describe the timers they lead to. -/
def checkConfig (settings : Settings) : Except Failure (List String) := do
  let config := settings.apply {}
  config.validate
  let spanMs ← config.timer.nearSpanMs
  let capacityMs ← config.timer.capacityMs
  let longestMs ← config.timer.maxDelayMs
  return [
    "Configuration OK",
    s!"Tick:            {config.timer.tickMs}ms",
    s!"Near wheel span: {spanMs}ms",
    s!"Wheel capacity:  {capacityMs}ms",
    s!"Longest delay:   {longestMs}ms"]

/-- Write a report in the format that was set. -/
def Report.lines (report : Report) (format : ReportFormat) : List String :=
  match format with
  | .table => report.tableLines
  | .json => [report.toJson.renderIndented]

namespace Outcome

/-- Do what was asked for. -/
def ofInvocation (invocation : Invocation) (draws : NodeId → Nat → Nat) : Outcome :=
  match invocation with
  | .run .checkConfig settings => ofExcept (checkConfig settings)
  | .run .simulate settings =>
      ofExcept ((simulate settings draws).map fun report => report.lines settings.format)
  | .version none => printed [programName ++ " " ++ programVersion]
  | .version (some command) =>
      printed [programName ++ "-" ++ command.name ++ " " ++ programVersion]
  | .help => printed usage
  | .refused => {
      exitCode := 2
      errors := "The arguments do not fit. Try " ++ programName ++ " --help.\n" }

/-- Run the program on its arguments. -/
def ofArgs (args : List String) (draws : NodeId → Nat → Nat) : Outcome :=
  ofInvocation (Invocation.ofArgs args) draws

end Outcome

end Quorum
