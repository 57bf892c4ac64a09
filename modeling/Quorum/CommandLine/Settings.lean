import Quorum.Config.Node

/-!
# Settings of the command line

What the options of the two commands set, and how the text of an option is read. An option that is
not given leaves its default in force.
-/

namespace Quorum

/-- How the report of a simulation is written. -/
inductive ReportFormat where
  | table
  | json
  deriving DecidableEq, Repr, Inhabited

/-- Everything that options can set. -/
structure Settings where
  heartbeatIntervalMs : Nat := 2000
  heartbeatTimeoutMs : Nat := 10000
  electionMinMs : Nat := 10000
  electionMaxMs : Nat := 20000
  timer : TimerConfig := {}
  /-- How many nodes a simulation has. -/
  nodes : Nat := 3
  /-- How long a simulation lasts. -/
  durationSecs : Nat := 30
  /-- When a simulation isolates its leader, if ever. -/
  isolateAfterSecs : Option Nat := none
  format : ReportFormat := .table
  deriving DecidableEq, Repr, Inhabited

/-- Give a node the timings that were set. -/
def Settings.apply (settings : Settings) (config : NodeConfig) : NodeConfig :=
  { config with
    heartbeatIntervalMs := settings.heartbeatIntervalMs
    heartbeatTimeoutMs := settings.heartbeatTimeoutMs
    electionMinMs := settings.electionMinMs
    electionMaxMs := settings.electionMaxMs
    timer := settings.timer }

/-- The options. Every one of them takes a value. -/
inductive Flag where
  | heartbeatInterval
  | heartbeatTimeout
  | electionMin
  | electionMax
  | tick
  | nearBuckets
  | farBuckets
  | nodes
  | duration
  | isolateAfter
  | output
  deriving DecidableEq, Repr, Inhabited

namespace Flag

/-- The long name of an option, without its dashes. -/
def name : Flag → String
  | heartbeatInterval => "heartbeat-interval-ms"
  | heartbeatTimeout => "heartbeat-timeout-ms"
  | electionMin => "election-timeout-min-ms"
  | electionMax => "election-timeout-max-ms"
  | tick => "tick-ms"
  | nearBuckets => "near-buckets"
  | farBuckets => "far-buckets"
  | nodes => "nodes"
  | duration => "duration-secs"
  | isolateAfter => "isolate-leader-after-secs"
  | output => "output"

/-- The one-letter name of an option, if it has one. -/
def letter? : Flag → Option Char
  | output => some 'o'
  | _ => none

/-- The options on timings, which all commands have. -/
def timings : List Flag :=
  [heartbeatInterval, heartbeatTimeout, electionMin, electionMax, tick, nearBuckets, farBuckets]

/-- The options that only a simulation has. -/
def simulation : List Flag := [nodes, duration, isolateAfter, output]

end Flag

/-- A text of digits, at least one, as a number. -/
def digitsValue? (digits : List Char) : Option Nat :=
  if digits.isEmpty || !digits.all Char.isDigit then none
  else some (digits.foldl (fun value digit => 10 * value + (digit.toNat - '0'.toNat)) 0)

/-- A word in decimal digits, possibly behind a plus sign. -/
def wordValue? (text : String) : Option Nat := do
  let digits := match text.toList with
    | '+' :: rest => rest
    | all => all
  let value ← digitsValue? digits
  if value < Word.limit then some value else none

/-- The most nodes a simulation can have. -/
def mostNodes : Nat := 1000

/-- Read the value of an option into the settings; `none` if it is not a value of that option. -/
def Settings.read? (settings : Settings) (flag : Flag) (text : String) : Option Settings :=
  match flag with
  | .heartbeatInterval => do
      return { settings with heartbeatIntervalMs := ← wordValue? text }
  | .heartbeatTimeout => do
      return { settings with heartbeatTimeoutMs := ← wordValue? text }
  | .electionMin => do return { settings with electionMinMs := ← wordValue? text }
  | .electionMax => do return { settings with electionMaxMs := ← wordValue? text }
  | .tick => do return { settings with timer.tickMs := ← wordValue? text }
  | .nearBuckets => do return { settings with timer.nearBuckets := ← wordValue? text }
  | .farBuckets => do return { settings with timer.farBuckets := ← wordValue? text }
  | .nodes => do
      let nodes ← wordValue? text
      if 1 ≤ nodes ∧ nodes ≤ mostNodes then some { settings with nodes } else none
  | .duration => do return { settings with durationSecs := ← wordValue? text }
  | .isolateAfter => do return { settings with isolateAfterSecs := some (← wordValue? text) }
  | .output =>
      if text = "table" then some { settings with format := .table }
      else if text = "json" then some { settings with format := .json }
      else none

end Quorum
