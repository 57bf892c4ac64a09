import Quorum.Config.Timer

/-!
# Node configuration

What one member of the cluster is told before it starts: its own id, the other members, and its
timings. `NodeConfig.validate` looks at the parts in a fixed order and reports the first problem.
-/

namespace Quorum

/-- The name of a cluster member. -/
abbrev NodeId := String

/-- Another member of the cluster, and where it listens. -/
structure Peer where
  id : NodeId
  hostname : String
  port : Nat
  deriving DecidableEq, Repr, Inhabited

namespace Peer

def address (peer : Peer) : String := s!"{peer.hostname}:{peer.port}"

/-- Of two members the one with the larger id dials the other, and keeps redialling it. -/
def isDialledBy (peer : Peer) (localId : NodeId) : Bool := decide (peer.id < localId)

end Peer

/-- The settings of one node. Times are in milliseconds. -/
structure NodeConfig where
  id : NodeId := "1"
  hostname : String := "127.0.0.1"
  port : Nat := 9090
  peers : List Peer := []
  heartbeatIntervalMs : Nat := 2000
  heartbeatTimeoutMs : Nat := 10000
  electionMinMs : Nat := 10000
  electionMaxMs : Nat := 20000
  timer : TimerConfig := {}
  /-- How long the loop waits at most before it looks at the hand-off queue again. -/
  pollMs : Nat := 500
  /-- How many accepted connections can wait for the loop. -/
  handoffCapacity : Nat := 64
  deriving DecidableEq, Repr, Inhabited

namespace NodeConfig

/-- The number of voting members, this node included. -/
def membershipSize (config : NodeConfig) : Nat := config.peers.length + 1

/-- The peers this node connects to; the others connect to it. -/
def dialTargets (config : NodeConfig) : List Peer :=
  config.peers.filter fun peer => peer.isDialledBy config.id

/-- The poll interval in force: never zero. -/
def pollIntervalMs (config : NodeConfig) : Nat := max config.pollMs 1

/-- The first peer that is the node itself or was listed before. -/
def peerProblem (localId : NodeId) : List NodeId → List Peer → Option ConfigProblem
  | _, [] => none
  | seen, peer :: rest =>
      if peer.id = localId then some (.listsItself peer.id)
      else if peer.id ∈ seen then some (.duplicatePeer peer.id)
      else peerProblem localId (peer.id :: seen) rest

/-- The first problem among ids and timings, leaving aside what the timers can hold. -/
def problem (config : NodeConfig) : Option ConfigProblem :=
  if config.id.isEmpty then some .emptyId
  else match peerProblem config.id [] config.peers with
    | some found => some found
    | none =>
      if config.electionMinMs > config.electionMaxMs then
        some (.invertedElectionWindow config.electionMinMs config.electionMaxMs)
      else if config.heartbeatIntervalMs = 0 then
        some .zeroHeartbeatInterval
      else if config.heartbeatTimeoutMs ≤ config.heartbeatIntervalMs then
        some (.shortHeartbeatTimeout config.heartbeatTimeoutMs config.heartbeatIntervalMs)
      else if config.electionMinMs ≤ config.heartbeatIntervalMs then
        some (.shortElectionTimeout config.electionMinMs config.heartbeatIntervalMs)
      else if config.handoffCapacity = 0 then
        some .zeroHandoffCapacity
      else
        none

/-- Check the settings before anything is started. A timeout that the timers cannot hold is
reported here, because starting anyway would lose elections or heartbeats. -/
def validate (config : NodeConfig) : Except Failure Unit := do
  match config.problem with
  | some found => throw (.error (.invalidConfig found))
  | none => pure ()
  config.timer.validate
  config.timer.checkDelay config.heartbeatIntervalMs
  config.timer.checkDelay config.heartbeatTimeoutMs
  config.timer.checkDelay config.electionMaxMs

end NodeConfig

end Quorum
