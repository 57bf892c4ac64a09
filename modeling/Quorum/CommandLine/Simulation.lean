import Quorum.Calendar
import Quorum.CommandLine.Settings
import Quorum.Json.Indented
import Quorum.Network.Cluster
import Quorum.Node.Published

/-!
# Simulating a cluster

A simulation runs nodes on one network, on a clock of its own that begins at zero. The nodes are
named by the numbers from one on, and each of them knows all others. Some time before the end the
leader of that moment can be isolated. What is reported is the status of every node at the end.
-/

namespace Quorum

/-- The ports of the nodes lie above this one. -/
def basePort : Nat := 9090

/-- One node of a cluster of `count` nodes. -/
def simulatedPeer (number : Nat) : Peer where
  id := toString number
  hostname := "memory"
  port := basePort + number

/-- The settings of the node with the given number. -/
def simulatedConfig (settings : Settings) (number : Nat) : NodeConfig :=
  let self := simulatedPeer number
  let others := (List.range' 1 settings.nodes).filter fun other => other ≠ number
  settings.apply
    { id := self.id, hostname := self.hostname, port := self.port
      peers := others.map simulatedPeer }

/-- What a simulation reports. -/
structure Report where
  isolated : Option NodeId
  nodes : List Status

namespace Report

def toJson (report : Report) : Json :=
  let node (status : Status) : Json :=
    .object (status.toFields ++ [("since", .string (instantText status.sinceMs))])
  .object [
    ("isolated", .ofOption .string report.isolated),
    ("nodes", .array (report.nodes.map node))]

/-- A text filled up with blanks to a width. -/
def column (width : Nat) (text : String) : String :=
  text ++ String.ofList (List.replicate (width - text.length) ' ')

def rule (mark : Char) : String := String.ofList (List.replicate 72 mark)

/-- One row of the table. -/
def row (id role term leader vote peers : String) : String :=
  " ".intercalate
    [column 8 id, column 10 role, column 6 term, column 8 leader, column 10 vote, peers]

def statusRow (status : Status) : String :=
  row status.id status.role.name (toString status.term) (status.leaderId.getD "-")
    (status.votedFor.getD "-") (",".intercalate status.connectedPeers)

/-- The lines of the table. -/
def tableLines (report : Report) : List String :=
  let isolation := match report.isolated with
    | some id => ["Isolated: Node " ++ id, ""]
    | none => []
  ["Cluster Status", rule '='] ++ isolation ++
    [row "ID" "ROLE" "TERM" "LEADER" "VOTED" "PEERS", rule '-'] ++ report.nodes.map statusRow

end Report

namespace Cluster

/-- Start nodes one after the other; the first refusal ends it. Each node draws from a source of its
own. -/
def startAll (draws : NodeId → Nat → Nat) : Cluster → List NodeConfig → Except Failure Cluster
  | cluster, [] => .ok cluster
  | cluster, config :: rest =>
    match cluster.start config (draws config.id) with
    | .ok (.ok (), started) => startAll draws started rest
    | .ok (.error cause, _) => .error (.error cause)
    | .error cause => .error (.fault cause)

/-- The first node that leads. -/
def leader? (cluster : Cluster) : Option NodeId :=
  (cluster.stations.entries.find? fun entry => entry.2.shard.published.isLeader).map Prod.fst

end Cluster

/-- Run a simulation. -/
def simulate (settings : Settings) (draws : NodeId → Nat → Nat) : Except Failure Report := do
  let configs := (List.range' 1 settings.nodes).map (simulatedConfig settings)
  let started ← Cluster.startAll draws {} configs
  let endMs := 1000 * settings.durationSecs
  let (isolated, cluster) :=
    match settings.isolateAfterSecs with
    | none => (none, started)
    | some secs =>
      if secs < settings.durationSecs then
        let passed := started.passUntil (1000 * secs)
        match passed.leader? with
        | some id => (some id, passed.modifyHub fun hub => hub.isolate id)
        | none => (none, passed)
      else
        (none, started)
  let ended := cluster.passUntil endMs
  return {
    isolated
    nodes := ended.stations.values.map fun station => station.shard.published }

end Quorum
