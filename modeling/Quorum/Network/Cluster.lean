import Quorum.Network.Hub
import Quorum.Node.Shard
import Quorum.Timing.Passage

/-!
# Nodes on one network

A cluster runs nodes on a hub. Each node is a station: its shard, the mailbox it reads and the queue
its connections are handed off to. One station at a time handles one thing; what it then asks of the
transport is carried out before the next station has its turn.

`Cluster.relay` gives the stations turns until none of them has anything left to do, and
`Cluster.passUntil` lets time pass for all of them together. A station whose shard has ended stops
reading its mailbox and its queue. It stays in the table with its last status until it is stopped.
-/

namespace Quorum

/-- A node on the network. -/
structure Station where
  shard : Shard
  mailbox : MailboxId
  queue : QueueId

/-- A network and the nodes that run on it. -/
structure Cluster where
  hub : Hub := {}
  stations : Table NodeId Station := ∅
  clockMs : Nat := 0

namespace Cluster

/-- Carry out what the shard of a station asked, and file the station. If its shard has ended,
nobody reads its mailbox and its queue any more. -/
def conclude (cluster : Cluster) (id : NodeId) (station : Station) : Cluster :=
  let shard := station.shard
  let served := shard.asked.foldl (fun hub wish => hub.carryOut id wish.2) cluster.hub
  let hub :=
    if shard.isRunning then served
    else (served.closeMailbox station.mailbox).closeQueue station.queue
  { cluster with
    hub
    stations := cluster.stations.insert id { station with shard := shard.passedOn } }

/-- Let a station do one thing. What was handed off to it until now, it takes afterwards. -/
def turn (cluster : Cluster) (id : NodeId) (station : Station) (handler : Act Core Unit) :
    Cluster :=
  let (accepted, hub) := cluster.hub.takeHandedOff station.queue
  { cluster with hub }.conclude id { station with shard := station.shard.turn handler accepted }

/-- End the shard of a station, if it still runs. -/
def finish (cluster : Cluster) (id : NodeId) (station : Station) (result : Except Error Unit) :
    Cluster :=
  if station.shard.isRunning then
    cluster.conclude id { station with shard := station.shard.finish result }
  else
    cluster

/-- Handle the oldest fired timer of a station that still counts, if there is one. -/
def handleFired (cluster : Cluster) (id : NodeId) (station : Station) : Cluster :=
  match station.shard.receive with
  | (some event, shard) => cluster.turn id { station with shard } (Core.onTimer event)
  | (none, shard) => cluster.conclude id { station with shard }

/-- Handle the oldest event in the mailbox of a station. If no event is there and none can come, the
shard of the station ends. -/
def handleEvent (cluster : Cluster) (id : NodeId) (station : Station) : Cluster :=
  match cluster.hub.takeEvent station.mailbox with
  | (some event, hub) => { cluster with hub }.turn id station (Core.onNetwork event)
  | (none, _) =>
    if cluster.hub.isAddressed station.mailbox then cluster
    else cluster.finish id station (.error (.channelClosed "network events"))

/-- Give a station one turn. Its timers come first, and it ends with them. -/
def serve (cluster : Cluster) (id : NodeId) : Cluster :=
  match cluster.stations.get? id with
  | none => cluster
  | some station =>
    if station.shard.hasFired then cluster.handleFired id station
    else if station.shard.isStranded then
      cluster.finish id station (.error .schedulerStopped)
    else if station.shard.isRunning then cluster.handleEvent id station
    else cluster

/-- Whether a station has something to do. -/
def isBusy (cluster : Cluster) (station : Station) : Bool :=
  station.shard.isRunning &&
    (station.shard.hasFired || station.shard.isStranded ||
      !(cluster.hub.eventsIn station.mailbox).isEmpty ||
      !cluster.hub.isAddressed station.mailbox)

/-- Give every station one turn. -/
def serveAll (cluster : Cluster) : Cluster := cluster.stations.keys.foldl serve cluster

/-- Serve all stations, at most `rounds` times, until none has anything left to do. -/
def relayRounds : Nat → Cluster → Cluster
  | 0, cluster => cluster
  | rounds + 1, cluster =>
      if cluster.stations.values.any cluster.isBusy then relayRounds rounds cluster.serveAll
      else cluster

/-- Serve the stations until none has anything left to do. One event leads to a few others at most,
which is far below the bound. -/
def relay (cluster : Cluster) : Cluster := relayRounds 1000000 cluster

/-- Start a node. It is known to the network even if the start is refused. A node of the same id
that still runs is stopped as soon as the new one has been made, and before the new one does
anything. -/
def start (cluster : Cluster) (config : NodeConfig) (draws : Nat → Nat) :
    Except Fault (Except Error Unit × Cluster) := do
  let (mailbox, hub) := cluster.hub.register config.id
  let (queue, hub) ← hub.openQueue config.handoffCapacity
  let wired := { cluster with hub := hub.attach config.id queue }
  let made : Except Failure Shard := do
    config.validate
    Shard.create config cluster.clockMs draws
  match made with
  | .error (.fault cause) => throw cause
  | .error (.error cause) =>
    let hub := (wired.hub.closeMailbox mailbox).closeQueue queue
    return (.error cause, { wired with hub }.relay)
  | .ok shard =>
    let cleared := match wired.stations.get? config.id with
      | some old => wired.finish config.id old (.ok ())
      | none => wired
    let begun := cleared.conclude config.id { shard := shard.begin [], mailbox, queue }
    return (.ok (), begun.relay)

/-- Stop a node, and tell how it ended. It stays known to the network. -/
def stop (cluster : Cluster) (id : NodeId) : Option (Except Error Unit) × Cluster :=
  match cluster.stations.get? id with
  | none => (none, cluster)
  | some station =>
    let ended := cluster.finish id station (.ok ())
    let result := (ended.stations.get? id).bind fun after => after.shard.phase.result?
    (result, { ended with stations := ended.stations.erase id }.relay)

/-- The poll interval of every node elapses. -/
def poll (cluster : Cluster) : Cluster :=
  let polled := cluster.stations.entries.foldl
    (fun cluster entry => cluster.turn entry.1 entry.2 (pure ())) cluster
  polled.relay

/-- Change the network from outside, and let the nodes react. -/
def modifyHub (cluster : Cluster) (change : Hub → Hub) : Cluster :=
  { cluster with hub := change cluster.hub }.relay

/-- The next instant at which the timers of a node have to be settled. -/
def wakeMs (cluster : Cluster) : Option Nat :=
  (cluster.stations.values.filterMap fun station => station.shard.wakeMs).min?

/-- Move the clock, settle the timers of all nodes, and handle everything that is due. -/
def visit (clockMs : Nat) (cluster : Cluster) : Cluster :=
  let moved := cluster.stations.entries.foldl
    (fun cluster entry =>
      cluster.conclude entry.1 { entry.2 with shard := entry.2.shard.moveTo clockMs })
    { cluster with clockMs }
  moved.relay

/-- Let time pass. -/
def passUntil (cluster : Cluster) (targetMs : Nat) : Cluster :=
  match passTime (fun held => .ok held.wakeMs) (fun clockMs held => .ok (visit clockMs held))
      targetMs cluster.clockMs cluster with
  | .ok passed => passed
  | .error _ => cluster

end Cluster

end Quorum
