import Quorum.Network.Handoff
import Quorum.Node.Shard
import Quorum.Timing.Passage

/-!
# A node and its handle

A host runs one shard on a transport that only takes note of what it is asked for. It holds the
queue of handed-off connections, feeds events in, lets time pass, and answers what the handle of a
running node answers: the status, whether it runs, and its result.
-/

namespace Quorum

/-- One node with its handle. -/
structure Host where
  shard : Shard
  handoff : HandoffQueue
  /-- Cleared when no more network events can come. -/
  eventsOpen : Bool := true
  /-- Set when the result has been taken. -/
  joined : Bool := false
  /-- Whether the configuration was checked at the start, as it is for a node with a handle. -/
  checked : Bool

namespace Host

/-- Take what was handed off along while the shard does something. -/
def step (host : Host) (move : List ConnId → Shard) : Host :=
  { host with shard := move host.handoff.waiting, handoff := host.handoff.drained }

/-- Start a node. Without a check of the configuration only the timers can refuse it. -/
def start (config : NodeConfig) (checked : Bool) (draws : Nat → Nat) : Except Failure Host := do
  let handoff ← HandoffQueue.ofCapacity (max config.handoffCapacity 1)
  if checked then
    config.validate
  let shard ← Shard.create config 0 draws
  let host : Host := { shard, handoff, checked }
  return host.step shard.begin

def isRunning (host : Host) : Bool := host.shard.isRunning

/-- Whether a network event can be put into the queue. -/
def takesEvents (host : Host) : Bool := host.isRunning && host.eventsOpen

/-- Let the shard handle a network event. -/
def deliver (host : Host) (event : NetworkEvent) : Host :=
  if host.takesEvents then host.step (host.shard.turn (Core.onNetwork event)) else host

/-- Whether a connection can be handed off. -/
def takesHandoff (host : Host) : Bool := host.isRunning && host.handoff.accepts

/-- Hand a connection off. It waits until the shard has handled something. -/
def handOff (host : Host) (conn : ConnId) : Host :=
  if host.takesHandoff then { host with handoff := host.handoff.offer conn } else host

/-- The poll interval elapses. -/
def poll (host : Host) : Host := host.step (host.shard.turn (pure ()))

/-- Handle what has fired, at most `count` timers. What was handed off is taken after a timer that
counts, and not after one that was cancelled. -/
def handleFired : Nat → Host → Host
  | 0, host => host
  | count + 1, host =>
      if host.isRunning then
        match host.shard.receive with
        | (none, shard) => { host with shard }
        | (some event, shard) =>
          handleFired count ({ host with shard }.step (shard.turn (Core.onTimer event)))
      else
        host

/-- Move the clock and handle everything that is due. A node whose timers have come to an end ends
after the last one of them. -/
def visit (clockMs : Nat) (host : Host) : Host :=
  let moved := { host with shard := host.shard.moveTo clockMs }
  let handled := handleFired moved.shard.stage.outside.timers.fired.length moved
  { handled with shard := handled.shard.endIfStranded }

/-- Let time pass. -/
def passUntil (host : Host) (targetMs : Nat) : Host :=
  match passTime (fun held => .ok held.shard.wakeMs)
      (fun clockMs held => .ok (visit clockMs held)) targetMs host.shard.clockMs host with
  | .ok passed => passed
  | .error _ => host

/-- No more network events can come, which ends a running shard. -/
def closeEvents (host : Host) : Host :=
  let closed := { host with eventsOpen := false }
  if host.isRunning then
    { closed with shard := host.shard.finish (.error (.channelClosed "network events")) }
  else
    closed

/-- Stop the node if it runs, and take its result. There is none to take twice. -/
def stop (host : Host) : Option (Except Error Unit) × Host :=
  if host.joined then (none, host)
  else
    let shard := if host.isRunning then host.shard.finish (.ok ()) else host.shard
    (shard.phase.result?, { host with shard, joined := true })

/-- The result of a node that ended by itself; `none` while it runs, and once it was taken. -/
def join (host : Host) : Option (Except Error Unit) × Host :=
  if host.joined then (none, host)
  else
    match host.shard.phase.result? with
    | none => (none, host)
    | some result => (some result, { host with joined := true })

/-- The status, provided that the node can be asked and has the given role now. -/
def statusInRole (host : Host) (role : Role) : Option Status :=
  if host.checked && !host.joined && decide (host.shard.published.role = role) then
    some host.shard.published
  else
    none

end Host

end Quorum
