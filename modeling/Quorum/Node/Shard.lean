import Quorum.Node.Core

/-!
# The loop of a node

A shard is the one loop in which everything of a node happens: fired timers, network events, polls
and handed-off connections, one after the other. After its own start and after each thing it
handles, it publishes its status and takes all connections that were handed off meanwhile.

An error that is not fatal is left behind. A fatal one ends the shard in order: the core shuts down,
the timers stop, and the status is published a last time. A fault ends it without any of this.
-/

namespace Quorum

/-- Whether a shard still runs, and how it ended if not. -/
inductive Phase where
  | running
  | ended (result : Except Error Unit)
  | crashed

namespace Phase

def isRunning : Phase → Bool
  | running => true
  | _ => false

/-- What is reported about a shard that no longer runs. -/
def result? : Phase → Option (Except Error Unit)
  | running => none
  | ended result => some result
  | crashed => some (.error (.internal "the loop of the node was lost"))

end Phase

/-- The loop of one node. -/
structure Shard where
  stage : Stage Core
  published : Status
  phase : Phase

namespace Shard

/-- Start the timers and put the loop together. Nothing runs yet. -/
def create (config : NodeConfig) (clockMs : Nat) (draws : Nat → Nat) : Except Failure Shard := do
  let timers ← Scheduler.start config.timer clockMs
  let sinceMs ← datedInstant clockMs
  let core := Core.ofConfig config sinceMs
  return ⟨⟨core, { clockMs, timers, draws }⟩, core.status, .running⟩

def isRunning (shard : Shard) : Bool := shard.phase.isRunning

def clockMs (shard : Shard) : Nat := shard.stage.outside.clockMs

def publish (shard : Shard) : Shard := { shard with published := shard.stage.own.status }

/-- Change the scheduler. -/
def modifyTimers
    (shard : Shard)
    (change : Scheduler TimerEvent → Scheduler TimerEvent) : Shard :=
  { shard with stage.outside.timers := change shard.stage.outside.timers }

/-- End in order. -/
def finish (shard : Shard) (result : Except Error Unit) : Shard :=
  let (_, stage) := Core.shutdown.perform shard.stage
  let stopped := { shard with stage }.modifyTimers Scheduler.shutdown
  { stopped.publish with phase := .ended result }

/-- Run a handler, and look at how it went. -/
def attempt (shard : Shard) (handler : Act Core Unit) : Shard :=
  let (answer, stage) := handler.perform shard.stage
  let after := { shard with stage }
  match answer with
  | .ok () => after
  | .error (.error cause) => if cause.isFatal then after.finish (.error cause) else after
  | .error (.fault _) => { after with phase := .crashed }

/-- Take the handed-off connections, as long as the shard runs. -/
def accept (shard : Shard) : List ConnId → Shard
  | [] => shard
  | conn :: rest =>
      if shard.isRunning then (shard.attempt (Core.onAccepted conn)).accept rest else shard

/-- Handle one thing, publish, and take what was handed off meanwhile. -/
def turn (shard : Shard) (handler : Act Core Unit) (accepted : List ConnId) : Shard :=
  if shard.isRunning then
    let after := shard.attempt handler
    if after.isRunning then after.publish.accept accepted else after
  else
    shard

/-- The first thing a shard does. An error of any kind ends it here. -/
def begin (shard : Shard) (accepted : List ConnId) : Shard :=
  let (answer, stage) := Core.start.perform shard.stage
  let after := { shard with stage }
  match answer with
  | .ok () => after.publish.accept accepted
  | .error (.error cause) => after.finish (.error cause)
  | .error (.fault _) => { after with phase := .crashed }

/-- Move the clock and settle the timers. -/
def moveTo (shard : Shard) (clockMs : Nat) : Shard :=
  { shard with stage.outside.clockMs := clockMs }.modifyTimers fun timers =>
    timers.settle clockMs

/-- Receive the oldest fired timer that still counts; cancelled ones before it are left behind. -/
def receive (shard : Shard) : Option TimerEvent × Shard :=
  match shard.stage.outside.timers.receive shard.clockMs with
  | .ok (task, timers) => (task.map Task.payload, shard.modifyTimers fun _ => timers)
  | .error _ => (none, { shard with phase := .crashed })

/-- Whether something lies on the queue of fired timers. -/
def hasFired (shard : Shard) : Bool :=
  shard.isRunning && !shard.stage.outside.timers.fired.isEmpty

/-- Whether a running shard has handled the last timer that it will ever receive. -/
def isStranded (shard : Shard) : Bool :=
  shard.isRunning && shard.stage.outside.timers.fired.isEmpty &&
    shard.stage.outside.timers.hasEnded

/-- A shard cannot go on without timers. -/
def endIfStranded (shard : Shard) : Shard :=
  if shard.isStranded then shard.finish (.error .schedulerStopped) else shard

/-- When the timers have to be settled again. -/
def wakeMs (shard : Shard) : Option Nat :=
  if shard.isRunning then
    match shard.stage.outside.timers.wakeMs with
    | .ok wakeMs => wakeMs
    | .error _ => none
  else
    none

/-- What was asked of the transport since the last time, oldest first. -/
def asked (shard : Shard) : List (Nat × Ask) := shard.stage.outside.asked.reverse

/-- What subscribers were told since the last time, oldest first. -/
def news (shard : Shard) : List PeerEvent := shard.stage.own.news.reverse

/-- The shard after what it asked was passed on. -/
def passedOn (shard : Shard) : Shard := { shard with stage.outside.asked := [] }

/-- The shard after its news were fetched. -/
def told (shard : Shard) : Shard := { shard with stage.own.news := [] }

end Shard

end Quorum
