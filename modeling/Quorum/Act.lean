import Quorum.Calendar
import Quorum.Election.Window
import Quorum.Event
import Quorum.Timing.Scheduler

/-!
# Acts

A handler changes the state of the component it belongs to, and acts on what lies outside of it: it
arms and cancels timers, and asks the transport to send, connect or close. An `Act` over a state
type is such a handler. It can fail half way, because arming a timer can be refused; what it did
before the failure stays done.

A handler typed by the state of one component cannot touch another one. `Act.within` runs it on the
part of a larger state that belongs to it.
-/

namespace Quorum

/-- What lies outside of the components of a node. -/
structure Outside where
  /-- The clock, in milliseconds. -/
  clockMs : Nat
  timers : Scheduler TimerEvent
  /-- Everything asked of the transport and not yet passed on, with the time, newest first. -/
  asked : List (Nat × Ask) := []
  /-- The source of drawn numbers. -/
  draws : Nat → Nat
  /-- How many numbers have been drawn. -/
  drawn : Nat := 0

/-- The state of a component together with what lies outside. -/
structure Stage (σ : Type) where
  own : σ
  outside : Outside

/-- A handler of a component with state `σ`. -/
abbrev Act (σ α : Type) : Type := ExceptT Failure (StateM (Stage σ)) α

/-- Run a handler: what it answered, and the stage after it, whether it failed or not. -/
def Act.perform {σ α : Type} (act : Act σ α) (stage : Stage σ) :
    Except Failure α × Stage σ :=
  act.run.run stage

namespace Act

variable {σ τ α : Type}

/-- The state of the component itself. -/
def own : Act σ σ := do return (← get).own

def setOwn (next : σ) : Act σ Unit := modify fun stage => { stage with own := next }

def modifyOwn (change : σ → σ) : Act σ Unit :=
  modify fun stage => { stage with own := change stage.own }

/-- The present time. -/
def clockMs : Act σ Nat := do return (← get).outside.clockMs

/-- Answer or fail as a computation without effects did. -/
def ofExcept : Except Failure α → Act σ α
  | .ok value => pure value
  | .error failure => throw failure

/-- The present time, provided that it has a date. -/
def datedClockMs : Act σ Nat := do
  match datedInstant (← clockMs) with
  | .ok ms => return ms
  | .error cause => throw (.fault cause)

/-- Pass something on to the transport. -/
def ask (wish : Ask) : Act σ Unit :=
  modify fun stage =>
    { stage with outside.asked := (stage.outside.clockMs, wish) :: stage.outside.asked }

def send (conn : ConnId) (message : Message) : Act σ Unit := ask (.send conn message)

def sendRequest (conn : ConnId) (request : Request) : Act σ Unit := send conn (.request request)

def sendResponse (conn : ConnId) (response : Response) : Act σ Unit :=
  send conn (.response response)

def connect (peer : Peer) : Act σ Unit := ask (.connect peer)

def close (conn : ConnId) : Act σ Unit := ask (.close conn)

/-- Arm a timer, once or with a period. If the scheduler refuses, the handler fails. -/
def arm (delay : Delay) (event : TimerEvent) (repeats : Bool := false) : Act σ Handle := do
  let stage ← get
  let (handle, timers) ←
    ofExcept (stage.outside.timers.schedule stage.outside.clockMs delay repeats event)
  set { stage with outside.timers := timers }
  return handle

/-- Cancel a timer. Cancelling it again does nothing. -/
def cancel (handle : Handle) : Act σ Unit :=
  modify fun stage =>
    { stage with outside.timers := stage.outside.timers.cancel handle }

/-- Cancel a timer that may not be there. -/
def cancelIfAny (handle : Option Handle) : Act σ Unit :=
  match handle with
  | some held => cancel held
  | none => pure ()

def isCancelled (handle : Handle) : Act σ Bool := do
  return (← get).outside.timers.isCancelled handle

/-- Draw an election timeout from a window. -/
def draw (window : Window) : Act σ Delay := do
  let stage ← get
  let outside := stage.outside
  set { stage with outside.drawn := outside.drawn + 1 }
  return window.sample (outside.draws outside.drawn)

/-- Run a handler of a part on the whole. The rest of the whole stays as it is. -/
def within (part : σ → τ) (replace : τ → σ → σ) (act : Act τ α) : Act σ α :=
  ExceptT.mk do
    let whole ← get
    let (answer, inner) := act.perform ⟨part whole.own, whole.outside⟩
    set (⟨replace inner.own whole.own, inner.outside⟩ : Stage σ)
    return answer

end Act

end Quorum
