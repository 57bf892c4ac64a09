/-!
# Errors and faults

Two things can end a computation early. An `Error` is an answer of the domain: a configuration that
does not hold together, a delay the timers cannot hold, a scheduler that has stopped. A `Fault` is
the loss of the computation itself: a sum that leaves the 64-bit words, a division by zero, an index
outside its list. Handlers report either as a `Failure`.
-/

namespace Quorum

/-- What can be wrong with a configuration. -/
inductive ConfigProblem where
  | emptyId
  | listsItself (id : String)
  | duplicatePeer (id : String)
  | invertedElectionWindow (minMs maxMs : Nat)
  | zeroHeartbeatInterval
  | shortHeartbeatTimeout (timeoutMs intervalMs : Nat)
  | shortElectionTimeout (timeoutMs intervalMs : Nat)
  | zeroHandoffCapacity
  | zeroTimerDimension
  /-- A problem known by its wording only. -/
  | other (text : String)
  deriving DecidableEq, Repr

/-- The wording of a configuration problem. -/
def ConfigProblem.message : ConfigProblem → String
  | emptyId => "node id must not be empty"
  | listsItself id => s!"peer list contains the local node {id}"
  | duplicatePeer id => s!"duplicate peer id {id}"
  | invertedElectionWindow minMs maxMs =>
      s!"election timeout min {minMs}ms is above max {maxMs}ms"
  | zeroHeartbeatInterval => "heartbeat interval must be non-zero"
  | shortHeartbeatTimeout timeoutMs intervalMs =>
      s!"heartbeat timeout {timeoutMs}ms must be longer than the interval {intervalMs}ms"
  | shortElectionTimeout timeoutMs intervalMs =>
      s!"election timeout {timeoutMs}ms must be longer than the heartbeat interval {intervalMs}ms"
  | zeroHandoffCapacity => "hand-off queue capacity must be non-zero"
  | zeroTimerDimension => "timer tick and bucket counts must be non-zero"
  | other text => text

/-- An answer of the domain other than success. -/
inductive Error where
  /-- The delay does not fit into the wheels; raised instead of losing the timeout. -/
  | capacityExceeded (delayMs capacityMs : Nat)
  | invalidConfig (problem : ConfigProblem)
  | schedulerStopped
  | channelClosed (channel : String)
  | internal (what : String)
  deriving DecidableEq, Repr

namespace Error

/-- The wording of an error. -/
def message : Error → String
  | capacityExceeded delayMs capacityMs =>
      s!"Timer delay of {delayMs}ms exceeds wheel capacity of {capacityMs}ms"
  | invalidConfig problem => s!"Invalid configuration: {problem.message}"
  | schedulerStopped => "Timer scheduler is stopped"
  | channelClosed channel => s!"Channel closed: {channel}"
  | internal what => s!"Internal error: {what}"

/-- An error is fatal when a timeout has been lost: a node must stop rather than run on. -/
def isFatal : Error → Bool
  | capacityExceeded _ _ => true
  | schedulerStopped => true
  | _ => false

end Error

/-- How a computation can be lost. -/
inductive Fault where
  /-- A sum or product does not fit into 64 bits. -/
  | overflow
  | divisionByZero
  /-- An index points outside its list. -/
  | outOfRange
  /-- A queue without room for a single element was asked for. -/
  | emptyQueue
  /-- More places were asked for than can be counted or addressed. -/
  | tooLarge
  /-- An instant lies behind the last day of the calendar. -/
  | undated
  /-- A retry would see the same wheels again, for ever. -/
  | endlessRetry
  deriving DecidableEq, Repr

/-- Why a computation did not answer. -/
inductive Failure where
  | error (cause : Error)
  | fault (cause : Fault)
  deriving DecidableEq, Repr

instance : MonadLift (Except Fault) (Except Failure) where
  monadLift := Except.mapError Failure.fault

instance : MonadLift (Except Error) (Except Failure) where
  monadLift := Except.mapError Failure.error

/-- A computation that answers, among those that can also be refused. -/
theorem lift_ok {α : Type} (value : α) :
    (liftM (Except.ok value : Except Fault α) : Except Failure α) = .ok value :=
  rfl

/-- Whether two computations had the same outcome can be decided. -/
instance decidableEqExcept {ε α : Type} [DecidableEq ε] [DecidableEq α] :
    DecidableEq (Except ε α)
  | .ok value, .ok other => decidable_of_iff (value = other) ⟨congrArg Except.ok, Except.ok.inj⟩
  | .error cause, .error other =>
    decidable_of_iff (cause = other) ⟨congrArg Except.error, Except.error.inj⟩
  | .ok _, .error _ => .isFalse nofun
  | .error _, .ok _ => .isFalse nofun

/-- A computation in two parts answers if both parts do. -/
theorem bind_eq_ok_iff {ε α β : Type} {first : Except ε α} {next : α → Except ε β} {value : β} :
    (first >>= next) = .ok value ↔ ∃ between, first = .ok between ∧ next between = .ok value := by
  cases first with
  | error cause => simp [bind, Except.bind]
  | ok between => simp [bind, Except.bind]

/-- It fails if the first part does, or the second one after it. -/
theorem bind_eq_error_iff {ε α β : Type} {first : Except ε α} {next : α → Except ε β} {cause : ε} :
    (first >>= next) = .error cause ↔
      first = .error cause ∨ ∃ between, first = .ok between ∧ next between = .error cause := by
  cases first with
  | error found => simp [bind, Except.bind]
  | ok between => simp [bind, Except.bind]

theorem mapError_eq_ok_iff {ε δ α : Type} {wrap : ε → δ} {first : Except ε α} {value : α} :
    first.mapError wrap = .ok value ↔ first = .ok value := by
  cases first with
  | error cause =>
      constructor
      · intro wrapped
        cases wrapped
      · intro answered
        cases answered
  | ok found =>
      constructor
      · intro wrapped
        exact congrArg Except.ok (Except.ok.inj wrapped)
      · intro answered
        exact congrArg Except.ok (Except.ok.inj answered)

end Quorum
