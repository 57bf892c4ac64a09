import Quorum.Proofs.Node.Tidings

/-!
# Who is heard in an election

A node gives a vote, a leader's heartbeat or an answer to one of these to its member only in the
name of a configured peer, on the connection that this peer has now.  Whatever else comes on any
other connection is as if it had never been sent (`Core.heeds_peers_only`).

The first half rests on the registry: a connection that resolves to a peer is the one that the peer
is bound to, and nobody is bound who is not configured (`Liveness.Acquainted`).  For the latter the
transport has to report connections to the peers that were dialled only.  The second half needs no
more than that a message without a sender is dropped at once.
-/

namespace Quorum

open Act

/-! ## Who is bound -/

namespace Registry

variable {registry : Registry} {members : List NodeId} {conn : ConnId} {id : NodeId}

/-- Connections resolve to the given members only. -/
def Admits (registry : Registry) (members : List NodeId) : Prop :=
  ∀ conn id, registry.peerOf? conn = some id → id ∈ members

namespace Admits

theorem of_peerOf?_eq
    {after : Registry}
    (admits : registry.Admits members)
    (fewer : ∀ conn id, after.peerOf? conn = some id → registry.peerOf? conn = some id) :
    after.Admits members :=
  fun conn id resolved => admits conn id (fewer conn id resolved)

theorem removeConnection (admits : registry.Admits members) :
    (registry.removeConnection conn).Admits members := by
  refine admits.of_peerOf?_eq fun another other resolved => ?_
  rw [peerOf?_removeConnection] at resolved
  split at resolved
  · cases resolved
  · exact resolved

theorem removeIfCurrent
    (admits : registry.Admits members)
    (current : registry.get? id = some conn) :
    (registry.removeIfCurrent id conn).Admits members := by
  refine admits.of_peerOf?_eq fun another other resolved => ?_
  rw [peerOf?_removeIfCurrent current] at resolved
  split at resolved
  · cases resolved
  · exact resolved

theorem bind (admits : registry.Admits members) (member : id ∈ members) :
    (registry.bind id conn).Admits members := by
  intro another other resolved
  rw [peerOf?_bind] at resolved
  split at resolved
  · exact admits another other resolved
  split at resolved
  · obtain rfl := Option.some.inj resolved
    exact member
  split at resolved
  · cases resolved
  · exact admits another other resolved

end Admits

end Registry

namespace Liveness

variable
    {timers : Scheduler TimerEvent}
    {own next : Liveness}
    {happening : Happening}
    {event : Option PeerEvent}
    {effect : Effect}
    {conn : ConnId}
    {id : NodeId}

/-- Nobody is bound, and nobody is waited for on a connection, but members. -/
structure Acquainted (own : Liveness) : Prop where
  bound : own.registry.Admits own.members
  dialled : ∀ conn pending, own.dialing.get? conn = some pending → pending.id ∈ own.members

namespace Acquainted

theorem erased
    {members : List NodeId}
    {dialing : Table ConnId PendingDial}
    (dialled : ∀ conn pending, dialing.get? conn = some pending → pending.id ∈ members) :
    ∀ another pending, (dialing.erase conn).get? another = some pending → pending.id ∈ members := by
  intro another pending waiting
  rw [Table.get?_erase] at waiting
  split at waiting
  · cases waiting
  · exact dialled another pending waiting

theorem identifies
    (acquainted : own.Acquainted)
    (identifies : own.Identifies conn id effect next)
    (member : id ∈ own.members) :
    next.Acquainted := by
  cases identifies with
  | bound => exact ⟨acquainted.bound.bind member, erased acquainted.dialled⟩

theorem ends
    (acquainted : own.Acquainted)
    (ends : own.Ends conn event effect next) :
    next.Acquainted := by
  cases ends with
  | unanswered _ pursues =>
      obtain ⟨_, rfl⟩ := pursues.next_eq
      exact ⟨acquainted.bound, erased acquainted.dialled⟩
  | unbound => exact ⟨acquainted.bound.removeConnection, acquainted.dialled⟩
  | parted _ _ pursues =>
      obtain ⟨_, rfl⟩ := pursues.next_eq
      exact ⟨acquainted.bound.removeConnection, acquainted.dialled⟩

end Acquainted

/-- Members stay among themselves, if only connections to members are reported as opened. -/
theorem Moves.acquainted
    (moves : own.Moves timers happening event effect next)
    (acquainted : own.Acquainted)
    (honest : ∀ conn id, happening = .connected conn id → id ∈ own.members)
    (lasting : happening ≠ .shutdown) :
    next.Acquainted := by
  have rearming {next : Liveness} {id : NodeId} {conn : ConnId} {effect : Effect}
      (rearms : own.Rearms id conn effect next) : next.Acquainted := by
    cases rearms <;> exact ⟨acquainted.bound, acquainted.dialled⟩
  cases moves with
  | @opened conn id handle =>
      refine ⟨acquainted.bound, fun another pending waiting => ?_⟩
      rw [Table.get?_insert] at waiting
      split at waiting
      · obtain rfl := Option.some.inj waiting
        exact honest conn id rfl
      · exact acquainted.dialled another pending waiting
  | failed pursues =>
      obtain ⟨_, rfl⟩ := pursues.next_eq
      exact ⟨acquainted.bound, acquainted.dialled⟩
  | lapsed _ pursues =>
      obtain ⟨_, rfl⟩ := pursues.next_eq
      exact ⟨acquainted.bound, Acquainted.erased acquainted.dialled⟩
  | redialled _ _ dials =>
      obtain ⟨_, rfl⟩ := dials.next_eq
      exact ⟨acquainted.bound, acquainted.dialled⟩
  | greeted nobody =>
      refine ⟨acquainted.bound.of_peerOf?_eq fun another other resolved => ?_, acquainted.dialled⟩
      rwa [Registry.peerOf?_addAnonymous] at resolved
  | answered _ rearms | heard _ _ rearms | revived _ _ rearms => exact rearming rearms
  | recanted _ _ ends | ended ends => exact acquainted.ends ends
  | @identified conn _ _ _ _ member identifies =>
      have known : Acquainted { own with anonymous := own.anonymous.erase conn } :=
        ⟨acquainted.bound, acquainted.dialled⟩
      exact known.identifies identifies member
  | acknowledged waiting identifies =>
      exact acquainted.identifies identifies (acquainted.dialled _ _ waiting)
  | refused => exact ⟨acquainted.bound.removeConnection, acquainted.dialled⟩
  | expired current pursues =>
      obtain ⟨_, rfl⟩ := pursues.next_eq
      exact ⟨acquainted.bound.removeIfCurrent current, acquainted.dialled⟩
  | shut => exact absurd rfl lasting
  | _ => exact ⟨acquainted.bound, acquainted.dialled⟩

theorem acquainted_ofConfig (config : NodeConfig) : (Liveness.ofConfig config).Acquainted where
  bound := by
    intro conn id resolved
    cases resolved
  dialled := by
    intro conn pending waiting
    cases waiting

end Liveness

/-! ## Runs of a core -/

/-- Whether a message is a matter of the election: a vote, a leader's heartbeat, or an answer to one
of these. -/
def Message.isElectoral : Message → Bool
  | request (.heartbeat _) => false
  | response .heartbeat => false
  | _ => true

namespace Core

/-- Give a message to the member as coming from a peer.  The answer goes back on the connection. -/
def handOver (conn : ConnId) (sender : NodeId) : Message → Act Core Unit
  | .request request => do
    match ← elect fun registry => Member.onRequest registry sender request with
    | some response => sendResponse conn response
    | none => pure ()
  | .response response => elect fun registry => Member.onResponse registry sender response

/-- Something makes the core act, or time passes and changes what lies outside of it. -/
inductive Input where
  | met (impulse : Impulse)
  | elapsed (change : Outside → Outside)

/-- A message arrives on a connection. -/
def Input.received (conn : ConnId) (message : Message) : Input :=
  .met (.told (.reported (.received conn message)))

/-- A connection to a peer is reported as open. -/
def Input.connected (conn : ConnId) (id : NodeId) : Input :=
  .met (.told (.reported (.connected conn id)))

/-- What comes of an input: the answer, and the stage after it. -/
def Input.perform (stage : Stage Core) : Input → Except Failure Unit × Stage Core
  | met impulse => impulse.handler.perform stage
  | elapsed change => (.ok (), { stage with outside := change stage.outside })

/-- One input with the stages before and after it. -/
structure Reaction where
  input : Input
  before : Stage Core
  answer : Except Failure Unit
  after : Stage Core

/-- What a core does with an input. -/
def react (stage : Stage Core) (input : Input) : Reaction :=
  ⟨input, stage, (input.perform stage).1, (input.perform stage).2⟩

/-- Everything that a core does, one input after the other, up to the first failure. -/
def reactions (stage : Stage Core) : List Input → List Reaction
  | [] => []
  | input :: rest =>
      react stage input ::
        match (react stage input).answer with
        | .ok _ => reactions (react stage input).after rest
        | .error _ => []

namespace Reaction

/-- A matter of the election came on a connection that is bound to nobody at the moment. -/
def isStray (reaction : Reaction) : Bool :=
  match reaction.input with
  | .met (.told (.reported (.received conn message))) =>
      message.isElectoral && (reaction.before.own.registry.peerOf? conn).isNone
  | _ => false

/-- A message is dropped without a trace, or given to the member in the name of a configured peer
that is bound to the connection. -/
inductive Trusts
    (config : NodeConfig)
    (conn : ConnId)
    (message : Message)
    (reaction : Reaction) : Prop where
  | dropped
      (unbound : reaction.before.own.registry.peerOf? conn = none)
      (answered : reaction.answer = .ok ())
      (unchanged : reaction.after = reaction.before)
  | given
      (sender : NodeId)
      (performed : (handOver conn sender message).perform reaction.before =
        (reaction.answer, reaction.after))
      (configured : sender ∈ config.peers.map Peer.id)
      (current : reaction.before.own.registry.get? sender = some conn)
      (named : conn ∉ reaction.before.own.registry.anonymous)

end Reaction

variable
    {config : NodeConfig}
    {stage : Stage Core}
    {conn : ConnId}
    {message : Message}
    {inputs inputs' : List Input}

/-- A matter of the election is for the peer that is bound to the connection, if there is one. -/
theorem perform_onMessage (electoral : message.isElectoral = true) :
    (onMessage conn message).perform stage =
      (match stage.own.registry.peerOf? conn with
        | none => pure ()
        | some sender => handOver conn sender message : Act Core Unit).perform stage := by
  match message with
  | .request (.heartbeat _) => cases electoral
  | .request (.vote ..) => rfl
  | .request (.leaderHeartbeat ..) => rfl
  | .response .heartbeat => cases electoral
  | .response (.vote ..) => rfl
  | .response (.leaderHeartbeat ..) => rfl

/-! ### Everyone heard is a peer -/

/-- A state that was reached with everyone in it a configured peer. -/
structure Trusted (config : NodeConfig) (core : Core) : Prop where
  reached : Reached config core
  acquainted : core.liveness.Acquainted
  members_eq : core.liveness.members = config.peers.map Peer.id

theorem Trusted.begun (sinceMs : Nat) : Trusted config (Core.ofConfig config sinceMs) where
  reached := .made
  acquainted := Liveness.acquainted_ofConfig config
  members_eq := rfl

theorem Acts.trusted
    {heard : Option Happening}
    {after : Stage Core}
    (acts : Acts stage heard after)
    (acquainted : stage.own.liveness.Acquainted)
    (honest : ∀ conn id, heard = some (.connected conn id) → id ∈ stage.own.liveness.members)
    (lasting : heard ≠ some .shutdown) :
    after.own.liveness.Acquainted ∧
      after.own.liveness.members = stage.own.liveness.members := by
  cases acts with
  | elected elects =>
      rw [elects.liveness_eq]
      exact ⟨acquainted, rfl⟩
  | watched watches elects =>
      have moved := watches.moves.acquainted acquainted
        (fun conn id opened => honest conn id (congrArg some opened))
        (fun shuts => lasting (congrArg some shuts))
      have settings := watches.moves.settings_eq
      rw [← elects.liveness_eq] at moved settings
      exact ⟨moved, congrArg Liveness.Settings.members settings⟩
  | started elects watches =>
      have settings := watches.moves.settings_eq
      have moved := watches.moves
      rw [elects.liveness_eq] at settings moved
      exact ⟨moved.acquainted acquainted nofun nofun,
        congrArg Liveness.Settings.members settings⟩

/-- Peers that may be dialled are configured. -/
theorem mem_peers_of_mem_dialTargets {id : NodeId} (target : id ∈ config.dialTargets.map Peer.id) :
    id ∈ config.peers.map Peer.id := by
  obtain ⟨peer, dialled, rfl⟩ := List.mem_map.mp target
  exact List.mem_map_of_mem (List.mem_of_mem_filter dialled)

/-- Only the transport means that a connection to a peer is open. -/
theorem eq_of_happening?_connected
    {impulse : Impulse}
    {id : NodeId}
    (heard : impulse.happening? = some (.connected conn id)) :
    Input.met impulse = .connected conn id := by
  cases impulse with
  | timer event => cases event <;> cases heard
  | told cue =>
      have told : cue.happening? = some (.connected conn id) := heard
      unfold Cue.happening? at told
      split at told <;> cases told
      rfl

theorem Trusted.react
    {input : Input}
    (trusted : Trusted config stage.own)
    (honest : ∀ conn id, input = .connected conn id → id ∈ config.dialTargets.map Peer.id)
    (answered : (Core.react stage input).answer = .ok ()) :
    Trusted config (Core.react stage input).after.own := by
  cases input with
  | elapsed change => exact trusted
  | met impulse =>
      have performed := perform_eq answered
      have acts := (impulse_acts impulse).of_perform performed
      have opened : ∀ conn id, impulse.happening? = some (.connected conn id) →
          id ∈ stage.own.liveness.members := by
        intro conn id heard
        rw [trusted.members_eq]
        exact mem_peers_of_mem_dialTargets (honest conn id (eq_of_happening?_connected heard))
      obtain ⟨acquainted, members_eq⟩ := acts.trusted trusted.acquainted opened
        fun shuts => Impulse.ne_shutdown_of_happening? shuts rfl
      exact ⟨trusted.reached.moved performed, acquainted, members_eq.trans trusted.members_eq⟩

theorem Trusted.reactions
    (trusted : Trusted config stage.own)
    (honest : ∀ conn id, .connected conn id ∈ inputs → id ∈ config.dialTargets.map Peer.id) :
    ∀ reaction ∈ Core.reactions stage inputs, Trusted config reaction.before.own := by
  induction inputs generalizing stage with
  | nil => exact List.forall_mem_nil _
  | cons input rest ih =>
      refine List.forall_mem_cons.mpr ⟨trusted, ?_⟩
      split
      · next answered =>
        refine ih (trusted.react (fun conn id same => ?_) answered) fun conn id listed => ?_
        · exact honest conn id (same ▸ List.mem_cons_self)
        · exact honest conn id (List.mem_cons_of_mem _ listed)
      · exact List.forall_mem_nil _

/-- A state with everyone in it a configured peer trusts no one else. -/
theorem Trusted.trusts
    (trusted : Trusted config stage.own)
    (electoral : message.isElectoral = true) :
    (Core.react stage (.received conn message)).Trusts config conn message := by
  have performed : ((Core.react stage (.received conn message)).answer,
      (Core.react stage (.received conn message)).after) =
        (onMessage conn message).perform stage := rfl
  have coherent := trusted.reached.mirrored.coherent
  rw [perform_onMessage electoral] at performed
  cases bound : stage.own.registry.peerOf? conn with
  | none =>
      rw [bound] at performed
      exact .dropped bound (congrArg Prod.fst performed) (congrArg Prod.snd performed)
  | some sender =>
      rw [bound] at performed
      refine .given sender performed.symm ?_ (coherent.bound conn sender bound) fun listed => ?_
      · exact trusted.members_eq ▸ trusted.acquainted.bound conn sender bound
      · have unnamed := coherent.named conn listed
        rw [bound] at unnamed
        cases unnamed

/-! ### Nobody else makes a difference -/

/-- The inputs that a core has met, without those that came from nobody. -/
def heeded (stage : Stage Core) (inputs : List Input) : List Input :=
  ((reactions stage inputs).filter fun reaction => !reaction.isStray).map Reaction.input

theorem Reaction.isStray_spares {input : Input} (stray : (react stage input).isStray = true) :
    (react stage input).answer = .ok () ∧ (react stage input).after = stage := by
  unfold isStray at stray
  split at stray
  · next conn message came =>
    obtain rfl : input = .received conn message := came
    obtain ⟨electoral, nobody⟩ := Bool.and_eq_true_iff.mp stray
    have unbound : stage.own.registry.peerOf? conn = none := Option.isNone_iff_eq_none.mp nobody
    have performed : (onMessage conn message).perform stage = (.ok (), stage) := by
      rw [perform_onMessage electoral, unbound]
      rfl
    exact ⟨congrArg Prod.fst performed, congrArg Prod.snd performed⟩
  · cases stray

theorem reactions_cons_of_answered
    {input : Input}
    (answered : (react stage input).answer = .ok ()) :
    reactions stage (input :: inputs) =
      react stage input :: reactions (react stage input).after inputs := by
  rw [reactions, answered]

theorem reactions_cons_of_failed
    {input : Input}
    {failure : Failure}
    (failed : (react stage input).answer = .error failure) :
    reactions stage (input :: inputs) = [react stage input] := by
  rw [reactions, failed]

/-- A run goes on as if strays had never come. -/
theorem reactions_heeded :
    reactions stage (heeded stage inputs) =
      (reactions stage inputs).filter fun reaction => !reaction.isStray := by
  unfold heeded
  induction inputs generalizing stage with
  | nil => rfl
  | cons input rest ih =>
      cases stray : (react stage input).isStray with
      | true =>
          obtain ⟨answered, unchanged⟩ := Reaction.isStray_spares stray
          rw [reactions_cons_of_answered answered, unchanged,
            List.filter_cons_of_neg (by simp [stray])]
          exact ih
      | false =>
          cases answer : (react stage input).answer with
          | ok =>
              rw [reactions_cons_of_answered answer, List.filter_cons_of_pos (by simp [stray]),
                List.map_cons]
              exact (reactions_cons_of_answered answer).trans (congrArg _ ih)
          | error failure =>
              rw [reactions_cons_of_failed answer, List.filter_cons_of_pos (by simp [stray])]
              exact reactions_cons_of_failed answer

theorem eq_react_of_mem :
    ∀ reaction ∈ reactions stage inputs, reaction = react reaction.before reaction.input := by
  induction inputs generalizing stage with
  | nil => exact List.forall_mem_nil _
  | cons input rest ih =>
      refine List.forall_mem_cons.mpr ⟨rfl, ?_⟩
      split
      · exact ih
      · exact List.forall_mem_nil _

/-- A node hears no one in an election but its configured peers, each on the connection that it has
now; and if two runs are the same but for what comes on other connections, then all that they do is
the same but for this, which changes nothing. -/
theorem heeds_peers_only
    {sinceMs : Nat}
    {outside : Outside}
    (begins : stage = ⟨Core.ofConfig config sinceMs, outside⟩)
    (honest : ∀ conn id, .connected conn id ∈ inputs → id ∈ config.dialTargets.map Peer.id) :
    (∀ reaction ∈ reactions stage inputs, ∀ conn message,
        reaction.input = .received conn message → message.isElectoral = true →
          reaction.Trusts config conn message) ∧
      ∀ inputs', heeded stage inputs' = heeded stage inputs →
        ((reactions stage inputs').filter fun reaction => !reaction.isStray) =
            ((reactions stage inputs).filter fun reaction => !reaction.isStray) ∧
          ∀ reaction ∈ reactions stage inputs', reaction.isStray = true →
            reaction.answer = .ok () ∧ reaction.after = reaction.before := by
  refine ⟨?_, fun inputs' same => ⟨?_, ?_⟩⟩
  · intro reaction listed conn message came electoral
    have trusted : Trusted config reaction.before.own := by
      refine Trusted.reactions ?_ honest reaction listed
      rw [begins]
      exact .begun sinceMs
    rw [eq_react_of_mem reaction listed, came]
    exact trusted.trusts electoral
  · rw [← reactions_heeded, ← reactions_heeded, same]
  · intro reaction listed stray
    have performed := eq_react_of_mem reaction listed
    rw [performed] at stray ⊢
    exact Reaction.isStray_spares stray

end Core

namespace Intruder

/-! ### Two strays

Somebody asks for a vote on a connection that nobody is bound to, and later peer `1` answers on a
connection that it has given up for another one. -/

def inputs : List Core.Input :=
  [.received ⟨7⟩ (.request (.vote 1 0 0)),
    .connected ⟨1⟩ "1",
    .received ⟨1⟩ (.response .heartbeat),
    .received ⟨1⟩ (.request (.vote 1 0 0)),
    .elapsed fun outside => { outside with clockMs := 500 },
    .connected ⟨2⟩ "1",
    .received ⟨2⟩ (.response .heartbeat),
    .received ⟨1⟩ (.response (.vote 1 true))]

end Intruder

/-- The strays are told apart from the vote request that peer `1` sends on its own connection. -/
theorem Core.heeds_peers_only_intruder :
    (∀ conn id, Input.connected conn id ∈ Intruder.inputs →
        id ∈ Borrowed.config.dialTargets.map Peer.id) ∧
      (reactions Borrowed.fresh Intruder.inputs).map Reaction.isStray =
          [true, false, false, false, false, false, false, true] ∧
        (∀ reaction ∈ reactions Borrowed.fresh Intruder.inputs, ∀ conn message,
          reaction.input = .received conn message → message.isElectoral = true →
            reaction.Trusts Borrowed.config conn message) ∧
          ∀ inputs', heeded Borrowed.fresh inputs' = heeded Borrowed.fresh Intruder.inputs →
            ((reactions Borrowed.fresh inputs').filter fun reaction => !reaction.isStray) =
                ((reactions Borrowed.fresh Intruder.inputs).filter
                  fun reaction => !reaction.isStray) ∧
              ∀ reaction ∈ reactions Borrowed.fresh inputs', reaction.isStray = true →
                reaction.answer = .ok () ∧ reaction.after = reaction.before := by
  have honest : ∀ conn id, Input.connected conn id ∈ Intruder.inputs →
      id ∈ Borrowed.config.dialTargets.map Peer.id := by
    intro conn id listed
    have opened : conn = ⟨1⟩ ∧ id = "1" ∨ conn = ⟨2⟩ ∧ id = "1" := by
      simpa [Intruder.inputs, Input.connected, Input.received] using listed
    rcases opened with ⟨_, rfl⟩ | ⟨_, rfl⟩ <;> decide
  exact ⟨honest, by decide +kernel, heeds_peers_only rfl honest⟩

end Quorum
