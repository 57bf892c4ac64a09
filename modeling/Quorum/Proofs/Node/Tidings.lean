import Quorum.Proofs.Node.Silence
import Quorum.Proofs.Peers.Closings

/-!
# News of peers

Subscribers can rely on the news to know who is connected.  About each peer they are told in turn
that it has come and that it has left, beginning with the former, and the newest of this is what the
registry says (`Core.Reached.news_alternate`).

Connections may be reused at will, and several peers may claim the same one.  What is told goes back
to what a change of the registry does to the connected peers, and this needs one thing of the
registry: a connection resolves only to a peer that is bound to it.  Otherwise a connection that
closes could announce the loss of a peer that is gone already.
-/

namespace Quorum

open Liveness

/-- News about a peer that comes and leaves in turn, the newest first, and whether it is there
now. -/
inductive Alternates (id : NodeId) : Bool → List PeerEvent → Prop where
  | unheard : Alternates id false []
  | came
      {news : List PeerEvent}
      (away : Alternates id false news) :
      Alternates id true (.connected id :: news)
  | left
      {news : List PeerEvent}
      (here : Alternates id true news) :
      Alternates id false (.disconnected id :: news)

/-- How it comes that a peer is there or not, with what is told about it. -/
inductive Tells (id : NodeId) : Bool → Option PeerEvent → Bool → Prop where
  | kept
      {here : Bool} {event : Option PeerEvent}
      (silent : ∀ told ∈ event, told.peer ≠ id) :
      Tells id here event here
  | came : Tells id false (some (.connected id)) true
  | left : Tells id true (some (.disconnected id)) false

section News

variable
    {id : NodeId}
    {here later : Bool}
    {news : List PeerEvent}
    {event : Option PeerEvent}

/-- The newest piece of news says whether the peer is there. -/
theorem Alternates.here_iff (alternates : Alternates id here news) :
    here = true ↔ news.head? = some (.connected id) := by
  cases alternates <;> simp

theorem Alternates.tells
    (alternates : Alternates id here (about id news))
    (tells : Tells id here event later) :
    Alternates id later (about id (event.toList ++ news)) := by
  cases tells with
  | kept silent => rwa [about_append_of_silent silent]
  | came => simpa [about, PeerEvent.peer] using alternates.came
  | left => simpa [about, PeerEvent.peer] using alternates.left

end News

/-! ## What a change of the registry tells -/

/-- A registry that holds together, and the news say exactly who has come and who has left. -/
structure Registry.Mirrors
    (before : Registry)
    (event : Option PeerEvent)
    (after : Registry) : Prop where
  coherent : after.Coherent
  tells : ∀ id, Tells id (before.isConnected id) event (after.isConnected id)

namespace Registry.Mirrors

variable {registry after : Registry} {id : NodeId} {conn : ConnId}

/-- Nothing is told as long as every peer keeps its connection. -/
theorem of_get?_eq
    (coherent : after.Coherent)
    (same : ∀ id, after.get? id = registry.get? id) :
    registry.Mirrors none after where
  coherent := coherent
  tells := by
    intro other
    have here : after.isConnected other = registry.isConnected other :=
      congrArg Option.isSome (same other)
    rw [here]
    exact .kept nofun

theorem refl (coherent : registry.Coherent) : registry.Mirrors none registry :=
  .of_get?_eq coherent fun _ => rfl

/-- A peer that is removed is told to have left. -/
theorem of_removed
    (coherent : after.Coherent)
    (bound : registry.get? id = some conn)
    (removed : ∀ other, after.get? other = if other = id then none else registry.get? other) :
    registry.Mirrors (some (.disconnected id)) after where
  coherent := coherent
  tells := by
    intro other
    have here : after.isConnected other = (after.get? other).isSome := rfl
    have there : registry.isConnected other = (registry.get? other).isSome := rfl
    rw [here, there, removed]
    by_cases same : other = id
    · subst same
      rw [if_pos rfl, bound]
      exact .left
    · rw [if_neg same]
      exact .kept fun told listed => by
        obtain rfl := Option.some.inj listed
        exact Ne.symm same

/-- A peer that is bound is told to have come, unless it was there already. -/
theorem bind (coherent : registry.Coherent) :
    registry.Mirrors (registry.announced id conn) (registry.bind id conn) where
  coherent := coherent.bind
  tells := by
    intro other
    have here : (registry.bind id conn).isConnected other =
        ((registry.bind id conn).get? other).isSome := rfl
    have there : registry.isConnected other = (registry.get? other).isSome := rfl
    rw [here, there, get?_bind, announced_eq]
    by_cases same : other = id
    · subst same
      rw [if_pos rfl]
      cases held : registry.get? other with
      | none => exact .came
      | some previous => exact .kept (by simp)
    · rw [if_neg same]
      refine .kept fun told listed => ?_
      split at listed
      · obtain rfl := Option.some.inj listed
        exact Ne.symm same
      · cases listed

theorem removeConnection_unbound
    (coherent : registry.Coherent)
    (nobody : registry.peerOf? conn = none) :
    registry.Mirrors none (registry.removeConnection conn) := by
  refine .of_get?_eq coherent.removeConnection fun other => ?_
  rw [get?_removeConnection, nobody, if_neg nofun]

/-- A connection that resolves to a peer takes this peer along, which is there to be taken. -/
theorem removeConnection
    (coherent : registry.Coherent)
    (resolved : registry.peerOf? conn = some id) :
    registry.Mirrors (some (.disconnected id)) (registry.removeConnection conn) := by
  refine .of_removed coherent.removeConnection (coherent.bound conn id resolved) fun other => ?_
  rw [get?_removeConnection, resolved]
  simp only [Option.some.injEq, eq_comm]

theorem removeIfCurrent
    (coherent : registry.Coherent)
    (current : registry.get? id = some conn) :
    registry.Mirrors (some (.disconnected id)) (registry.removeIfCurrent id conn) :=
  .of_removed coherent.removeIfCurrent current fun _ => get?_removeIfCurrent current

end Registry.Mirrors

/-! ## What a move of the protocol tells -/

namespace Liveness

variable
    {timers : Scheduler TimerEvent}
    {own next : Liveness}
    {happening : Happening}
    {event : Option PeerEvent}
    {effect : Effect}
    {conn : ConnId}
    {id : NodeId}

theorem Ends.mirrors
    (ends : own.Ends conn event effect next)
    (coherent : own.registry.Coherent) :
    own.registry.Mirrors event next.registry := by
  cases ends with
  | unanswered _ pursues =>
      obtain ⟨_, rfl⟩ := pursues.next_eq
      exact .refl coherent
  | unbound _ nobody => exact .removeConnection_unbound coherent nobody
  | parted _ resolved pursues =>
      obtain ⟨_, rfl⟩ := pursues.next_eq
      exact .removeConnection coherent resolved

theorem Identifies.mirrors
    (identifies : own.Identifies conn id effect next)
    (coherent : own.registry.Coherent) :
    own.registry.Mirrors (own.registry.announced id conn) next.registry := by
  cases identifies with
  | bound => exact .bind coherent

/-- Whatever the protocol does short of a shutdown, it tells exactly who has come or left by it. -/
theorem Moves.mirrors
    (moves : own.Moves timers happening event effect next)
    (coherent : own.registry.Coherent)
    (lasting : happening ≠ .shutdown) :
    own.registry.Mirrors event next.registry := by
  cases moves with
  | failed pursues | lapsed _ pursues =>
      obtain ⟨_, rfl⟩ := pursues.next_eq
      exact .refl coherent
  | redialled _ _ dials =>
      obtain ⟨_, rfl⟩ := dials.next_eq
      exact .refl coherent
  | answered _ rearms | heard _ _ rearms | revived _ _ rearms =>
      rw [rearms.registry_eq]
      exact .refl coherent
  | greeted => exact .of_get?_eq coherent.addAnonymous fun _ => Registry.get?_addAnonymous
  | dismissed => exact .of_get?_eq coherent.removeAnonymous fun _ => rfl
  | recanted _ _ ends | ended ends => exact ends.mirrors coherent
  | identified _ _ identifies => exact identifies.mirrors coherent
  | acknowledged _ identifies => exact identifies.mirrors coherent
  | refused nobody => exact .removeConnection_unbound coherent nobody
  | expired current pursues =>
      obtain ⟨_, rfl⟩ := pursues.next_eq
      exact .removeIfCurrent coherent current
  | shut => exact absurd rfl lasting
  | _ => exact .refl coherent

end Liveness

/-! ## What a node tells -/

namespace Core

/-- The states that a core can come to as long as its handlers answer.  Whatever it meets, it may
meet with any clock, any timers and any numbers to draw. -/
inductive Reached (config : NodeConfig) : Core → Prop where
  | made
      {sinceMs : Nat} :
      Reached config (Core.ofConfig config sinceMs)
  | moved
      {core : Core} {impulse : Impulse} {outside : Outside} {after : Stage Core}
      (reached : Reached config core)
      (answered : impulse.handler.perform ⟨core, outside⟩ = (.ok (), after)) :
      Reached config after.own

/-- The registry holds together, and the news of every peer lead up to what the registry says about
it. -/
structure Mirrored (core : Core) : Prop where
  coherent : core.registry.Coherent
  alternates : ∀ id, Alternates id (core.registry.isConnected id) (about id core.news)

variable {config : NodeConfig} {core : Core} {stage after : Stage Core}

theorem mirrored_ofConfig (sinceMs : Nat) : (Core.ofConfig config sinceMs).Mirrored where
  coherent := Registry.coherent_empty
  alternates := fun _ => .unheard

/-- What the election does is no news. -/
theorem Elects.mirrored
    {effect : Effect}
    (elects : Elects stage effect after)
    (mirrored : stage.own.Mirrored) :
    after.own.Mirrored := by
  have registry_eq : after.own.registry = stage.own.registry :=
    congrArg Liveness.registry elects.liveness_eq
  constructor
  · rw [registry_eq]
    exact mirrored.coherent
  · rw [registry_eq, elects.news_eq]
    exact mirrored.alternates

/-- The news of a move are told once the election has seen them. -/
theorem Watches.mirrored
    {happening : Happening}
    {event : Option PeerEvent}
    {effect : Effect}
    (watches : Watches stage happening event effect after)
    (lasting : happening ≠ .shutdown)
    (mirrored : stage.own.Mirrored) :
    ({ after.own with news := event.toList ++ after.own.news } : Core).Mirrored := by
  have mirrors := watches.moves.mirrors mirrored.coherent lasting
  constructor
  · exact mirrors.coherent
  · intro id
    have alternates := (mirrored.alternates id).tells (mirrors.tells id)
    rwa [← watches.news_eq] at alternates

theorem Acts.mirrored
    {heard : Option Happening}
    (acts : Acts stage heard after)
    (lasting : heard ≠ some .shutdown)
    (mirrored : stage.own.Mirrored) :
    after.own.Mirrored := by
  cases acts with
  | elected elects => exact elects.mirrored mirrored
  | @watched happening event _ _ between after watches elects =>
    have told := watches.mirrored (fun shuts => lasting (congrArg some shuts)) mirrored
    have registry_eq : after.own.registry = between.own.registry :=
      congrArg Liveness.registry elects.liveness_eq
    constructor
    · exact registry_eq ▸ told.coherent
    · intro id
      have alternates := told.alternates id
      rw [← elects.news_eq] at alternates
      exact registry_eq ▸ alternates
  | started elects watches =>
    exact watches.mirrored nofun (elects.mirrored mirrored)

theorem Reached.mirrored (reached : Reached config core) : core.Mirrored := by
  induction reached with
  | made => exact mirrored_ofConfig _
  | @moved core impulse outside after _ answered ih =>
    refine ((impulse_acts impulse).of_perform answered).mirrored ?_ ih
    exact fun shuts => Impulse.ne_shutdown_of_happening? shuts rfl

/-- The news about a peer alternate between its coming and its leaving, beginning with its coming,
and it is connected just when the newest of them says that it has come. -/
theorem Reached.news_alternate
    (reached : Reached config core)
    (id : NodeId) :
    Alternates id (core.registry.isConnected id) (about id core.news) ∧
      (core.registry.isConnected id = true ↔
        (about id core.news).head? = some (.connected id)) := by
  have alternates := reached.mirrored.alternates id
  exact ⟨alternates, alternates.here_iff⟩

end Core

namespace Borrowed

/-! ### Two peers on one connection

Peer `1` calls on a connection, which the transport then gives to a dial to peer `2`.  When it
closes, only peer `2` is told to have left; peer `1` leaves with its timeout. -/

def config : NodeConfig :=
  { Lull.config with id := "3", peers := [⟨"1", "", 0⟩, ⟨"2", "", 0⟩] }

def fresh : Stage Core := { Lull.fresh with own := Core.ofConfig config 0 }

/-- The stage after an impulse. -/
def moved (stage : Stage Core) (impulse : Impulse) : Stage Core := (impulse.handler.perform stage).2

def called : Stage Core :=
  moved fresh (.told (.reported (.received ⟨1⟩ (.request (.heartbeat "1")))))

def opened : Stage Core := moved called (.told (.reported (.connected ⟨1⟩ "2")))

def answered : Stage Core :=
  moved opened (.told (.reported (.received ⟨1⟩ (.response .heartbeat))))

def closed : Stage Core := moved answered (.told (.reported (.closed ⟨1⟩)))

def expired : Stage Core := moved closed (.timer (.peerTimeout "1" ⟨1⟩))

theorem reached : Core.Reached config closed.own ∧ Core.Reached config expired.own := by
  have move {stage : Stage Core} (reached : Core.Reached config stage.own) (impulse : Impulse)
      (answers : (impulse.handler.perform stage).1 = .ok ()) :
      Core.Reached config (moved stage impulse).own :=
    reached.moved (Act.perform_eq answers)
  have begun : Core.Reached config fresh.own := .made
  have calls : Core.Reached config called.own := move begun _ (by decide +kernel)
  have opens : Core.Reached config opened.own := move calls _ (by decide +kernel)
  have answers : Core.Reached config answered.own := move opens _ (by decide +kernel)
  have closes : Core.Reached config closed.own := move answers _ (by decide +kernel)
  have expires : Core.Reached config expired.own := move closes _ (by decide +kernel)
  exact ⟨closes, expires⟩

end Borrowed

/-- Both peers have come on the same connection.  The first one outlasts it for a while. -/
theorem Core.Reached.news_alternate_borrowed :
    (about "1" Borrowed.closed.own.news = [.connected "1"] ∧
        Borrowed.closed.own.registry.isConnected "1" = true) ∧
      about "2" Borrowed.closed.own.news = [.disconnected "2", .connected "2"] ∧
      about "1" Borrowed.expired.own.news = [.disconnected "1", .connected "1"] ∧
      Alternates "1" (Borrowed.expired.own.registry.isConnected "1")
        (about "1" Borrowed.expired.own.news) := by
  obtain ⟨closes, expires⟩ := Borrowed.reached
  have stays : about "1" Borrowed.closed.own.news = [.connected "1"] := by decide +kernel
  exact ⟨⟨stays, (closes.news_alternate "1").2.mpr (congrArg List.head? stays)⟩, by decide +kernel,
    by decide +kernel, (expires.news_alternate "1").1⟩

end Quorum
