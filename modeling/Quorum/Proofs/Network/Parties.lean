import Quorum.Proofs.Election.Assembly
import Quorum.Proofs.Node.Acting
import Quorum.Proofs.Peers.Dealings

/-!
# The parties of a network

A `Party` is what the network has to know of a node: the state of its liveness protocol, its timers,
and what it has asked for and has not got yet.  An `Origin` is what there is to know about a
connection id once it has been given out, even after the connection is gone: who dialled whom, and
at which of the two ends the id is.

`Party.Sound` says that the books of a party are right about the connections in them, and that a
connect is in flight just if it has still to be carried out or its answer waits in the mailbox.
Whatever makes a party act leaves it sound (`Party.Sound.elected`, `Party.Sound.watched`), as long
as it is backed by what has happened on the network (`Prompted`).
-/

namespace Quorum

open Liveness

/-- For which end of which connection an id was given out. -/
structure Origin where
  dialler : NodeId
  target : NodeId
  /-- Whether it is the end of the dialler. -/
  near : Bool
  deriving DecidableEq, Repr

namespace Origin

/-- The node at this end. -/
def owner (origin : Origin) : NodeId := if origin.near then origin.dialler else origin.target

/-- The node at the other end. -/
def other (origin : Origin) : NodeId := if origin.near then origin.target else origin.dialler

/-- The other end. -/
def far (origin : Origin) : Origin := { origin with near := !origin.near }

theorem far_ne (origin : Origin) : origin.far ≠ origin := by
  intro same
  have flipped : (!origin.near) = origin.near := congrArg near same
  cases near_eq : origin.near <;> rw [near_eq] at flipped <;> cases flipped

end Origin

/-- Where the ids that were given out come from. -/
abbrev Origins : Type := ConnId → Option Origin

/-- Of two members the one with the larger id dials the other. -/
structure Roster.Dials (roster : Roster) (dialler target : NodeId) : Prop where
  from_mem : dialler ∈ roster.ids
  to_mem : target ∈ roster.ids
  below : target < dialler

namespace Roster

variable {roster : Roster} {id peer : NodeId}

theorem Dials.asymm (dials : roster.Dials id peer) : ¬ roster.Dials peer id :=
  fun back => String.lt_asymm dials.below back.below

theorem mem_peers_iff (enrolled : id ∈ roster.ids) (peer : NodeId) :
    (∃ target ∈ (roster.configOf id).peers, target.id = peer) ↔ peer ∈ roster.ids ∧ peer ≠ id := by
  have shared := roster.shared id enrolled
  have apart := (List.nodup_cons.mp (shared.nodup_iff.mpr roster.distinct)).1
  rw [← List.mem_map, ← shared.mem_iff, List.mem_cons]
  constructor
  · intro listed
    refine ⟨.inr listed, ?_⟩
    rintro rfl
    exact apart listed
  · exact fun member => member.1.resolve_left member.2

theorem dialTargets_iff (enrolled : id ∈ roster.ids) :
    (∃ target ∈ (roster.configOf id).dialTargets, target.id = peer) ↔ roster.Dials id peer := by
  have named := roster.named id enrolled
  have listed := roster.mem_peers_iff enrolled
  unfold NodeConfig.dialTargets Peer.isDialledBy
  rw [named]
  constructor
  · rintro ⟨target, member, rfl⟩
    obtain ⟨member, below⟩ := List.mem_filter.mp member
    exact ⟨enrolled, ((listed _).mp ⟨target, member, rfl⟩).1, of_decide_eq_true below⟩
  · rintro ⟨_, enlisted, below⟩
    have other : peer ≠ id := by
      rintro rfl
      exact String.lt_irrefl _ below
    obtain ⟨target, member, rfl⟩ := (listed peer).mpr ⟨enlisted, other⟩
    exact ⟨target, List.mem_filter.mpr ⟨member, decide_eq_true below⟩, rfl⟩

/-- A node dials those whom it has to dial as a member. -/
theorem target?_iff
    {own : Liveness}
    (enrolled : id ∈ roster.ids)
    (configured : own.settings = (Liveness.ofConfig (roster.configOf id)).settings) :
    (own.target? peer).isSome ↔ roster.Dials id peer := by
  have targets : own.dialTargets = (roster.configOf id).dialTargets :=
    congrArg Settings.dialTargets configured
  unfold target?
  rw [List.find?_isSome, targets, ← roster.dialTargets_iff enrolled]
  simp only [decide_eq_true_eq]

end Roster

/-- The answer to a connect to a peer. -/
def NetworkEvent.answers (peer : NodeId) : NetworkEvent → Bool
  | connected _ id | connectFailed id => decide (id = peer)
  | received _ _ | closed _ => false

/-- What the network has to know of a node. -/
structure Party where
  own : Liveness
  timers : Scheduler TimerEvent
  /-- What it has asked for and has not got yet, oldest first. -/
  asks : List Ask

/-- A node as a party of the network. -/
def Stage.party (stage : Stage Core) : Party where
  own := stage.own.liveness
  timers := stage.outside.timers
  asks := stage.outside.asked.reverse.map Prod.snd

theorem Outside.Turns.asks_eq
    {before after : Outside}
    {effect : Effect}
    (turns : before.Turns effect after) :
    after.asked.reverse.map Prod.snd = before.asked.reverse.map Prod.snd ++ effect.asks := by
  rw [turns.asked_eq, List.reverse_append, List.reverse_reverse, List.map_append, List.map_map]
  simp [Function.comp_def]

/-- What the network has to answer for when something makes a node act. -/
def Origins.Backs (origins : Origins) (roster : Roster) (id : NodeId) : Happening → Prop
  | .connected conn peer => origins conn = some ⟨id, peer, true⟩
  | .request conn peer => origins conn = some ⟨peer, id, false⟩
  | .keepalive peer => roster.Dials id peer
  | .shutdown => False
  | _ => True

/-- Something has made a node act, and has been taken out of its mailbox for that if it was an event
of the network. -/
structure Prompted
    (roster : Roster)
    (origins : Origins)
    (id : NodeId)
    (heard : Option Happening)
    (taken : List NetworkEvent) : Prop where
  backed : ∀ happening ∈ heard, origins.Backs roster id happening
  counted : ∀ peer, taken.countP (NetworkEvent.answers peer) =
    if heard.any (Happening.answers peer) then 1 else 0
  opened : ∀ conn peer, .connected conn peer ∈ taken → heard = some (.connected conn peer)

namespace Party

/-- A party whose books are right.  `inbox` is what waits in its mailbox. -/
structure Sound
    (roster : Roster)
    (origins : Origins)
    (id : NodeId)
    (inbox : List NetworkEvent)
    (party : Party) : Prop where
  enrolled : id ∈ roster.ids
  configured : party.own.settings = (Liveness.ofConfig (roster.configOf id)).settings
  aligned : Aligned party.own.registry party.own.links
  /-- It waits for answers on connections that it has opened. -/
  waits : ∀ conn pending, party.own.dialing.get? conn = some pending →
    origins conn = some ⟨id, pending.id, true⟩
  /-- Its peers are at the other end of the connections that they are bound to. -/
  bound : ∀ peer conn, party.own.registry.get? peer = some conn →
    ∃ origin, origins conn = some origin ∧ origin.owner = id ∧ origin.other = peer
  /-- It keeps alive what it has opened. -/
  beats : ∀ task ∈ party.timers.held, ∀ peer, task.payload = .peerKeepAlive peer →
    roster.Dials id peer
  /-- It says who it is on connections that it has opened. -/
  names : ∀ conn name, .send conn (.request (.heartbeat name)) ∈ party.asks →
    name = id ∧ ∃ peer, origins conn = some ⟨id, peer, true⟩
  calls : ∀ peer, .connect peer ∈ party.asks → roster.Dials id peer.id
  /-- A connect in flight has still to be carried out, or to be taken notice of. -/
  flights : ∀ peer, inbox.countP (NetworkEvent.answers peer) +
    party.asks.countP (Ask.connectsTo peer) = party.own.flights peer

namespace Sound

variable
    {roster : Roster}
    {origins origins' : Origins}
    {id peer : NodeId}
    {inbox taken : List NetworkEvent}
    {party : Party}
    {before after : Stage Core}
    {happening : Happening}
    {event : Option PeerEvent}
    {effect : Effect}

theorem target?_iff (sound : party.Sound roster origins id inbox) :
    (party.own.target? peer).isSome ↔ roster.Dials id peer :=
  roster.target?_iff sound.enrolled sound.configured

/-- A node that has not started. -/
theorem fresh
    {sinceMs : Nat}
    (enrolled : id ∈ roster.ids)
    (own_eq : before.own = Core.ofConfig (roster.configOf id) sinceMs)
    (unasked : before.outside.asked = [])
    (unarmed : before.outside.timers.held = []) :
    before.party.Sound roster origins id [] := by
  have liveness_eq : before.party.own = Liveness.ofConfig (roster.configOf id) :=
    congrArg Core.liveness own_eq
  have asks_eq : before.party.asks = [] := by
    unfold Stage.party
    rw [unasked]
    rfl
  have timers_eq : before.party.timers.held = [] := unarmed
  exact {
    enrolled
    configured := by rw [liveness_eq]
    aligned := by
      rw [liveness_eq]
      exact aligned_ofConfig
    waits := by
      rw [liveness_eq]
      exact nofun
    bound := by
      rw [liveness_eq]
      exact nofun
    beats := by
      rw [timers_eq]
      exact List.forall_mem_nil _
    names := by
      rw [asks_eq]
      exact nofun
    calls := by
      rw [asks_eq]
      exact nofun
    flights := by
      rw [liveness_eq, asks_eq]
      exact fun _ => rfl }

/-- More ids may be given out. -/
theorem mono
    (sound : party.Sound roster origins id inbox)
    (grows : ∀ conn origin, origins conn = some origin → origins' conn = some origin) :
    party.Sound roster origins' id inbox where
  enrolled := sound.enrolled
  configured := sound.configured
  aligned := sound.aligned
  waits := fun conn pending waiting => grows _ _ (sound.waits conn pending waiting)
  bound := by
    intro peer conn bound
    obtain ⟨origin, born, ends⟩ := sound.bound peer conn bound
    exact ⟨origin, grows _ _ born, ends⟩
  beats := sound.beats
  names := by
    intro conn name asked
    obtain ⟨same, peer, born⟩ := sound.names conn name asked
    exact ⟨same, peer, grows _ _ born⟩
  calls := sound.calls
  flights := sound.flights

/-- Time passes, and timers may get lost. -/
theorem withTimers
    {timers : Scheduler TimerEvent}
    (sound : party.Sound roster origins id inbox)
    (kept : ∀ task ∈ timers.held, ∃ old ∈ party.timers.held, old.payload = task.payload) :
    ({ party with timers } : Party).Sound roster origins id inbox where
  enrolled := sound.enrolled
  configured := sound.configured
  aligned := sound.aligned
  waits := sound.waits
  bound := sound.bound
  beats := by
    intro task listed peer beat
    obtain ⟨old, held, same⟩ := kept task listed
    exact sound.beats old held peer (same.trans beat)
  names := sound.names
  calls := sound.calls
  flights := sound.flights

/-- The beats that are armed are for peers that the party dials. -/
theorem beats_of_works
    {timers : Scheduler TimerEvent}
    {clockMs : Nat}
    {released : List Handle}
    {armed : List (Deadline TimerEvent)}
    (sound : party.Sound roster origins id inbox)
    (works : party.timers.Works clockMs released armed timers)
    (known : ∀ deadline ∈ armed, ∀ peer, deadline.event = .peerKeepAlive peer →
      roster.Dials id peer)
    (task : Task TimerEvent)
    (listed : task ∈ timers.held)
    (peer : NodeId)
    (beat : task.payload = .peerKeepAlive peer) :
    roster.Dials id peer := by
  obtain ⟨appointments, rfl, held, _⟩ := works.held_perm
  rcases List.mem_append.mp (held.mem_iff.mp listed) with old | new
  · exact sound.beats task old peer beat
  · exact known task.deadline (List.mem_map_of_mem new) peer beat

/-- The election does not concern the books. -/
theorem elected
    (sound : before.party.Sound roster origins id inbox)
    (elects : Core.Elects before effect after) :
    after.party.Sound roster origins id inbox := by
  have own_eq : after.party.own = before.party.own := elects.liveness_eq
  have asks_eq : after.party.asks = before.party.asks ++ effect.asks := elects.turns.asks_eq
  have talks {ask : Ask} (asked : ask ∈ after.party.asks) (silent : ask.isTalk = false) :
      ask ∈ before.party.asks := by
    rw [asks_eq] at asked
    refine (List.mem_append.mp asked).resolve_right fun said => ?_
    rw [elects.minds.talks ask said] at silent
    cases silent
  exact {
    enrolled := sound.enrolled
    configured := own_eq ▸ sound.configured
    aligned := own_eq ▸ sound.aligned
    waits := own_eq ▸ sound.waits
    bound := own_eq ▸ sound.bound
    beats := by
      refine sound.beats_of_works elects.turns.works fun deadline armed peer beat => ?_
      have electoral := elects.minds.electoral deadline armed
      rw [beat] at electoral
      cases electoral
    names := fun conn name asked => sound.names conn name (talks asked rfl)
    calls := fun peer asked => sound.calls peer (talks asked rfl)
    flights := by
      intro peer
      have silent : effect.asks.countP (Ask.connectsTo peer) = 0 := by
        refine List.countP_eq_zero.mpr fun ask said => ?_
        have talk := elects.minds.talks ask said
        cases ask with
        | send _ _ => exact Bool.false_ne_true
        | connect _ | close _ => cases talk
      rw [own_eq, asks_eq, List.countP_append, silent]
      exact sound.flights peer }

/-- The books let the party expect whatever is backed. -/
theorem expects
    (sound : party.Sound roster origins id (taken ++ inbox))
    (ordered : ∀ conn origin, origins conn = some origin →
      roster.Dials origin.dialler origin.target)
    (settled : ∀ peer, roster.Dials id peer → ∃ contact, party.own.SoleContact peer contact)
    (prompted : Prompted roster origins id (some happening) taken)
    (running : happening ≠ .start) :
    party.own.Expects happening := by
  have flies {peer : NodeId} (answers : happening.answers peer = true) :
      peer ∈ party.own.inFlight := by
    have counted := prompted.counted peer
    have balance := sound.flights peer
    rw [Option.any_some, answers, if_pos rfl] at counted
    rw [List.countP_append, counted] at balance
    unfold Liveness.flights at balance
    split at balance
    · assumption
    · omega
  have backed := prompted.backed happening rfl
  cases happening with
  | connected conn peer =>
      have expected : peer ∈ party.own.inFlight := flies (decide_eq_true rfl)
      refine ⟨expected, ?_⟩
      cases waiting : party.own.dialing.get? conn with
      | none => rfl
      | some pending =>
          -- The peer would be in two states of contact at once.
          have born := sound.waits conn pending waiting
          rw [show origins conn = _ from backed] at born
          obtain ⟨contact, sole⟩ := settled peer (ordered conn _ backed)
          cases sole.eq .inFlight expected
          have awaited : pending.id = peer := by
            cases born
            rfl
          cases sole.eq (.handshaking conn) ⟨pending, waiting, awaited⟩
  | connectFailed peer => exact flies (decide_eq_true rfl)
  | request conn peer =>
      refine ⟨?_, ?_⟩
      · cases waiting : party.own.dialing.get? conn with
        | none => rfl
        | some pending =>
            have born := sound.waits conn pending waiting
            rw [show origins conn = _ from backed] at born
            cases born
      · rw [← Option.not_isSome_iff_eq_none, sound.target?_iff]
        exact (ordered conn _ backed).asymm
  | start => exact running rfl
  | shutdown => exact backed
  | accepted | response | closed | keepalive | peerTimeout | connectionTimeout | reconnect =>
      trivial

/-- A move of the liveness protocol leaves the books right. -/
theorem watched
    (sound : before.party.Sound roster origins id (taken ++ inbox))
    (ordered : ∀ conn origin, origins conn = some origin →
      roster.Dials origin.dialler origin.target)
    (prompted : Prompted roster origins id (some happening) taken)
    (watches : Core.Watches before happening event effect after) :
    after.party.Sound roster origins id inbox := by
  have moves : before.party.own.Moves before.party.timers happening event effect after.party.own :=
    watches.moves
  have asks_eq : after.party.asks = before.party.asks ++ effect.asks := watches.turns.asks_eq
  have backed := prompted.backed happening rfl
  exact {
    enrolled := sound.enrolled
    configured := moves.settings_eq.trans sound.configured
    aligned := moves.aligned sound.aligned fun shuts => by
      subst shuts
      exact backed.elim
    waits := by
      intro conn pending waiting
      rcases moves.opens waiting with held | rfl
      · exact sound.waits conn pending held
      · exact backed
    bound := by
      intro peer conn bound
      rcases moves.binds bound with held | rfl | ⟨pending, waiting, rfl⟩
      · exact sound.bound peer conn held
      · exact ⟨_, backed, rfl, rfl⟩
      · exact ⟨_, sound.waits conn pending waiting, rfl, rfl⟩
    beats := by
      refine sound.beats_of_works watches.turns.works fun deadline armed peer beat => ?_
      obtain ⟨conn, pending, waiting, rfl | rfl⟩ := moves.keeps_alive armed beat
      · exact ordered conn _ (sound.waits conn pending waiting)
      · have born := sound.waits conn pending waiting
        rw [show origins conn = _ from backed] at born
        cases born
    names := by
      intro conn name asked
      rw [asks_eq] at asked
      rcases List.mem_append.mp asked with old | new
      · exact sound.names conn name old
      · have local_eq : before.party.own.localId = id := by
          rw [show before.party.own.localId = (roster.configOf id).id from
            congrArg Settings.localId sound.configured, roster.named id sound.enrolled]
        obtain ⟨rfl, ⟨peer, rfl⟩ | ⟨peer, link, rfl, linked, rfl⟩⟩ := moves.names new
        · exact ⟨local_eq, peer, backed⟩
        · obtain ⟨⟨dialler, target, near⟩, born, owned, led⟩ :=
            sound.bound peer link.conn (sound.aligned.get?_of_link linked)
          refine ⟨local_eq, peer, ?_⟩
          cases near with
          | true =>
              obtain ⟨rfl, rfl⟩ : dialler = id ∧ target = peer := ⟨owned, led⟩
              exact born
          | false =>
              -- Otherwise each of the two would dial the other one.
              obtain ⟨rfl, rfl⟩ : target = id ∧ dialler = peer := ⟨owned, led⟩
              exact absurd (ordered _ _ born) (Roster.Dials.asymm backed)
    calls := by
      intro peer asked
      rw [asks_eq] at asked
      rcases List.mem_append.mp asked with old | new
      · exact sound.calls peer old
      · exact sound.target?_iff.mp (moves.target?_of_connect new)
    flights := by
      intro peer
      have counted := prompted.counted peer
      have balance := sound.flights peer
      rw [Option.any_some] at counted
      rw [List.countP_append, counted] at balance
      have landed (answers : happening.answers peer = true) : peer ∈ before.party.own.inFlight := by
        rw [answers, if_pos rfl] at balance
        unfold Liveness.flights at balance
        split at balance
        · assumption
        · omega
      have moved := moves.flights_eq landed
      rw [asks_eq, List.countP_append]
      omega }

end Sound

end Party

end Quorum
