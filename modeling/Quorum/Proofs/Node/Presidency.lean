import Quorum.Proofs.Election.Ballots
import Quorum.Proofs.Node.Tidings

/-!
# A lost quorum is noticed

A leader is to step down when it cannot reach a quorum any more.  It counts the connected peers when
its heartbeat is due, and whenever it is told that a peer has left.  The count goes down only within
the liveness protocol, in several ways, and it is the protocol that has to tell.  It does, whichever
way a peer has gone: what it tells mirrors what has happened to the registry.

So a leader without a quorum has been elected without one.  Since then no peer has left, and no
heartbeat has been due (`Core.History.loss_noticed`).
-/

namespace Quorum

open Act

/-! ## What the member does about it -/

/-- A leader among the peers of the registry has a quorum. -/
def Member.Presides (registry : Registry) (member : Member) : Prop :=
  member.isLeader = true → member.hasQuorum registry = true

namespace Member

variable {stage : Stage Member} {registry : Registry}

theorem stepDownWithoutQuorum_presides :
    stepDownWithoutQuorum.Ensures stage (fun _ after => after.own.Presides registry)
      fun _ _ => True := by
  refine (stepDownWithoutQuorum_shows stage).mono ?_ fun _ _ _ => trivial
  intro _ after shown leads
  have resigned : after.own.standing = .follower := congrArg Seat.standing shown.seat
  unfold isLeader role at leads
  rw [resigned] at leads
  cases leads

/-- With every heartbeat a leader makes sure that it has a quorum. -/
theorem onLeaderHeartbeat_presides :
    (onLeaderHeartbeat registry).Ensures stage (fun _ after => after.own.Presides registry)
      fun _ _ => True := by
  unfold onLeaderHeartbeat
  rw [ensures_bind, ensures_own]
  split
  · next idle => exact fun leads => absurd leads (by simpa using idle)
  split
  · next reached =>
    have voicing := (Shows.refl stage).mono (List.nil_subset [stage.own.assertion])
    refine (broadcast_shows registry (List.mem_singleton_self _) voicing).mono ?_
      fun _ _ => False.elim
    intro _ after shown leads
    have ledger_eq : after.own.ledger = stage.own.ledger := congrArg Seat.ledger shown.seat
    unfold hasQuorum at reached ⊢
    rwa [ledger_eq]
  · exact stepDownWithoutQuorum_presides

/-- So does a leader that learns that a peer has left. -/
theorem onPeerDisconnected_presides :
    (onPeerDisconnected registry).Ensures stage (fun _ after => after.own.Presides registry)
      fun _ _ => True := by
  unfold onPeerDisconnected
  rw [ensures_bind, ensures_own]
  split
  · exact stepDownWithoutQuorum_presides
  · next fine =>
    intro leads
    simpa [leads] using fine

end Member

namespace Registry

variable {registry after : Registry}

/-- As long as every peer stays, there are no fewer of them. -/
theorem connectedCount_le
    (stay : ∀ id, registry.isConnected id = true → after.isConnected id = true) :
    registry.connectedCount ≤ after.connectedCount := by
  have kept : registry.connected.keys ⊆ after.connected.keys := fun id listed =>
    Table.contains_iff_mem_keys.mp (stay id (Table.contains_iff_mem_keys.mpr listed))
  have counted (table : Table NodeId ConnId) : table.size = table.keys.length :=
    (List.length_map _).symm
  unfold connectedCount
  rw [counted, counted]
  exact List.Nodup.length_le_of_subset registry.connected.distinct kept

/-- A peer that has gone is told to have left. -/
theorem Mirrors.event_eq_of_lost
    {event : Option PeerEvent}
    {id : NodeId}
    (mirrors : registry.Mirrors event after)
    (was : registry.isConnected id = true)
    (gone : after.isConnected id = false) :
    event = some (.disconnected id) := by
  have tells := mirrors.tells id
  rw [was, gone] at tells
  cases tells with
  | left => rfl

end Registry

namespace Core

variable {before between after : Stage Core} {impulse : Impulse} {occasion : Occasion}

/-! ## What a node does about it -/

theorem Meets.registry_eq (meets : Meets before occasion after) :
    after.own.registry = before.own.registry := by
  obtain ⟨effect, elects⟩ := meets.elects
  exact congrArg Liveness.registry elects.liveness_eq

/-- What the handler of an occasion ensures of the member holds after the member has met it. -/
theorem Meets.ensures
    {holds : Member → Prop}
    (meets : Meets before occasion after)
    (ensures : (occasion.handler before.own.registry).Ensures ⟨before.own.member, before.outside⟩
      (fun _ met => holds met.own) fun _ _ => True) :
    holds after.own.member := by
  obtain @⟨answer, met, conn, performed⟩ := meets
  have held := ensures.of_perform performed
  cases answer <;> exact held

/-- The size of the cluster never changes. -/
theorem Meets.membershipSize_eq (meets : Meets before occasion after) :
    after.own.member.ledger.membershipSize = before.own.member.ledger.membershipSize := by
  obtain ⟨answer, said, turn⟩ := meets.turn
  exact turn.membershipSize_eq

theorem Bids.membershipSize_eq {occasion : Option Occasion} (bids : Bids before occasion after) :
    after.own.member.ledger.membershipSize = before.own.member.ledger.membershipSize := by
  cases bids with
  | idle => rfl
  | met meets => exact meets.membershipSize_eq

/-- The leader of a node has a quorum. -/
def Presides (core : Core) : Prop := core.member.Presides core.registry

theorem Meets.presides_of_heartbeat (meets : Meets before (.timer .leaderHeartbeat) after) :
    after.own.Presides := by
  unfold Presides
  rw [meets.registry_eq]
  exact meets.ensures
    ((ensures_bind _ _).mpr (Member.onLeaderHeartbeat_presides.mono (fun _ _ => id) fun _ _ => id))

theorem Meets.presides_of_disconnected (meets : Meets before .peerDisconnected after) :
    after.own.Presides := by
  unfold Presides
  rw [meets.registry_eq]
  exact meets.ensures
    ((ensures_bind _ _).mpr (Member.onPeerDisconnected_presides.mono (fun _ _ => id) fun _ _ => id))

/-- Some peer has left between two states of a node. -/
def Loses (before after : Core) : Prop :=
  ∃ id, before.registry.isConnected id = true ∧ after.registry.isConnected id = false

/-- One thing that a node does leaves the size of the cluster as it is, and a leader without a
quorum only if no heartbeat was due and no peer has left. -/
structure Heeds (before : Core) (impulse : Impulse) (after : Core) : Prop where
  membershipSize_eq : after.member.ledger.membershipSize = before.member.ledger.membershipSize
  beats : impulse = .timer .leaderHeartbeat → after.Presides
  loses : Loses before after → after.Presides

theorem Bids.registry_eq {occasion : Option Occasion} (bids : Bids before occasion after) :
    after.own.registry = before.own.registry := by
  cases bids with
  | idle => rfl
  | met meets => exact meets.registry_eq

theorem not_loses_of_eq (same : after.own.registry = before.own.registry) :
    ¬ Loses before.own after.own := by
  rintro ⟨id, was, is⟩
  rw [same, was] at is
  cases is

theorem Conducts.heeds
    (conducts : Conducts before impulse after)
    (coherent : before.own.registry.Coherent) :
    Heeds before.own impulse after.own := by
  cases conducts with
  | elected unheard bids =>
      refine ⟨bids.membershipSize_eq, fun beats => ?_, fun loses => ?_⟩
      · subst beats
        cases bids with
        | met meets => exact meets.presides_of_heartbeat
      · exact absurd loses (not_loses_of_eq bids.registry_eq)
  | @watched happening event effect between after heard watches bids =>
      have lasting := Impulse.ne_shutdown_of_happening? heard
      have mirrors := watches.moves.mirrors coherent lasting
      refine ⟨?_, fun beats => ?_, fun loses => ?_⟩
      · exact bids.membershipSize_eq.trans (by rw [watches.member_eq])
      · subst beats
        cases heard
      · obtain ⟨id, was, is⟩ := loses
        have gone : between.own.registry.isConnected id = false := by rwa [← bids.registry_eq]
        obtain rfl := mirrors.event_eq_of_lost was gone
        cases bids with
        | met meets => exact meets.presides_of_disconnected
  | @started effect between after begins meets watches =>
      have coherent' : between.own.registry.Coherent := by rwa [meets.registry_eq]
      have mirrors := watches.moves.mirrors coherent' nofun
      refine ⟨?_, fun beats => ?_, fun loses => ?_⟩
      · rw [watches.member_eq]
        exact meets.membershipSize_eq
      · subst beats
        cases begins
      · -- A node that starts hears of nobody.
        obtain ⟨id, was, is⟩ := loses
        have left := mirrors.event_eq_of_lost (by rwa [← meets.registry_eq] at was) is
        cases left

/-! ## Histories -/

/-- One thing that a node did: what made it act, and its core before and after. -/
structure Deed where
  impulse : Impulse
  before : Core
  after : Core

/-- What a core has done since it was made, the newest deed first.  Every handler answered.  With
any clock, any timers and any numbers to draw. -/
inductive History (config : NodeConfig) : List Deed → Core → Prop where
  | made
      {sinceMs : Nat} :
      History config [] (Core.ofConfig config sinceMs)
  | moved
      {deeds : List Deed} {core : Core} {impulse : Impulse} {outside : Outside}
      {after : Stage Core}
      (history : History config deeds core)
      (answered : impulse.handler.perform ⟨core, outside⟩ = (.ok (), after)) :
      History config (⟨impulse, core, after.own⟩ :: deeds) after.own

/-- What a leader has done since it leads. -/
def reign (deeds : List Deed) : List Deed := deeds.takeWhile fun deed => deed.before.member.isLeader

/-- What gives a leader no reason to count: no heartbeat was due, and every peer stays. -/
structure Deed.Quiet (deed : Deed) : Prop where
  beatless : deed.impulse ≠ .timer .leaderHeartbeat
  stays : ∀ id, deed.before.registry.isConnected id = true →
    deed.after.registry.isConnected id = true

namespace History

variable {config : NodeConfig} {deeds : List Deed} {core : Core}

theorem reached (history : History config deeds core) : Reached config core := by
  induction history with
  | made => exact .made
  | moved _ answered ih => exact ih.moved answered

theorem heeds (history : History config deeds core) :
    ∀ deed ∈ deeds, Heeds deed.before deed.impulse deed.after := by
  induction history with
  | made => exact List.forall_mem_nil _
  | moved history answered ih =>
      have conducts := (impulse_conducts _).of_perform answered
      exact List.forall_mem_cons.mpr ⟨conducts.heeds history.reached.mirrored.coherent, ih⟩

/-- A leader either has a quorum or has had no reason to count since it leads. -/
theorem presides_or_quiet (history : History config deeds core) :
    core.Presides ∨ ∀ deed ∈ reign deeds, deed.Quiet := by
  induction history with
  | made => exact .inr (List.forall_mem_nil _)
  | @moved deeds core impulse outside after history answered ih =>
      have heeds : Heeds core impulse after.own :=
        (history.moved answered).heeds _ (List.mem_cons_self ..)
      refine or_iff_not_imp_left.mpr fun forsaken => ?_
      have quiet : Deed.Quiet ⟨impulse, core, after.own⟩ := {
        beatless := fun beats => forsaken (heeds.beats beats)
        stays := fun id was => Bool.of_not_eq_false fun gone =>
          forsaken (heeds.loses ⟨id, was, gone⟩) }
      cases leads : core.member.isLeader with
      | false =>
          have begins : reign (⟨impulse, core, after.own⟩ :: deeds) = [] :=
            List.takeWhile_cons_of_neg (by simp [leads])
          rw [begins]
          exact List.forall_mem_nil _
      | true =>
          have goes_on : reign (⟨impulse, core, after.own⟩ :: deeds) =
              ⟨impulse, core, after.own⟩ :: reign deeds := List.takeWhile_cons_of_pos leads
          rw [goes_on]
          refine List.forall_mem_cons.mpr ⟨quiet, ih.resolve_left fun presides => ?_⟩
          -- It had a quorum before, and there are no fewer peers now.
          refine forsaken fun _ => ?_
          have reached := presides leads
          have peers := Registry.connectedCount_le quiet.stays
          have quorum_eq := Ledger.quorum_eq_of_membershipSize heeds.membershipSize_eq
          unfold Member.hasQuorum at reached ⊢
          rw [decide_eq_true_iff] at reached ⊢
          rw [quorum_eq]
          exact Nat.le_trans reached (Nat.succ_le_succ peers)

/-- The loss of a quorum is always noticed.  If a leader cannot reach a quorum, then no peer has
left and no heartbeat was due since it leads.  In particular whatever lowers the number of peers
leaves a node that does not lead or still has a quorum. -/
theorem loss_noticed (history : History config deeds core) :
    (core.member.isLeader = true →
      core.registry.connectedCount + 1 < core.member.ledger.quorum →
        ∀ deed ∈ reign deeds, deed.Quiet) ∧
    ∀ deed ∈ deeds,
      deed.after.registry.connectedCount < deed.before.registry.connectedCount →
        deed.after.member.isLeader = true →
          deed.after.member.ledger.quorum ≤ deed.after.registry.connectedCount + 1 := by
  refine ⟨fun leads short => ?_, fun deed listed fewer leads => ?_⟩
  · refine history.presides_or_quiet.resolve_left fun presides => ?_
    exact absurd (of_decide_eq_true (presides leads)) (Nat.not_le.mpr short)
  · have lost : Loses deed.before deed.after := by
      refine Classical.byContradiction fun nobody => absurd fewer (Nat.not_lt.mpr ?_)
      refine Registry.connectedCount_le fun id was => Bool.of_not_eq_false fun gone => ?_
      exact nobody ⟨id, was, gone⟩
    exact of_decide_eq_true ((history.heeds deed listed).loses lost leads)

end History

end Core

namespace Forsaken

/-! ### A leader that was elected by a peer which has left

Of five members two are connected to this one.  The first gives its vote and leaves.  With the vote
of the second the member leads, and reaches this one alone. -/

def config : NodeConfig :=
  { Lull.config with
    id := "3"
    peers := [⟨"1", "", 0⟩, ⟨"2", "", 0⟩, ⟨"4", "", 0⟩, ⟨"5", "", 0⟩] }

def fresh : Stage Core := { Lull.fresh with own := Core.ofConfig config 0 }

def calls (id : NodeId) (conn : ConnId) : Impulse :=
  .told (.reported (.received conn (.request (.heartbeat id))))

def votes (conn : ConnId) : Impulse := .told (.reported (.received conn (.response (.vote 1 true))))

/-- What makes the member act, the latest first. -/
def impulses : List Impulse :=
  [.told (.accepted ⟨3⟩), votes ⟨2⟩, .told (.reported (.closed ⟨1⟩)), votes ⟨1⟩,
    .timer .electionTimeout, calls "2" ⟨2⟩, calls "1" ⟨1⟩]

/-- What it does, the latest first, and the stage after all. -/
def course : List Impulse → List Core.Deed × Stage Core
  | [] => ([], fresh)
  | impulse :: earlier =>
      let (deeds, stage) := course earlier
      let after := Borrowed.moved stage impulse
      (⟨impulse, stage.own, after.own⟩ :: deeds, after)

def deeds : List Core.Deed := (course impulses).1

def leader : Stage Core := (course impulses).2

theorem history : Core.History config deeds leader.own := by
  have move {earlier : List Impulse} {impulse : Impulse}
      (history : Core.History config (course earlier).1 (course earlier).2.own)
      (answers : (impulse.handler.perform (course earlier).2).1 = .ok ()) :
      Core.History config (course (impulse :: earlier)).1 (course (impulse :: earlier)).2.own :=
    history.moved (Act.perform_eq answers)
  have made : Core.History config (course []).1 (course []).2.own := .made
  have first := move made (show ((calls "1" ⟨1⟩).handler.perform _).1 = _ by decide +kernel)
  have second := move first (show ((calls "2" ⟨2⟩).handler.perform _).1 = _ by decide +kernel)
  have campaigns := move second
    (show ((Impulse.timer .electionTimeout).handler.perform _).1 = _ by decide +kernel)
  have counted := move campaigns (show ((votes ⟨1⟩).handler.perform _).1 = _ by decide +kernel)
  have parted := move counted
    (show ((Impulse.told (.reported (.closed ⟨1⟩))).handler.perform _).1 = _ by decide +kernel)
  have elected := move parted (show ((votes ⟨2⟩).handler.perform _).1 = _ by decide +kernel)
  exact move elected
    (show ((Impulse.told (.accepted ⟨3⟩)).handler.perform _).1 = _ by decide +kernel)

end Forsaken

/-- Since it leads it has only taken a connection.  With its next heartbeat it steps down. -/
theorem Core.History.loss_noticed_forsaken :
    Core.History Forsaken.config Forsaken.deeds Forsaken.leader.own ∧
      Forsaken.leader.own.member.isLeader = true ∧
      Forsaken.leader.own.registry.connectedCount + 1 < Forsaken.leader.own.member.ledger.quorum ∧
      (Core.reign Forsaken.deeds).length = 1 ∧
      (∀ deed ∈ Core.reign Forsaken.deeds, deed.Quiet) ∧
      (Borrowed.moved Forsaken.leader (.timer .leaderHeartbeat)).own.member.isLeader = false := by
  have leads : Forsaken.leader.own.member.isLeader = true := by decide +kernel
  have short : Forsaken.leader.own.registry.connectedCount + 1 <
      Forsaken.leader.own.member.ledger.quorum := by decide +kernel
  exact ⟨Forsaken.history, leads, short, by decide +kernel,
    Forsaken.history.loss_noticed.1 leads short, by decide +kernel⟩

end Quorum
