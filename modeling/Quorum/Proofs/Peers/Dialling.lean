import Mathlib.Data.List.Perm.Subperm
import Quorum.Proofs.Peers.Dealings
import Quorum.Proofs.Peers.Watch

/-!
# One dial at a time

A peer is dialled by a connect, and by the handshake on the connection that comes of it.  The guards
against a second dial are spread over the protocol: a connect is not repeated while one is in
flight, an attempt is not armed twice, and an attempt that comes due looks at the registry and at
the handshakes.  They suffice, provided that the transport answers no more connects than it has been
asked for (`Campaign.dials_once`).

Most handlers do not dial.  They `Abstain`: whether they answer or fail half way, the connects stay
as they are and no handshake begins.
-/

namespace Quorum

open Act

/-! ## Connects and handshakes -/

/-- How many handshakes with a peer are under way. -/
def Liveness.handshakes (own : Liveness) (peer : NodeId) : Nat :=
  own.dialing.values.countP fun pending => pending.id = peer

/-- How many connects to a peer have been asked for. -/
def Stage.connects (stage : Stage Liveness) (peer : NodeId) : Nat :=
  stage.outside.asked.countP fun entry => entry.2.connectsTo peer

/-- How many connects to a peer have been answered. -/
def answersTo (peer : NodeId) (past : List Happening) : Nat :=
  past.countP fun happening => happening.answers peer

section Counting

variable
    {own next : Liveness}
    {conn : ConnId}
    {pending : PendingDial}
    {peer : NodeId}
    {happening : Happening}
    {past : List Happening}

theorem answersTo_cons :
    answersTo peer (happening :: past) =
      answersTo peer past + if happening.answers peer then 1 else 0 :=
  List.countP_cons

theorem Stage.connects_of_turns
    {after : Stage Liveness}
    {effect : Effect}
    (before : Stage Liveness)
    (peer : NodeId)
    (turns : before.outside.Turns effect after.outside) :
    after.connects peer = effect.asks.countP (Ask.connectsTo peer) + before.connects peer := by
  unfold connects
  rw [turns.asked_eq, List.countP_append, List.countP_reverse, List.countP_map]
  rfl

theorem Liveness.flights_le_one : own.flights peer ≤ 1 := by
  unfold flights
  split
  · exact Nat.le_refl 1
  · exact Nat.zero_le 1

theorem Liveness.flights_pos_iff : 0 < own.flights peer ↔ peer ∈ own.inFlight := by
  unfold flights
  split <;> simp [*]

theorem Liveness.handshakes_eq_zero (calm : own.isHandshaking peer = false) :
    own.handshakes peer = 0 := by
  apply List.countP_eq_zero.mpr
  intro pending listed
  have other := List.any_eq_false.mp calm pending listed
  simpa using other

theorem Liveness.handshakes_le
    (fewer : ∀ conn pending, next.dialing.get? conn = some pending →
      own.dialing.get? conn = some pending) :
    next.handshakes peer ≤ own.handshakes peer := by
  have listed : next.dialing.entries ⊆ own.dialing.entries := by
    rintro ⟨conn, pending⟩ entered
    exact Table.mem_entries_iff.mpr (fewer conn pending (Table.mem_entries_iff.mp entered))
  unfold handshakes Table.values
  rw [List.countP_map, List.countP_map]
  exact (List.subperm_of_subset next.dialing.nodup_entries listed).countP_le _

/-- A handshake that begins is one more, unless it takes the place of another one. -/
theorem Liveness.handshakes_insert_le :
    ({ own with dialing := own.dialing.insert conn pending } : Liveness).handshakes peer ≤
      own.handshakes peer + if pending.id = peer then 1 else 0 := by
  have fewer : ({ own with dialing := own.dialing.erase conn } : Liveness).handshakes peer ≤
      own.handshakes peer := by
    apply handshakes_le
    intro another held waiting
    rw [Table.get?_erase] at waiting
    split at waiting
    · cases waiting
    · exact waiting
  unfold handshakes Table.values at fewer ⊢
  rw [((own.dialing.entries_insert_perm conn pending).map Prod.snd).countP_eq, List.map_cons,
    List.countP_cons]
  simp only [decide_eq_true_eq]
  exact Nat.add_le_add_right fewer _

end Counting

/-! ## Handlers that do not dial -/

/-- Between two stages nobody has been dialled: no connect was asked for or answered, and no
handshake has begun. -/
structure Stage.Abstains (before after : Stage Liveness) : Prop where
  inFlight_eq : after.own.inFlight = before.own.inFlight
  connects_eq : ∀ peer, after.connects peer = before.connects peer
  fewer : ∀ conn pending, after.own.dialing.get? conn = some pending →
    before.own.dialing.get? conn = some pending

namespace Stage.Abstains

variable {before between after : Stage Liveness}

theorem refl (stage : Stage Liveness) : stage.Abstains stage :=
  ⟨rfl, fun _ => rfl, fun _ _ => id⟩

theorem trans (first : before.Abstains between) (second : between.Abstains after) :
    before.Abstains after where
  inFlight_eq := second.inFlight_eq.trans first.inFlight_eq
  connects_eq := fun peer => (second.connects_eq peer).trans (first.connects_eq peer)
  fewer := fun conn pending waiting => first.fewer conn pending (second.fewer conn pending waiting)

theorem flights_eq (abstains : before.Abstains after) (peer : NodeId) :
    after.own.flights peer = before.own.flights peer := by
  rw [Liveness.flights, Liveness.flights, abstains.inFlight_eq]

theorem handshakes_le (abstains : before.Abstains after) (peer : NodeId) :
    after.own.handshakes peer ≤ before.own.handshakes peer :=
  Liveness.handshakes_le abstains.fewer

end Stage.Abstains

/-- The handler dials nobody, whether it answers or fails. -/
def Act.Abstains {α : Type} (act : Act Liveness α) : Prop :=
  ∀ stage : Stage Liveness,
    act.Ensures stage (fun _ after => stage.Abstains after) fun _ after => stage.Abstains after

namespace Act.Abstains

variable {α β : Type}

protected theorem pure (value : α) : Abstains (Pure.pure value) :=
  fun stage => .refl stage

protected theorem bind
    {act : Act Liveness α}
    {next : α → Act Liveness β}
    (first : Abstains act)
    (second : ∀ value, Abstains (next value)) :
    Abstains (act >>= next) := by
  intro stage
  rw [ensures_bind]
  refine (first stage).mono (fun value between abstained => ?_) fun _ _ => id
  exact (second value between).mono (fun _ _ => abstained.trans) fun _ _ => abstained.trans

theorem own_bind
    {next : Liveness → Act Liveness α}
    (continues : ∀ own, Abstains (next own)) :
    Abstains (Act.own >>= next) :=
  .bind (fun stage => .refl stage) continues

/-- Changing the own state, but neither the connects in flight nor the handshakes. -/
theorem modifyOwn
    {change : Liveness → Liveness}
    (inFlight_eq : ∀ own, (change own).inFlight = own.inFlight)
    (dialing_eq : ∀ own, (change own).dialing = own.dialing) :
    Abstains (Act.modifyOwn change) := by
  intro stage
  refine ⟨inFlight_eq stage.own, fun _ => rfl, fun conn pending waiting => ?_⟩
  rw [← dialing_eq stage.own]
  exact waiting

theorem ask {wish : Ask} (elsewhere : ∀ peer, wish.connectsTo peer = false) :
    Abstains (Act.ask wish) := by
  intro stage
  refine ⟨rfl, fun peer => ?_, fun _ _ => id⟩
  exact List.countP_cons_of_neg (by simp [elsewhere peer])

theorem cancel (handle : Handle) : Abstains (Act.cancel handle) :=
  fun _ => ⟨rfl, fun _ => rfl, fun _ _ => id⟩

theorem isCancelled (handle : Handle) : Abstains (Act.isCancelled handle) :=
  fun stage => .refl stage

theorem arm (delay : Delay) (event : TimerEvent) (repeats : Bool) :
    Abstains (Act.arm delay event repeats) := by
  intro stage
  rw [ensures_arm]
  split
  · exact ⟨rfl, fun _ => rfl, fun _ _ => id⟩
  · exact .refl stage

end Act.Abstains

namespace Liveness

open Abstains

/-! ### The helpers -/

theorem cancelIfAny_abstains (handle : Option Handle) :
    (cancelIfAny handle : Act Liveness Unit).Abstains := by
  cases handle with
  | none => exact .pure ()
  | some held => exact cancel held

theorem modifyRegistry_abstains (change : Registry → Registry) :
    (modifyRegistry change).Abstains :=
  modifyOwn (fun _ => rfl) fun _ => rfl

theorem send_abstains (conn : ConnId) (message : Message) : Act.Abstains (send conn message) :=
  ask fun _ => rfl

theorem close_abstains (conn : ConnId) : Act.Abstains (close conn) :=
  ask fun _ => rfl

theorem cancelLink_abstains (link : PeerLink) : (cancelLink link).Abstains :=
  .bind (cancelIfAny_abstains _) fun _ => cancelIfAny_abstains _

theorem dropLink_abstains (id : NodeId) : (dropLink id).Abstains := by
  refine own_bind fun own => ?_
  split
  · exact .pure ()
  · exact .bind (modifyOwn (fun _ => rfl) fun _ => rfl) fun _ => cancelLink_abstains _

theorem dropAnonymous_abstains (conn : ConnId) : (dropAnonymous conn).Abstains := by
  refine own_bind fun own => ?_
  split
  · exact .pure ()
  · exact .bind (modifyOwn (fun _ => rfl) fun _ => rfl) fun _ => cancel _

theorem dropReconnect_abstains (id : NodeId) : (dropReconnect id).Abstains := by
  refine own_bind fun own => ?_
  split
  · exact .pure ()
  · exact .bind (modifyOwn (fun _ => rfl) fun _ => rfl) fun _ => cancel _

/-- A handshake that ends leaves the others. -/
theorem takeDial_abstains (conn : ConnId) : (takeDial conn).Abstains := by
  have taken : Act.Abstains
      (Act.modifyOwn fun own : Liveness => { own with dialing := own.dialing.erase conn }) := by
    intro stage
    refine ⟨rfl, fun _ => rfl, fun another pending waiting => ?_⟩
    change (stage.own.dialing.erase conn).get? another = some pending at waiting
    rw [Table.get?_erase] at waiting
    split at waiting
    · cases waiting
    · exact waiting
  refine own_bind fun own => ?_
  split
  · exact .pure none
  · exact .bind taken fun _ => .pure _

theorem endDial_abstains (conn : ConnId) : (endDial conn).Abstains :=
  .bind (takeDial_abstains conn) fun _ => .bind (cancelIfAny_abstains _) fun _ => .pure _

theorem scheduleReconnect_abstains (id : NodeId) : (scheduleReconnect id).Abstains := by
  refine own_bind fun own => ?_
  split
  · exact .bind (arm _ _ _) fun _ => modifyOwn (fun _ => rfl) fun _ => rfl
  · exact .pure ()

theorem refreshTimeout_abstains (id : NodeId) (conn : ConnId) :
    (refreshTimeout id conn).Abstains := by
  refine own_bind fun own => ?_
  split
  · exact .pure ()
  split
  · refine .bind (modifyOwn (fun _ => rfl) fun _ => rfl) fun _ => ?_
    refine .bind (cancelIfAny_abstains _) fun _ => own_bind fun _ => ?_
    exact .bind (arm _ _ _) fun _ => modifyOwn (fun _ => rfl) fun _ => rfl
  · exact .pure ()

theorem armKeepalive_abstains (id : NodeId) (dialled : Bool) :
    (armKeepalive id dialled).Abstains := by
  unfold armKeepalive
  split
  · exact own_bind fun _ => .bind (arm _ _ _) fun _ => .pure _
  · exact .pure none

theorem bindPeer_abstains (conn : ConnId) (id : NodeId) : (bindPeer conn id).Abstains := by
  refine own_bind fun own => .bind (modifyRegistry_abstains _) fun _ => ?_
  split
  · exact .pure _
  · exact .pure none
  · exact .bind (close_abstains _) fun _ => .pure none

theorem identify_abstains (conn : ConnId) (id : NodeId) (dialled : Bool) :
    (identify conn id dialled).Abstains := by
  refine .bind (endDial_abstains conn) fun pending => ?_
  refine .bind (bindPeer_abstains conn id) fun event => ?_
  refine .bind (dropLink_abstains id) fun _ => ?_
  refine .bind (armKeepalive_abstains id _) fun keepalive => ?_
  refine .bind (modifyOwn (fun _ => rfl) fun _ => rfl) fun _ => ?_
  exact .bind (dropReconnect_abstains id) fun _ => .pure event

theorem isTimed_abstains (link : PeerLink) : (isTimed link).Abstains := by
  unfold isTimed
  split
  · exact .pure false
  · exact .bind (isCancelled _) fun _ => .pure _

/-! ### The handlers -/

theorem onAccepted_abstains (conn : ConnId) : (onAccepted conn).Abstains := by
  refine own_bind fun own => ?_
  split
  · exact .pure ()
  · refine .bind (modifyRegistry_abstains _) fun _ => own_bind fun _ => ?_
    refine .bind (arm _ _ _) fun timeout => own_bind fun _ => ?_
    exact .bind (modifyOwn (fun _ => rfl) fun _ => rfl) fun _ => cancelIfAny_abstains _

theorem onConnectionClosed_abstains (conn : ConnId) : (onConnectionClosed conn).Abstains := by
  refine .bind (endDial_abstains conn) fun ended => ?_
  split
  · exact .bind (scheduleReconnect_abstains _) fun _ => .pure none
  · refine .bind (dropAnonymous_abstains conn) fun _ => own_bind fun own => ?_
    refine .bind (modifyRegistry_abstains _) fun _ => ?_
    split
    · exact .pure none
    · exact .bind (dropLink_abstains _) fun _ =>
        .bind (scheduleReconnect_abstains _) fun _ => .pure _

theorem onHeartbeatRequest_abstains (conn : ConnId) (id : NodeId) :
    (onHeartbeatRequest conn id).Abstains := by
  refine own_bind fun own => ?_
  split
  · split
    · exact .bind (refreshTimeout_abstains id conn) fun _ =>
        .bind (send_abstains _ _) fun _ => .pure none
    · exact .bind (close_abstains _) fun _ => onConnectionClosed_abstains conn
  · refine .bind (dropAnonymous_abstains conn) fun _ => own_bind fun _ => ?_
    split
    · refine .bind (identify_abstains conn id false) fun event => ?_
      refine .bind (refreshTimeout_abstains id conn) fun _ => ?_
      exact .bind (send_abstains _ _) fun _ => .pure event
    · exact .bind (modifyRegistry_abstains _) fun _ =>
        .bind (close_abstains _) fun _ => .pure none

theorem onHeartbeatResponse_abstains (conn : ConnId) : (onHeartbeatResponse conn).Abstains := by
  refine .bind (endDial_abstains conn) fun ended => ?_
  split
  · next pending =>
    exact .bind (identify_abstains conn pending.id true) fun event =>
      .bind (refreshTimeout_abstains pending.id conn) fun _ => .pure event
  · refine own_bind fun own => ?_
    split
    · exact .bind (refreshTimeout_abstains _ conn) fun _ => .pure none
    · exact .pure none

theorem onKeepalive_abstains (id : NodeId) : (onKeepalive id).Abstains := by
  refine own_bind fun own => ?_
  split
  · exact .pure ()
  · refine .bind (isTimed_abstains _) fun timed => .bind (send_abstains _ _) fun _ => ?_
    split
    · exact refreshTimeout_abstains id _
    · exact .pure ()

theorem onPeerTimeout_abstains (id : NodeId) (conn : ConnId) :
    (onPeerTimeout id conn).Abstains := by
  refine own_bind fun own => ?_
  split
  · refine .bind (modifyRegistry_abstains _) fun _ => ?_
    refine .bind (dropLink_abstains id) fun _ => .bind (close_abstains _) fun _ => ?_
    exact .bind (scheduleReconnect_abstains id) fun _ => .pure _
  · exact .pure none

theorem onConnectionTimeout_abstains (conn : ConnId) : (onConnectionTimeout conn).Abstains := by
  refine .bind (takeDial_abstains conn) fun taken => ?_
  split
  · exact .bind (close_abstains _) fun _ => scheduleReconnect_abstains _
  · refine .bind (modifyOwn (fun _ => rfl) fun _ => rfl) fun _ => own_bind fun own => ?_
    split
    · exact .bind (modifyRegistry_abstains _) fun _ => close_abstains _
    · exact .pure ()

theorem Dials.countP_asks
    {own next : Liveness}
    {id peer : NodeId}
    {effect : Effect}
    (dials : own.Dials id effect next)
    (other : peer ≠ id) :
    effect.asks.countP (Ask.connectsTo peer) = 0 := by
  cases dials with
  | @dialled target known _ =>
      have called : target.id = id := by simpa using List.find?_some known
      simp [Ask.connectsTo, called, other.symm]
  | spared _ => rfl

theorem dial_succeeds (id : NodeId) : (dial id).Succeeds := by
  refine .own_bind fun own => ?_
  split
  · exact .pure ()
  split
  · exact .bind (.modifyOwn _) fun _ => .ask _
  · exact .pure ()

theorem shutdown_abstains : shutdown.Abstains := by
  rintro ⟨own, outside⟩
  have moving : shutdown.Yields own outside fun _ => own.Moves outside.timers .shutdown none :=
    shutdown_moves
  refine moving.ensures shutdown_succeeds fun _ effect next outside' turns moves => ?_
  cases moves with
  | shut =>
      refine ⟨rfl, fun peer => ?_, fun _ _ => nofun⟩
      rw [Stage.connects_of_turns ⟨own, outside⟩ peer turns]
      simp [List.countP_append, List.countP_map, Function.comp_def, Ask.connectsTo]

end Liveness

/-! ## One connect or one handshake -/

/-- The connects in flight are those that have been asked for and not been answered, no peer has
more than one connect or handshake, and a handshake is on a connection that was reported to be
open. -/
structure Stage.Single (past : List Happening) (stage : Stage Liveness) : Prop where
  balanced : ∀ peer, stage.connects peer = answersTo peer past + stage.own.flights peer
  single : ∀ peer, stage.own.flights peer + stage.own.handshakes peer ≤ 1
  opened : ∀ conn pending, stage.own.dialing.get? conn = some pending →
    .connected conn pending.id ∈ past

namespace Stage.Single

variable
    {past : List Happening}
    {happening : Happening}
    {stage after : Stage Liveness}
    {conn : ConnId}
    {id : NodeId}

theorem abstained (single : stage.Single past) (abstains : stage.Abstains after) :
    after.Single past where
  balanced := by
    intro peer
    rw [abstains.connects_eq, abstains.flights_eq]
    exact single.balanced peer
  single := by
    intro peer
    rw [abstains.flights_eq]
    have fewer := abstains.handshakes_le peer
    have alone := single.single peer
    omega
  opened := fun conn pending waiting =>
    single.opened conn pending (abstains.fewer conn pending waiting)

/-- Nothing changes with a happening that answers no connect. -/
theorem passed
    (single : stage.Single past)
    (silent : ∀ peer, happening.answers peer = false) :
    stage.Single (happening :: past) where
  balanced := by
    intro peer
    rw [answersTo_cons, silent peer]
    exact single.balanced peer
  single := single.single
  opened := fun conn pending waiting =>
    List.mem_cons_of_mem _ (single.opened conn pending waiting)

/-- A handler that does not dial, called by a happening that answers no connect. -/
theorem kept
    {α : Type}
    {act : Act Liveness α}
    (single : stage.Single past)
    (silent : ∀ peer, happening.answers peer = false)
    (abstains : act.Abstains) :
    act.Ensures stage
      (fun _ after => after.Single (happening :: past))
      fun _ after => after.Single (happening :: past) :=
  (abstains stage).mono
    (fun _ _ => (single.passed silent).abstained)
    fun _ _ => (single.passed silent).abstained

/-- A peer without a handshake may be dialled. -/
theorem dial
    (single : stage.Single past)
    (calm : stage.own.handshakes id = 0) :
    (Liveness.dial id).Ensures stage
      (fun _ after => after.Single past ∧ after.own.dialing = stage.own.dialing)
      fun _ _ => False := by
  obtain ⟨own, outside⟩ := stage
  refine (Liveness.dial_dials id).ensures (Liveness.dial_succeeds id) ?_
  intro _ effect next outside' turns dials
  have flying (peer : NodeId) :
      effect.asks.countP (Ask.connectsTo peer) + own.flights peer = next.flights peer :=
    dials.flights_eq
  obtain ⟨inFlight, rfl⟩ := dials.next_eq
  refine ⟨{ balanced := fun peer => ?_, single := fun peer => ?_, opened := single.opened }, rfl⟩
  · rw [Stage.connects_of_turns ⟨own, outside⟩ peer turns, single.balanced peer, ← flying peer]
    exact Nat.add_left_comm _ _ _
  · change Liveness.flights _ peer + own.handshakes peer ≤ 1
    by_cases same : peer = id
    · rw [same, show own.handshakes id = 0 from calm]
      exact Liveness.flights_le_one
    · rw [← flying peer, dials.countP_asks same, Nat.zero_add]
      exact single.single peer

/-- An answer to a connect that is in flight takes it away. -/
theorem landed
    (single : stage.Single past)
    (answers : ∀ peer, happening.answers peer = decide (id = peer))
    (flying : 0 < stage.own.flights id) :
    (Liveness.landed id).Ensures stage
      (fun _ after => after.Single (happening :: past) ∧
        after.own.flights id = 0 ∧ after.own.handshakes id = 0)
      fun _ _ => False := by
  unfold Liveness.landed
  rw [ensures_modifyOwn]
  have alone := single.single id
  have calm : stage.own.handshakes id = 0 := by omega
  refine ⟨{ balanced := fun peer => ?_, single := fun peer => ?_, opened := ?_ }, ?_, calm⟩
  · have before := single.balanced peer
    rw [answersTo_cons, answers peer, Liveness.flights_landed]
    change stage.connects peer = _
    by_cases same : peer = id
    · subst same
      have few : stage.own.flights peer ≤ 1 := Liveness.flights_le_one
      rw [if_pos (decide_eq_true rfl), if_pos rfl]
      omega
    · rw [if_neg (by simp [Ne.symm same]), if_neg same]
      exact before
  · have alone := single.single peer
    rw [Liveness.flights_landed]
    change _ + stage.own.handshakes peer ≤ 1
    split
    · omega
    · exact alone
  · exact fun conn pending waiting => List.mem_cons_of_mem _ (single.opened conn pending waiting)
  · rw [Liveness.flights_landed, if_pos rfl]

/-- A peer whose connect has been answered may begin a handshake. -/
theorem handshaking
    {handle : Handle}
    (single : stage.Single past)
    (grounded : stage.own.flights id = 0)
    (calm : stage.own.handshakes id = 0)
    (reported : .connected conn id ∈ past) :
    Stage.Single past
      { stage with own.dialing := stage.own.dialing.insert conn ⟨id, handle⟩ } where
  balanced := single.balanced
  single := by
    intro peer
    have more : Liveness.handshakes
        { stage.own with dialing := stage.own.dialing.insert conn ⟨id, handle⟩ } peer ≤
          stage.own.handshakes peer + if id = peer then 1 else 0 :=
      Liveness.handshakes_insert_le
    have alone := single.single peer
    change stage.own.flights peer + Liveness.handshakes
      { stage.own with dialing := stage.own.dialing.insert conn ⟨id, handle⟩ } peer ≤ 1
    split at more
    · next same =>
      subst same
      omega
    · omega
  opened := by
    intro another pending waiting
    change (stage.own.dialing.insert conn ⟨id, handle⟩).get? another = some pending at waiting
    rw [Table.get?_insert] at waiting
    split at waiting
    · next same =>
      cases waiting
      exact same ▸ reported
    · exact single.opened another pending waiting

/-! ### The handlers that dial -/

theorem started
    (single : stage.Single past)
    (early : ∀ conn id, .connected conn id ∉ past) :
    Liveness.start.Ensures stage (fun _ after => after.Single past) fun _ _ => False := by
  have calm (peer : NodeId) : stage.own.handshakes peer = 0 := by
    apply List.countP_eq_zero.mpr
    intro pending listed
    obtain ⟨conn, waiting⟩ := Table.mem_values_iff.mp listed
    exact absurd (single.opened conn pending waiting) (early conn pending.id)
  unfold Liveness.start
  rw [ensures_bind, ensures_own]
  generalize stage.own.dialTargets = targets
  induction targets generalizing stage with
  | nil => exact single
  | cons peer rest ih =>
      change (Liveness.dial peer.id >>= fun _ =>
        rest.forM fun peer => Liveness.dial peer.id).Ensures stage _ _
      rw [ensures_bind]
      refine (single.dial (calm peer.id)).mono ?_ fun _ _ => id
      rintro _ after ⟨single, same⟩
      refine ih single fun other => ?_
      rw [Liveness.handshakes, same]
      exact calm other

theorem redialled (single : stage.Single past) (id : NodeId) :
    (Liveness.onReconnect id).Ensures stage
      (fun _ after => after.Single past)
      fun _ after => after.Single past := by
  unfold Liveness.onReconnect
  rw [ensures_bind, ensures_modifyOwn, ensures_bind, ensures_own]
  have disarmed : Stage.Single past
      { stage with own.reconnecting := stage.own.reconnecting.erase id } :=
    { single with }
  split
  · next wanted =>
    simp only [Bool.and_eq_true, Bool.not_eq_true'] at wanted
    refine (disarmed.dial (Liveness.handshakes_eq_zero wanted.2)).mono ?_ nofun
    exact fun _ after dialled => dialled.1
  · exact disarmed

theorem failed
    (single : stage.Single past)
    (flying : 0 < stage.own.flights id) :
    (Liveness.onConnectFailed id).Ensures stage
      (fun _ after => after.Single (.connectFailed id :: past))
      fun _ after => after.Single (.connectFailed id :: past) := by
  unfold Liveness.onConnectFailed
  rw [ensures_bind]
  have answers (peer : NodeId) :
      (Happening.connectFailed id).answers peer = decide (id = peer) := rfl
  refine (single.landed answers flying).mono ?_ nofun
  rintro _ between ⟨single, _⟩
  exact (Liveness.scheduleReconnect_abstains id between).mono
    (fun _ _ => single.abstained) fun _ _ => single.abstained

theorem connected
    (single : stage.Single past)
    (flying : 0 < stage.own.flights id) :
    (Liveness.onOutboundConnected conn id).Ensures stage
      (fun _ after => after.Single (.connected conn id :: past))
      fun _ after => after.Single (.connected conn id :: past) := by
  unfold Liveness.onOutboundConnected
  rw [ensures_bind]
  have answers (peer : NodeId) :
      (Happening.connected conn id).answers peer = decide (id = peer) := rfl
  refine (single.landed answers flying).mono ?_ nofun
  rintro _ between ⟨single, grounded, calm⟩
  rw [ensures_bind, ensures_own, ensures_bind]
  refine (Abstains.arm _ _ _ between).mono ?_ fun _ _ => single.abstained
  intro handle armed abstained
  rw [ensures_bind, ensures_modifyOwn]
  have opened : Stage.Single (.connected conn id :: past)
      { armed with own.dialing := armed.own.dialing.insert conn ⟨id, handle⟩ } :=
    (single.abstained abstained).handshaking
      ((abstained.flights_eq id).trans grounded)
      (Nat.le_zero.mp (calm ▸ abstained.handshakes_le id))
      List.mem_cons_self
  exact (Liveness.send_abstains _ _ _).mono
    (fun _ _ => opened.abstained) fun _ _ => opened.abstained

/-- Whatever happens, whether the handler answers or fails. -/
theorem handled
    (single : stage.Single past)
    (answerable : ∀ peer, happening.answers peer = true →
      answersTo peer past < stage.connects peer)
    (early : happening = .start → ∀ conn id, .connected conn id ∉ past) :
    happening.handler.Ensures stage
      (fun _ after => after.Single (happening :: past))
      fun _ after => after.Single (happening :: past) := by
  -- A connect that can be answered is in flight.
  have flying (peer : NodeId) (answers : happening.answers peer = true) :
      0 < stage.own.flights peer := by
    have before := single.balanced peer
    have fewer := answerable peer answers
    omega
  have quietly {act : Act Liveness Unit} (abstains : act.Abstains) :
      Act.Abstains (act >>= fun _ => pure (none : Option PeerEvent)) :=
    .bind abstains fun _ => .pure none
  cases happening with
  | start =>
      refine (ensures_bind _ _).mpr ((single.started (early rfl)).mono ?_ nofun)
      exact fun _ _ single => single.passed fun _ => rfl
  | connected conn id =>
      exact (ensures_bind _ _).mpr (single.connected (flying id (decide_eq_true rfl)))
  | connectFailed id =>
      exact (ensures_bind _ _).mpr (single.failed (flying id (decide_eq_true rfl)))
  | reconnect id =>
      refine (ensures_bind _ _).mpr ((single.redialled id).mono ?_ ?_)
      · exact fun _ _ single => single.passed fun _ => rfl
      · exact fun _ _ single => single.passed fun _ => rfl
  | accepted conn =>
      exact single.kept (fun _ => rfl) (quietly (Liveness.onAccepted_abstains conn))
  | request conn id =>
      exact single.kept (fun _ => rfl) (Liveness.onHeartbeatRequest_abstains conn id)
  | response conn => exact single.kept (fun _ => rfl) (Liveness.onHeartbeatResponse_abstains conn)
  | closed conn => exact single.kept (fun _ => rfl) (Liveness.onConnectionClosed_abstains conn)
  | keepalive id => exact single.kept (fun _ => rfl) (quietly (Liveness.onKeepalive_abstains id))
  | peerTimeout id conn =>
      exact single.kept (fun _ => rfl) (Liveness.onPeerTimeout_abstains id conn)
  | connectionTimeout conn =>
      exact single.kept (fun _ => rfl) (quietly (Liveness.onConnectionTimeout_abstains conn))
  | shutdown => exact single.kept (fun _ => rfl) (quietly Liveness.shutdown_abstains)

end Stage.Single

/-! ## Runs -/

/-- A run of the protocol, with its past, the newest happening first.  Whatever timers it is left
with, whatever is told to it and whether a handler answers or fails half way, the run goes on.  The
transport answers no more connects than it was asked for, and the start comes before any connection
has been opened. -/
inductive Campaign (config : NodeConfig) : List Happening → Stage Liveness → Prop where
  | begun
      {stage : Stage Liveness}
      (own_eq : stage.own = Liveness.ofConfig config)
      (unasked : stage.outside.asked = []) :
      Campaign config [] stage
  | handled
      {past : List Happening} {stage after : Stage Liveness} {happening : Happening}
      {timers : Scheduler TimerEvent} {clockMs : Nat} {answer : Except Failure (Option PeerEvent)}
      (campaign : Campaign config past stage)
      (answerable : ∀ peer, happening.answers peer = true →
        answersTo peer past < stage.connects peer)
      (early : happening = .start → ∀ conn id, .connected conn id ∉ past)
      (performed : happening.handler.perform
        { stage with outside.timers := timers, outside.clockMs := clockMs } = (answer, after)) :
      Campaign config (happening :: past) after

section Runs

variable {config : NodeConfig} {past : List Happening} {stage : Stage Liveness}

theorem Campaign.single (campaign : Campaign config past stage) : stage.Single past := by
  induction campaign with
  | begun own_eq unasked =>
      refine ⟨fun peer => ?_, fun peer => ?_, ?_⟩
      · rw [Stage.connects, unasked, own_eq]
        rfl
      · rw [own_eq]
        exact Nat.zero_le 1
      · rw [own_eq]
        exact nofun
  | @handled past stage after happening timers clockMs answer _ answerable early performed ih =>
      have moved : Stage.Single past
          { stage with outside.timers := timers, outside.clockMs := clockMs } :=
        { ih with }
      have ensured := (moved.handled answerable early).of_perform performed
      cases answer <;> exact ensured

/-- No peer is dialled twice at a time: there is at most one connect to it without an answer or one
handshake with it, and the peers in flight are those with a connect that was not answered. -/
theorem Campaign.dials_once (campaign : Campaign config past stage) (peer : NodeId) :
    answersTo peer past ≤ stage.connects peer ∧
      stage.connects peer - answersTo peer past + stage.own.handshakes peer ≤ 1 ∧
      (peer ∈ stage.own.inFlight ↔ answersTo peer past < stage.connects peer) := by
  have balanced := campaign.single.balanced peer
  have single := campaign.single.single peer
  refine ⟨by omega, by omega, ?_⟩
  rw [← Liveness.flights_pos_iff]
  omega

/-- The next happening, at the same time. -/
theorem Campaign.call
    (campaign : Campaign config past stage)
    (happening : Happening)
    (answerable : ∀ peer, happening.answers peer = true →
      answersTo peer past < stage.connects peer)
    (early : happening = .start → ∀ conn id, .connected conn id ∉ past) :
    Campaign config (happening :: past) (stage.after happening) := by
  have performed : happening.handler.perform
      { stage with
        outside.timers := stage.outside.timers, outside.clockMs := stage.outside.clockMs } =
      ((happening.handler.perform stage).1, stage.after happening) := rfl
  exact campaign.handled answerable early performed

end Runs

namespace Trio

/-! ### A node that dials two peers

One connection is open and waits for an answer, the other peer is dialled for the second time. -/

def redialling : Stage Liveness := opened.after (.reconnect "2")

def dials : List Happening :=
  [.reconnect "2", .connected ⟨1⟩ "1", .connectFailed "2", .start]

theorem campaign : Campaign config dials redialling := by
  have begun : Campaign config [] fresh := .begun rfl rfl
  have started : Campaign config [.start] started := begun.call .start nofun nofun
  have failed : Campaign config [.connectFailed "2", .start] failed := by
    refine started.call (.connectFailed "2") (fun peer answers => ?_) nofun
    obtain rfl : "2" = peer := of_decide_eq_true answers
    decide +kernel
  have opened : Campaign config [.connected ⟨1⟩ "1", .connectFailed "2", .start] opened := by
    refine failed.call (.connected ⟨1⟩ "1") (fun peer answers => ?_) nofun
    obtain rfl : "1" = peer := of_decide_eq_true answers
    decide +kernel
  exact opened.call (.reconnect "2") nofun nofun

end Trio

theorem Campaign.dials_once_trio :
    Campaign Trio.config Trio.dials Trio.redialling ∧
      Trio.redialling.connects "2" = 2 ∧ answersTo "2" Trio.dials = 1 ∧
      Trio.redialling.own.handshakes "1" = 1 ∧
      ∀ peer, answersTo peer Trio.dials ≤ Trio.redialling.connects peer ∧
        Trio.redialling.connects peer - answersTo peer Trio.dials +
          Trio.redialling.own.handshakes peer ≤ 1 ∧
        (peer ∈ Trio.redialling.own.inFlight ↔
          answersTo peer Trio.dials < Trio.redialling.connects peer) :=
  ⟨Trio.campaign, by decide +kernel, by decide +kernel, by decide +kernel,
    fun peer => Campaign.dials_once Trio.campaign peer⟩

end Quorum
