import Quorum.Proofs.Peers.Closings
import Quorum.Proofs.Peers.Contacts

/-!
# Dealings with the transport

What a node asks of the transport, and what it comes to hold on to because of it.  It connects only
to peers that it dials, and the connects that are in flight are those that have been asked for and
not been answered (`Liveness.Moves.flights_eq`).  It says who it is on the connections that it has
opened or keeps alive (`Liveness.Moves.names`), and keeps alive what it has opened
(`Liveness.Moves.keeps_alive`).  It waits for an answer on a connection that was reported to it as
opened (`Liveness.Moves.opens`), and binds a peer to it when the peer calls or answers
(`Liveness.Moves.binds`).
-/

namespace Quorum

/-- A connect to a peer. -/
def Ask.connectsTo (peer : NodeId) : Ask → Bool
  | connect target => decide (target.id = peer)
  | send _ _ | close _ => false

/-- The answer to a connect to a peer. -/
def Happening.answers (peer : NodeId) : Happening → Bool
  | connected _ id | connectFailed id => decide (id = peer)
  | _ => false

namespace Liveness

open Ask

variable
    {timers : Scheduler TimerEvent}
    {own next : Liveness}
    {happening : Happening}
    {event : Option PeerEvent}
    {effect : Effect}
    {conn : ConnId}
    {id peer : NodeId}

/-! ## Connects in flight -/

/-- How many connects to a peer are in flight. -/
def flights (own : Liveness) (peer : NodeId) : Nat := if peer ∈ own.inFlight then 1 else 0

theorem flights_landed (own : Liveness) (id : NodeId) :
    ({ own with inFlight := own.inFlight.filter (· ≠ id) } : Liveness).flights peer =
      if peer = id then 0 else own.flights peer := by
  unfold flights
  by_cases same : peer = id
  · simp [same]
  · simp [same]

theorem Dials.flights_eq (dials : own.Dials id effect next) :
    effect.asks.countP (connectsTo peer) + own.flights peer = next.flights peer := by
  cases dials with
  | @dialled target known grounded =>
      have called : target.id = id := by simpa using List.find?_some known
      unfold flights
      by_cases same : peer = id
      · subst same
        simp [connectsTo, called, grounded]
      · simp [connectsTo, called, same, Ne.symm same]
  | spared _ => exact Nat.zero_add _

theorem DialsEach.flights_eq {peers : List Peer} (each : own.DialsEach peers effect next) :
    effect.asks.countP (connectsTo peer) + own.flights peer = next.flights peer := by
  induction each with
  | nil => exact Nat.zero_add _
  | cons dials _ ih =>
      rw [Effect.asks_append, List.countP_append, Nat.add_right_comm, dials.flights_eq,
        Nat.add_comm]
      exact ih

theorem Pursues.flights_eq (pursues : own.Pursues id effect next) :
    next.flights peer = own.flights peer := by
  cases pursues <;> rfl

theorem Rearms.flights_eq (rearms : own.Rearms id conn effect next) :
    next.flights peer = own.flights peer := by
  cases rearms <;> rfl

theorem Identifies.flights_eq (identifies : own.Identifies conn id effect next) :
    next.flights peer = own.flights peer := by
  cases identifies
  rfl

theorem Ends.flights_eq (ends : own.Ends conn event effect next) :
    next.flights peer = own.flights peer := by
  cases ends with
  | unanswered _ pursues | parted _ _ pursues => exact pursues.flights_eq
  | unbound _ _ => rfl

/-- A new binding asks for no connect. -/
theorem Identifies.countP_asks (identifies : own.Identifies conn id effect next) :
    effect.asks.countP (connectsTo peer) = 0 := by
  cases identifies with
  | bound _ =>
      apply List.countP_eq_zero.mpr
      intro ask asked
      obtain ⟨previous, _, _, rfl⟩ := Registry.mem_evicted.mp asked
      exact Bool.false_ne_true

/-- The connects in flight are those that have been asked for and not been answered. -/
theorem Moves.flights_eq
    (moves : own.Moves timers happening event effect next)
    (landed : happening.answers peer = true → peer ∈ own.inFlight) :
    effect.asks.countP (connectsTo peer) + own.flights peer =
      next.flights peer + if happening.answers peer then 1 else 0 := by
  -- Most moves neither connect nor answer a connect.
  have unmoved
      (silent : effect.asks.countP (connectsTo peer) = 0)
      (kept : next.flights peer = own.flights peer)
      (other : happening.answers peer = false) :
      effect.asks.countP (connectsTo peer) + own.flights peer =
        next.flights peer + if happening.answers peer then 1 else 0 := by
    rw [silent, kept, other, Nat.zero_add]
    rfl
  -- An answer takes away what was in flight.
  have landing {answered : NodeId}
      (silent : effect.asks.countP (connectsTo peer) = 0)
      (kept : next.flights peer =
        ({ own with inFlight := own.inFlight.filter (· ≠ answered) } : Liveness).flights peer)
      (other : happening.answers peer = decide (answered = peer)) :
      effect.asks.countP (connectsTo peer) + own.flights peer =
        next.flights peer + if happening.answers peer then 1 else 0 := by
    rw [silent, kept, flights_landed]
    by_cases same : answered = peer
    · rw [other, decide_eq_true same] at landed
      simp [flights, landed rfl, other, same]
    · simp [other, same, Ne.symm same]
  cases moves with
  | started dials => exact dials.flights_eq
  | opened => exact landing rfl rfl rfl
  | failed pursues => exact landing (by simp [pursues.asks_eq]) pursues.flights_eq rfl
  | answered _ rearms =>
      exact unmoved (by simp [rearms.asks_eq, connectsTo]) rearms.flights_eq rfl
  | heard _ _ rearms => exact unmoved (by simp [rearms.asks_eq]) rearms.flights_eq rfl
  | revived _ _ rearms =>
      exact unmoved (by simp [rearms.asks_eq, connectsTo]) rearms.flights_eq rfl
  | recanted _ _ ends => exact unmoved (by simp [ends.asks_eq, connectsTo]) ends.flights_eq rfl
  | ended ends => exact unmoved (by simp [ends.asks_eq]) ends.flights_eq rfl
  | identified _ _ identifies =>
      exact unmoved (by simp [identifies.countP_asks, connectsTo]) identifies.flights_eq rfl
  | acknowledged _ identifies => exact unmoved identifies.countP_asks identifies.flights_eq rfl
  | expired _ pursues | lapsed _ pursues =>
      exact unmoved (by simp [pursues.asks_eq, connectsTo]) pursues.flights_eq rfl
  | redialled _ _ dials => exact dials.flights_eq
  | shut =>
      refine unmoved ?_ rfl rfl
      simp [List.countP_append, List.countP_map, Function.comp_def, connectsTo]
  | _ => exact unmoved rfl rfl rfl

/-! ## What is asked for -/

theorem Dials.target?_of_connect
    {target : Peer}
    (dials : own.Dials id effect next)
    (asked : .connect target ∈ effect.asks) :
    (own.target? target.id).isSome := by
  cases dials with
  | @dialled found known _ =>
      obtain rfl : target = found := by simpa using asked
      exact Liveness.target?_isSome (List.mem_of_find?_eq_some known)
  | spared _ => cases asked

theorem DialsEach.target?_of_connect
    {peers : List Peer}
    {target : Peer}
    (each : own.DialsEach peers effect next)
    (asked : .connect target ∈ effect.asks) :
    (own.target? target.id).isSome := by
  induction each with
  | nil => cases asked
  | cons dials _ ih =>
      rcases List.mem_append.mp asked with first | later
      · exact dials.target?_of_connect first
      · obtain ⟨_, rfl⟩ := dials.next_eq
        exact ih later

theorem Identifies.closes
    {ask : Ask}
    (identifies : own.Identifies conn id effect next)
    (asked : ask ∈ effect.asks) :
    ∃ previous, ask = .close previous := by
  cases identifies with
  | bound _ =>
      obtain ⟨previous, _, _, rfl⟩ := Registry.mem_evicted.mp asked
      exact ⟨previous, rfl⟩

/-- A node connects only to peers that it dials. -/
theorem Moves.target?_of_connect
    {target : Peer}
    (moves : own.Moves timers happening event effect next)
    (asked : .connect target ∈ effect.asks) :
    (own.target? target.id).isSome := by
  cases moves with
  | started dials => exact dials.target?_of_connect asked
  | redialled _ _ dials =>
      have known := dials.target?_of_connect asked
      exact known
  | failed pursues | expired _ pursues | lapsed _ pursues => simp [pursues.asks_eq] at asked
  | answered _ rearms | heard _ _ rearms | revived _ _ rearms => simp [rearms.asks_eq] at asked
  | recanted _ _ ends | ended ends => simp [ends.asks_eq] at asked
  | identified _ _ identifies =>
      simp only [Effect.asks_append, List.nil_append, List.mem_append, List.mem_singleton,
        reduceCtorEq, or_false] at asked
      obtain ⟨_, same⟩ := identifies.closes asked
      cases same
  | acknowledged _ identifies =>
      obtain ⟨_, same⟩ := identifies.closes asked
      cases same
  | _ => simp at asked

/-- A node says who it is on a connection that it has just opened, or keeps alive. -/
theorem Moves.names
    {name : NodeId}
    (moves : own.Moves timers happening event effect next)
    (asked : .send conn (.request (.heartbeat name)) ∈ effect.asks) :
    name = own.localId ∧
      ((∃ id, happening = .connected conn id) ∨
        ∃ id link, happening = .keepalive id ∧ own.links.get? id = some link ∧
          link.conn = conn) := by
  cases moves with
  | started dials =>
      obtain ⟨_, same⟩ := dials.connects _ asked
      cases same
  | @opened conn id _ =>
      simp only [List.mem_singleton, send.injEq, Message.request.injEq,
        Request.heartbeat.injEq] at asked
      obtain ⟨rfl, rfl⟩ := asked
      exact ⟨rfl, .inl ⟨id, rfl⟩⟩
  | @nudged id link linked _ =>
      simp only [List.mem_singleton, send.injEq, Message.request.injEq,
        Request.heartbeat.injEq] at asked
      obtain ⟨rfl, rfl⟩ := asked
      exact ⟨rfl, .inr ⟨id, link, rfl, linked, rfl⟩⟩
  | @revived id link _ _ linked _ rearms =>
      simp only [Effect.asks_append, rearms.asks_eq, List.append_nil, List.mem_singleton,
        send.injEq, Message.request.injEq, Request.heartbeat.injEq] at asked
      obtain ⟨rfl, rfl⟩ := asked
      exact ⟨rfl, .inr ⟨id, link, rfl, linked, rfl⟩⟩
  | redialled _ _ dials => cases dials <;> simp at asked
  | failed pursues | expired _ pursues | lapsed _ pursues => simp [pursues.asks_eq] at asked
  | answered _ rearms | heard _ _ rearms => simp [rearms.asks_eq] at asked
  | recanted _ _ ends | ended ends => simp [ends.asks_eq] at asked
  | identified _ _ identifies =>
      simp only [Effect.asks_append, List.nil_append, List.mem_append, List.mem_singleton,
        send.injEq, reduceCtorEq, and_false, or_false] at asked
      obtain ⟨_, same⟩ := identifies.closes asked
      cases same
  | acknowledged _ identifies =>
      obtain ⟨_, same⟩ := identifies.closes asked
      cases same
  | _ => simp at asked

/-! ## What a node comes to hold on to -/

/-- A node keeps a peer alive if it has opened the connection to it. -/
theorem Moves.keeps_alive
    {deadline : Deadline TimerEvent}
    (moves : own.Moves timers happening event effect next)
    (armed : deadline ∈ effect.armed)
    (beat : deadline.event = .peerKeepAlive peer) :
    ∃ conn pending, own.dialing.get? conn = some pending ∧
      (pending.id = peer ∨ happening = .request conn peer) := by
  have pursuing {own next : Liveness} {id : NodeId} {effect : Effect}
      (pursues : own.Pursues id effect next) : deadline ∉ effect.armed := by
    cases pursues with
    | scheduled _ _ =>
        rw [List.mem_singleton]
        rintro rfl
        cases beat
    | spared _ => exact List.not_mem_nil
  have rearming {own next : Liveness} {id : NodeId} {conn : ConnId} {effect : Effect}
      (rearms : own.Rearms id conn effect next) : deadline ∉ effect.armed := by
    cases rearms with
    | rearmed _ _ =>
        rw [List.mem_singleton]
        rintro rfl
        cases beat
    | moved _ => exact List.not_mem_nil
  have ending {event : Option PeerEvent} {effect : Effect} {conn : ConnId}
      (ends : own.Ends conn event effect next) : deadline ∉ effect.armed := by
    cases ends with
    | unanswered _ pursues | parted _ _ pursues => simpa using pursuing pursues
    | unbound _ _ => exact List.not_mem_nil
  have identifying {own next : Liveness} {conn : ConnId} {id : NodeId} {effect : Effect}
      (identifies : own.Identifies conn id effect next)
      (armed : deadline ∈ effect.armed) :
      id = peer ∧ ∃ pending, own.dialing.get? conn = some pending := by
    cases identifies with
    | @bound keepalive handle dialled =>
        rcases List.mem_append.mp armed with listed | watched
        · obtain ⟨beats, held, rfl⟩ := List.mem_map.mp listed
          obtain rfl := Option.mem_toList.mp held
          exact ⟨TimerEvent.peerKeepAlive.inj beat, Option.isSome_iff_exists.mp dialled.symm⟩
        · rw [List.mem_singleton.mp watched] at beat
          cases beat
  cases moves with
  | failed pursues => exact absurd armed (pursuing pursues)
  | expired _ pursues => exact absurd armed (by simpa using pursuing pursues)
  | lapsed _ pursues => exact absurd armed (by simpa using pursuing pursues)
  | answered _ rearms => exact absurd armed (by simpa using rearming rearms)
  | heard _ _ rearms => exact absurd armed (rearming rearms)
  | revived _ _ rearms => exact absurd armed (by simpa using rearming rearms)
  | recanted _ _ ends => exact absurd armed (by simpa using ending ends)
  | ended ends => exact absurd armed (ending ends)
  | @identified conn _ _ _ _ _ identifies =>
      simp only [Effect.armed_append, List.nil_append, List.append_nil] at armed
      obtain ⟨rfl, pending, waiting⟩ := identifying identifies armed
      exact ⟨conn, pending, waiting, .inr rfl⟩
  | @acknowledged conn pending _ _ waiting identifies =>
      exact ⟨conn, pending, waiting, .inl (identifying identifies armed).1⟩
  | redialled _ _ dials => cases dials <;> simp at armed
  | opened | greeted _ =>
      rw [List.mem_singleton.mp armed] at beat
      cases beat
  | _ => simp at armed

/-- A node waits for an answer on a connection that was reported to it as opened. -/
theorem Moves.opens
    {pending : PendingDial}
    (moves : own.Moves timers happening event effect next)
    (waiting : next.dialing.get? conn = some pending) :
    own.dialing.get? conn = some pending ∨ happening = .connected conn pending.id := by
  have erased {another : ConnId}
      (waiting : (own.dialing.erase another).get? conn = some pending) :
      own.dialing.get? conn = some pending := by
    rw [Table.get?_erase] at waiting
    split at waiting
    · cases waiting
    · exact waiting
  have ending {event : Option PeerEvent} {effect : Effect} {another : ConnId}
      (ends : own.Ends another event effect next) : own.dialing.get? conn = some pending := by
    cases ends with
    | unanswered _ pursues =>
        obtain ⟨_, rfl⟩ := pursues.next_eq
        exact erased waiting
    | unbound _ _ => exact waiting
    | parted _ _ pursues =>
        obtain ⟨_, rfl⟩ := pursues.next_eq
        exact waiting
  cases moves with
  | @opened another id handle =>
      rw [Table.get?_insert] at waiting
      split at waiting
      · next same =>
        cases waiting
        subst same
        exact .inr rfl
      · exact .inl waiting
  | failed pursues | expired _ pursues =>
      obtain ⟨_, rfl⟩ := pursues.next_eq
      exact .inl waiting
  | lapsed _ pursues =>
      obtain ⟨_, rfl⟩ := pursues.next_eq
      exact .inl (erased waiting)
  | redialled _ _ dials =>
      obtain ⟨_, rfl⟩ := dials.next_eq
      exact .inl waiting
  | answered _ rearms | heard _ _ rearms | revived _ _ rearms => cases rearms <;> exact .inl waiting
  | recanted _ _ ends | ended ends => exact .inl (ending ends)
  | identified _ _ identifies | acknowledged _ identifies =>
      cases identifies
      exact .inl (erased waiting)
  | shut => cases waiting
  | _ => exact .inl waiting

/-- A peer is bound to a connection when it calls on it, or answers on it. -/
theorem Moves.binds
    (moves : own.Moves timers happening event effect next)
    (bound : next.registry.get? id = some conn) :
    own.registry.get? id = some conn ∨ happening = .request conn id ∨
      ∃ pending, own.dialing.get? conn = some pending ∧ pending.id = id := by
  rcases moves.hears_of_bound bound with held | ⟨caller, rfl⟩ | rfl
  · exact .inl held
  · cases moves with
    | answered _ rearms =>
        rw [rearms.registry_eq] at bound
        exact .inl bound
    | recanted _ _ ends => exact .inl (ends.get?_of_get? bound)
    | identified _ _ identifies =>
        cases identifies with
        | bound _ =>
            rw [Registry.get?_bind] at bound
            split at bound
            · next same => exact .inr (.inl (same ▸ rfl))
            · exact .inl bound
    | refused nobody _ =>
        rw [Registry.get?_removeConnection, nobody, if_neg nofun] at bound
        exact .inl bound
  · cases moves with
    | @acknowledged _ pending _ _ waiting identifies =>
        cases identifies with
        | bound _ =>
            rw [Registry.get?_bind] at bound
            split at bound
            · next same => exact .inr (.inr ⟨pending, waiting, same.symm⟩)
            · exact .inl bound
    | heard _ _ rearms =>
        rw [rearms.registry_eq] at bound
        exact .inl bound
    | ignored _ _ => exact .inl bound

end Liveness

end Quorum
