import Quorum.Proofs.Peers.Moves

/-!
# Every handler makes a move

One lemma for each handler of the liveness protocol, assembled from one lemma for each of the
helpers that it calls.  They are put together in `Happening.handler_moves`.
-/

namespace Quorum

namespace Liveness

open Act

variable
    {own : Liveness}
    {outside : Outside}
    {conn : ConnId}
    {id : NodeId}

/-! ## The helpers -/

theorem modifyRegistry_does (change : Registry → Registry) :
    (modifyRegistry change).Does own outside () {}
      { own with registry := change own.registry } :=
  does_modifyOwn _

theorem dropLink_does (id : NodeId) :
    (dropLink id).Does own outside () { released := own.linkHandles id }
      { own with links := own.links.erase id } := by
  unfold dropLink
  apply yields_own
  cases held : own.links.get? id with
  | none =>
      rw [Table.erase_eq_self held]
      exact (does_pure ()).yields ⟨rfl, by simp [linkHandles, Table.entriesAt, held], rfl⟩
  | some link =>
      apply yields_modifyOwn
      refine (does_cancelIfAny link.keepalive).andThen fun outside => ?_
      refine (does_cancelIfAny link.timeout).yields ⟨rfl, ?_, rfl⟩
      simp [linkHandles, Table.entriesAt, held, PeerLink.handles]

theorem dropAnonymous_does (conn : ConnId) :
    (dropAnonymous conn).Does own outside () { released := own.anonymousHandles conn }
      { own with anonymous := own.anonymous.erase conn } := by
  unfold dropAnonymous
  apply yields_own
  cases held : own.anonymous.get? conn with
  | none =>
      rw [Table.erase_eq_self held]
      exact (does_pure ()).yields ⟨rfl, by simp [anonymousHandles, Table.entriesAt, held], rfl⟩
  | some timeout =>
      apply yields_modifyOwn
      refine (does_cancel timeout).yields ⟨rfl, ?_, rfl⟩
      simp [anonymousHandles, Table.entriesAt, held]

theorem takeDial_does (conn : ConnId) :
    (takeDial conn).Does own outside (own.dialing.get? conn) {}
      { own with dialing := own.dialing.erase conn } := by
  unfold takeDial
  apply yields_own
  cases held : own.dialing.get? conn with
  | none =>
      rw [Table.erase_eq_self held]
      exact does_pure none
  | some pending =>
      apply yields_modifyOwn
      exact does_pure (some pending)

theorem endDial_does (conn : ConnId) :
    (endDial conn).Does own outside (own.dialing.get? conn) { released := own.dialHandles conn }
      { own with dialing := own.dialing.erase conn } := by
  unfold endDial
  refine (takeDial_does conn).andThen fun outside => ?_
  refine (does_cancelIfAny _).andThen fun outside => ?_
  refine yields_pure ⟨rfl, ?_, rfl⟩
  cases held : own.dialing.get? conn with
  | none => simp [dialHandles, Table.entriesAt, held]
  | some pending => simp [dialHandles, Table.entriesAt, held]

theorem dropReconnect_does (id : NodeId) :
    (dropReconnect id).Does own outside () { released := own.redialHandles id }
      { own with reconnecting := own.reconnecting.erase id } := by
  unfold dropReconnect
  apply yields_own
  cases held : own.reconnecting.get? id with
  | none =>
      rw [Table.erase_eq_self held]
      exact (does_pure ()).yields ⟨rfl, by simp [redialHandles, Table.entriesAt, held], rfl⟩
  | some task =>
      apply yields_modifyOwn
      refine (does_cancel task).yields ⟨rfl, ?_, rfl⟩
      simp [redialHandles, Table.entriesAt, held]

theorem landed_does (id : NodeId) :
    (landed id).Does own outside () {}
      { own with inFlight := own.inFlight.filter (· ≠ id) } :=
  does_modifyOwn _

theorem dial_dials (id : NodeId) :
    (dial id).Yields own outside fun _ effect next => own.Dials id effect next := by
  unfold dial
  apply yields_own
  cases target : own.target? id with
  | none => exact yields_pure (.spared (.inl target))
  | some peer =>
      dsimp only
      split
      · next grounded =>
        apply yields_modifyOwn
        exact (does_ask _).yields (.dialled target grounded)
      · next flying => exact yields_pure (.spared (.inr (Decidable.not_not.mp flying)))

theorem scheduleReconnect_pursues (id : NodeId) :
    (scheduleReconnect id).Yields own outside fun _ effect next => own.Pursues id effect next := by
  unfold scheduleReconnect
  apply yields_own
  split
  · next wanted =>
    simp only [Bool.and_eq_true, Bool.not_eq_true', Table.contains, Option.isSome_eq_false_iff,
      Option.isNone_iff_eq_none] at wanted
    refine yields_arm_andThen fun handle outside => ?_
    refine (does_modifyOwn _).yields ?_
    rw [Effect.append_nil]
    exact .scheduled wanted.1 wanted.2
  · next needless =>
    refine yields_pure (.spared ?_)
    simp only [Bool.and_eq_true, Bool.not_eq_true', Table.contains, not_and,
      Bool.not_eq_false] at needless
    cases target : own.target? id with
    | none => exact .inl rfl
    | some peer => exact .inr (needless (by rw [target]; rfl))

theorem refreshTimeout_rearms (id : NodeId) (conn : ConnId) :
    (refreshTimeout id conn).Yields own outside fun _ effect next =>
      own.Rearms id conn effect next := by
  unfold refreshTimeout
  apply yields_own
  cases linked : own.links.get? id with
  | none => exact yields_pure (.moved fun link held => by rw [linked] at held; cases held)
  | some link =>
      dsimp only
      split
      · next current =>
        apply yields_modifyOwn
        refine (does_cancelIfAny _).andThen fun outside => ?_
        apply yields_own
        refine yields_arm_andThen fun handle outside => ?_
        refine (does_modifyOwn _).yields ?_
        have rearmed := @Rearms.rearmed own id conn link handle linked current
        rw [← Table.insert_insert own.links id { link with timeout := none }] at rearmed
        simpa [peerDeadline] using rearmed
      · next elsewhere =>
        refine yields_pure (.moved fun other held => ?_)
        rw [linked] at held
        cases held
        exact elsewhere

theorem bindPeer_does (conn : ConnId) (id : NodeId) :
    (bindPeer conn id).Does own outside (own.registry.announced id conn)
      { asks := own.registry.evicted id conn }
      { own with registry := own.registry.bind id conn } := by
  unfold bindPeer
  apply yields_own
  refine (modifyRegistry_does _).andThen fun outside => ?_
  unfold Registry.announced Registry.evicted
  cases own.registry.bindingOf id conn with
  | fresh => exact yields_pure ⟨rfl, rfl, rfl⟩
  | unchanged => exact yields_pure ⟨rfl, rfl, rfl⟩
  | replaced previous =>
      refine (does_ask _).andThen fun outside => ?_
      exact yields_pure ⟨rfl, rfl, rfl⟩

theorem armKeepalive_yields (id : NodeId) (dialled : Bool) :
    (armKeepalive id dialled).Yields own outside fun keepalive effect next =>
      keepalive.isSome = dialled ∧
        effect = { armed := keepalive.toList.map (own.beatDeadline id) } ∧ next = own := by
  unfold armKeepalive
  cases dialled with
  | false => exact yields_pure ⟨rfl, rfl, rfl⟩
  | true =>
      apply yields_own
      refine yields_arm_andThen fun handle outside => ?_
      exact yields_pure ⟨rfl, rfl, rfl⟩

/-- A connection is identified; the timeout of the new link is not armed yet. -/
theorem identify_yields (conn : ConnId) (id : NodeId) (dialled : Bool) :
    (identify conn id dialled).Yields own outside fun event effect next =>
      ∃ keepalive, keepalive.isSome = (dialled || (own.dialing.get? conn).isSome) ∧
        event = own.registry.announced id conn ∧
        effect =
          { asks := own.registry.evicted id conn
            released := own.dialHandles conn ++ own.linkHandles id ++ own.redialHandles id
            armed := keepalive.toList.map (own.beatDeadline id) } ∧
        next =
          { own with
            registry := own.registry.bind id conn
            dialing := own.dialing.erase conn
            links := (own.links.erase id).insert id ⟨conn, keepalive, none⟩
            reconnecting := own.reconnecting.erase id } := by
  unfold identify
  refine (endDial_does conn).andThen fun outside => ?_
  refine (bindPeer_does conn id).andThen fun outside => ?_
  refine (dropLink_does id).andThen fun outside => ?_
  refine (armKeepalive_yields id _).andThen ?_
  rintro keepalive _ _ outside ⟨beats, rfl, rfl⟩
  apply yields_modifyOwn
  refine (dropReconnect_does id).andThen fun outside => ?_
  refine yields_pure ⟨keepalive, beats, rfl, ?_, rfl⟩
  simp [linkHandles, redialHandles, beatDeadline]

/-- The timeout of a new link is armed without anything to release. -/
theorem Rearms.of_untimed
    {keepalive : Option Handle}
    {effect : Effect}
    {next : Liveness}
    (linked : own.links.get? id = some ⟨conn, keepalive, none⟩)
    (rearms : own.Rearms id conn effect next) :
    ∃ handle, effect = { armed := [own.peerDeadline id conn handle] } ∧
      next = { own with links := own.links.insert id ⟨conn, keepalive, some handle⟩ } := by
  cases rearms with
  | @rearmed link handle linked' _ =>
      rw [linked] at linked'
      obtain rfl := Option.some.inj linked'
      exact ⟨handle, rfl, rfl⟩
  | moved elsewhere => exact absurd rfl (elsewhere _ linked)

theorem pursue_ends
    {pending : PendingDial}
    (waiting : own.dialing.get? conn = some pending) :
    (do
      scheduleReconnect pending.id
      return none : Act Liveness (Option PeerEvent)).Yields
        { own with dialing := own.dialing.erase conn } outside fun event effect next =>
      own.Ends conn event ({ released := own.dialHandles conn } ++ effect) next := by
  refine (scheduleReconnect_pursues _).andThen fun _ effect next outside pursues => ?_
  refine yields_pure ?_
  rw [Effect.append_nil]
  exact .unanswered waiting pursues

theorem onConnectionClosed_ends (conn : ConnId) :
    (onConnectionClosed conn).Yields own outside fun event effect next =>
      own.Ends conn event effect next := by
  unfold onConnectionClosed
  refine (endDial_does conn).andThen fun outside => ?_
  cases waiting : own.dialing.get? conn with
  | some pending => exact pursue_ends waiting
  | none =>
      rw [Table.erase_eq_self waiting]
      have idle : own.dialHandles conn = [] := by simp [dialHandles, Table.entriesAt, waiting]
      rw [idle]
      refine (dropAnonymous_does conn).andThen fun outside => ?_
      apply yields_own
      refine (modifyRegistry_does _).andThen fun outside => ?_
      dsimp only
      cases bound : own.registry.peerOf? conn with
      | none =>
          refine yields_pure ?_
          simpa using Ends.unbound waiting bound
      | some id =>
          refine (dropLink_does id).andThen fun outside => ?_
          refine (scheduleReconnect_pursues id).andThen fun _ effect next outside pursues => ?_
          refine yields_pure ?_
          simp only [Effect.nil_append, Effect.append_nil]
          rw [← Effect.append_assoc]
          exact .parted waiting bound pursues

theorem isTimed_does (link : PeerLink) :
    (isTimed link).Does own outside
      (link.timeout.any fun handle => !outside.timers.isCancelled handle) {} own := by
  unfold isTimed
  cases link.timeout with
  | none => exact does_pure false
  | some timeout => exact ⟨{}, .refl outside, rfl, rfl, rfl⟩

theorem cancelLink_does (link : PeerLink) :
    (cancelLink link).Does own outside () { released := link.handles } own := by
  unfold cancelLink
  refine (does_cancelIfAny link.keepalive).andThen fun outside => ?_
  exact (does_cancelIfAny link.timeout).yields ⟨rfl, rfl, rfl⟩

/-! ## The handlers -/

variable {timers : Scheduler TimerEvent}

/-- Dialling some peers is a matter of connects alone. -/
theorem dialEach_dials (peers : List Peer) :
    (peers.forM fun peer => dial peer.id).Yields own outside fun _ effect next =>
      ∃ asks inFlight, effect = { asks } ∧ next = { own with inFlight } ∧
        own.DialsEach peers { asks } { own with inFlight } := by
  induction peers generalizing own outside with
  | nil => exact yields_pure ⟨[], own.inFlight, rfl, rfl, .nil⟩
  | cons peer rest ih =>
      refine (dial_dials peer.id).andThen fun _ effect own' outside dials => ?_
      refine ih.mono ?_
      rintro _ _ _ ⟨asks, inFlight, rfl, rfl, others⟩
      have each := DialsEach.cons dials others
      cases dials with
      | dialled _ _ => exact ⟨_, inFlight, rfl, rfl, each⟩
      | spared _ => exact ⟨asks, inFlight, rfl, rfl, each⟩

theorem start_moves :
    start.Yields own outside fun _ => own.Moves timers .start none := by
  unfold start
  apply yields_own
  refine (dialEach_dials own.dialTargets).mono ?_
  rintro _ _ _ ⟨asks, inFlight, rfl, rfl, dials⟩
  exact .started dials

theorem onOutboundConnected_moves :
    (onOutboundConnected conn id).Yields own outside fun _ =>
      own.Moves timers (.connected conn id) none := by
  unfold onOutboundConnected
  refine (landed_does id).andThen fun outside => ?_
  apply yields_own
  refine yields_arm_andThen fun handle outside => ?_
  apply yields_modifyOwn
  exact (does_ask _).yields .opened

theorem onConnectFailed_moves :
    (onConnectFailed id).Yields own outside fun _ =>
      own.Moves timers (.connectFailed id) none := by
  unfold onConnectFailed
  refine (landed_does id).andThen fun between => ?_
  exact (scheduleReconnect_pursues id).mono fun _ _ _ => .failed

theorem onAccepted_moves :
    (onAccepted conn).Yields own outside fun _ =>
      own.Moves timers (.accepted conn) none := by
  unfold onAccepted
  apply yields_own
  split
  · next bound => exact yields_pure (.known bound)
  · next unbound =>
    have nobody := Option.not_isSome_iff_eq_none.mp unbound
    refine (modifyRegistry_does _).andThen fun outside => ?_
    apply yields_own
    refine yields_arm_andThen fun handle outside => ?_
    apply yields_own
    apply yields_modifyOwn
    refine (does_cancelIfAny _).yields ?_
    have released : (own.anonymous.get? conn).toList = own.anonymousHandles conn := by
      simp [anonymousHandles, Table.entriesAt, Function.comp_def]
    rw [released]
    exact .greeted nobody

theorem onHeartbeatRequest_moves :
    (onHeartbeatRequest conn id).Yields own outside fun event =>
      own.Moves timers (.request conn id) event := by
  unfold onHeartbeatRequest
  apply yields_own
  cases bound : own.registry.peerOf? conn with
  | some former =>
      dsimp only
      split
      · next same =>
        subst same
        refine (refreshTimeout_rearms former conn).andThen fun _ effect next outside rearms => ?_
        refine (does_ask _).andThen fun outside => ?_
        exact yields_pure (.answered bound rearms)
      · next changed =>
        refine (does_ask _).andThen fun outside => ?_
        exact (onConnectionClosed_ends conn).mono fun _ _ _ => .recanted bound changed
  | none =>
      refine (dropAnonymous_does conn).andThen fun outside => ?_
      apply yields_own
      split
      · next member =>
        refine (identify_yields conn id false).andThen ?_
        rintro _ _ _ outside ⟨keepalive, beats, rfl, rfl, rfl⟩
        refine (refreshTimeout_rearms id conn).andThen fun _ effect next outside rearms => ?_
        obtain ⟨handle, rfl, rfl⟩ := rearms.of_untimed (Table.get?_insert_self ..)
        refine (does_ask _).andThen fun outside => ?_
        refine yields_pure ?_
        have identifies := @Identifies.bound _ conn id keepalive handle beats
        have moves := @Moves.identified timers _ _ _ _ _ bound member identifies
        simpa [Table.insert_insert, peerDeadline] using moves
      · next stranger =>
        refine (modifyRegistry_does _).andThen fun outside => ?_
        refine (does_ask _).andThen fun outside => ?_
        refine yields_pure ?_
        have moves := @Moves.refused timers _ _ _ bound stranger
        simpa using moves

theorem onHeartbeatResponse_moves :
    (onHeartbeatResponse conn).Yields own outside fun event =>
      own.Moves timers (.response conn) event := by
  unfold onHeartbeatResponse
  refine (endDial_does conn).andThen fun outside => ?_
  cases waiting : own.dialing.get? conn with
  | some pending =>
      refine (identify_yields conn pending.id true).andThen ?_
      rintro _ _ _ outside ⟨keepalive, beats, rfl, rfl, rfl⟩
      refine (refreshTimeout_rearms pending.id conn).andThen fun _ effect next outside rearms => ?_
      obtain ⟨handle, rfl, rfl⟩ := rearms.of_untimed (Table.get?_insert_self ..)
      refine yields_pure ?_
      have dialled : keepalive.isSome = (own.dialing.get? conn).isSome := by
        rw [beats, waiting]
        rfl
      have identifies := @Identifies.bound own conn pending.id keepalive handle dialled
      have moves := @Moves.acknowledged timers _ _ _ _ _ waiting identifies
      have ended : ({ own with dialing := own.dialing.erase conn } : Liveness).dialHandles conn =
          [] := by
        simp [dialHandles, Table.entriesAt]
      simp only [Effect.mk_append_mk, List.append_assoc, List.nil_append, List.append_nil,
        Table.insert_insert, Table.erase_erase, ended] at moves ⊢
      exact moves
  | none =>
      rw [Table.erase_eq_self waiting]
      have idle : own.dialHandles conn = [] := by simp [dialHandles, Table.entriesAt, waiting]
      rw [idle]
      apply yields_own
      cases bound : own.registry.peerOf? conn with
      | some id =>
          refine (refreshTimeout_rearms id conn).andThen fun _ effect next outside rearms => ?_
          refine yields_pure ?_
          rw [Effect.append_nil, Effect.nil_append]
          exact .heard waiting bound rearms
      | none => exact yields_pure (.ignored waiting bound)

theorem onKeepalive_moves :
    (onKeepalive id).Yields own outside fun _ =>
      own.Moves outside.timers (.keepalive id) none := by
  unfold onKeepalive
  apply yields_own
  cases linked : own.links.get? id with
  | none => exact yields_pure (.unlinked linked)
  | some link =>
      refine (isTimed_does link).andThen fun between => ?_
      refine (does_ask _).andThen fun between => ?_
      split
      · next untimed =>
        refine (refreshTimeout_rearms id link.conn).mono fun _ effect next rearms => ?_
        refine .revived linked ?_ rearms
        intro handle held
        simpa [held] using untimed
      · next timed =>
        refine yields_pure (.nudged linked ?_)
        rw [Bool.not_eq_true, Bool.not_eq_false', Option.any_eq_true] at timed
        simpa using timed

theorem onPeerTimeout_moves :
    (onPeerTimeout id conn).Yields own outside fun event =>
      own.Moves timers (.peerTimeout id conn) event := by
  unfold onPeerTimeout
  apply yields_own
  split
  · next current =>
    refine (modifyRegistry_does _).andThen fun outside => ?_
    refine (dropLink_does id).andThen fun outside => ?_
    refine (does_ask _).andThen fun outside => ?_
    refine (scheduleReconnect_pursues id).andThen fun _ effect next outside pursues => ?_
    refine yields_pure ?_
    rw [Effect.append_nil, Effect.nil_append]
    exact .expired (decide_eq_true_iff.mp current) pursues
  · next outdated => exact yields_pure (.superseded (mt decide_eq_true_iff.mpr outdated))

theorem onConnectionTimeout_moves :
    (onConnectionTimeout conn).Yields own outside fun _ =>
      own.Moves timers (.connectionTimeout conn) none := by
  unfold onConnectionTimeout
  refine (takeDial_does conn).andThen fun outside => ?_
  cases waiting : own.dialing.get? conn with
  | some pending =>
      refine (does_ask _).andThen fun outside => ?_
      exact (scheduleReconnect_pursues pending.id).mono fun _ _ _ => .lapsed waiting
  | none =>
      rw [Table.erase_eq_self waiting]
      apply yields_modifyOwn
      apply yields_own
      split
      · next listed =>
        refine (modifyRegistry_does _).andThen fun outside => ?_
        exact (does_ask _).yields (.dismissed waiting (decide_eq_true_iff.mp listed))
      · next unlisted =>
        exact yields_pure (.forgotten waiting (mt decide_eq_true_iff.mpr unlisted))

theorem onReconnect_moves :
    (onReconnect id).Yields own outside fun _ => own.Moves timers (.reconnect id) none := by
  unfold onReconnect
  apply yields_modifyOwn
  apply yields_own
  have handshaking : own.isHandshaking id = true ↔
      ∃ conn pending, own.dialing.get? conn = some pending ∧ pending.id = id := by
    unfold isHandshaking
    simp only [List.any_eq_true, Table.mem_values_iff, decide_eq_true_eq]
    constructor
    · rintro ⟨pending, ⟨conn, waiting⟩, same⟩
      exact ⟨conn, pending, waiting, same⟩
    · rintro ⟨conn, pending, waiting, same⟩
      exact ⟨pending, ⟨conn, waiting⟩, same⟩
  split
  · next wanted =>
    rw [Bool.and_eq_true, Bool.not_eq_true', Bool.not_eq_true', Registry.isConnected,
      Table.contains, Option.isSome_eq_false_iff, Option.isNone_iff_eq_none] at wanted
    refine (dial_dials id).mono fun _ effect next dials => ?_
    refine .redialled wanted.1 ?_ dials
    intro conn pending waiting same
    have met := handshaking.mpr ⟨conn, pending, waiting, same⟩
    rw [show own.isHandshaking id = false from wanted.2] at met
    cases met
  · next met =>
    refine yields_pure (.reunited ?_)
    rw [← handshaking]
    cases connected : own.registry.get? id with
    | some conn => exact .inl rfl
    | none =>
        refine .inr ?_
        have unconnected : own.registry.isConnected id = false := by
          rw [Registry.isConnected, Table.contains, show own.registry.connected.get? id = none from
            connected]
          rfl
        simpa [unconnected, isHandshaking] using met

theorem shutdown_moves :
    shutdown.Yields own outside fun _ => own.Moves timers .shutdown none := by
  unfold shutdown
  apply yields_own
  refine (does_forM (fun link => ⟨[.close link.conn], link.handles, []⟩) ?_).andThen
    fun outside => ?_
  · intro link _ outside
    refine (cancelLink_does link).andThen fun outside => ?_
    refine (does_ask _).yields ⟨rfl, ?_, rfl⟩
    simp
  refine (does_forM (fun entry => ⟨[.close entry.1], [PendingDial.timeout entry.2], []⟩) ?_).andThen
    fun outside => ?_
  · intro entry _ outside
    refine (does_cancel _).andThen fun outside => ?_
    exact (does_ask _).yields ⟨rfl, rfl, rfl⟩
  refine (does_forM (fun entry => ⟨[.close entry.1], [entry.2], []⟩) ?_).andThen
    fun outside => ?_
  · intro entry _ outside
    refine (does_cancel _).andThen fun outside => ?_
    exact (does_ask _).yields ⟨rfl, rfl, rfl⟩
  refine (does_forM (fun handle => ⟨[], [handle], []⟩) ?_).andThen fun outside => ?_
  · exact fun handle _ outside => does_cancel handle
  have silent {α β : Type} (list : List α) : (list.flatMap fun _ => ([] : List β)) = [] := by simp
  have moves := @Moves.shut timers own
  refine ⟨{}, .refl outside, ?_⟩
  simp only [Effect.ofList, Effect.mk_append_mk, ← List.map_eq_flatMap, silent, List.append_nil,
    Table.values, Table.keys, List.map_map, List.append_assoc, Function.comp_def] at moves ⊢
  exact moves

/-- A shutdown arms nothing, and so it cannot fail. -/
theorem shutdown_succeeds : shutdown.Succeeds := by
  refine .own_bind fun own => ?_
  have linking (link : PeerLink) : (cancelLink link).Succeeds :=
    .bind (.cancelIfAny _) fun _ => .cancelIfAny _
  refine .bind (.forM (fun link => .bind (linking link) fun _ => .ask _) _) fun _ => ?_
  refine .bind (.forM (fun _ => .bind (.cancel _) fun _ => .ask _) _) fun _ => ?_
  refine .bind (.forM (fun _ => .bind (.cancel _) fun _ => .ask _) _) fun _ => ?_
  exact .bind (.forM .cancel _) fun _ => .setOwn _

/-- A handler that answers nothing makes a move without an answer. -/
theorem moves_silently
    {act : Act Liveness Unit}
    {happening : Happening}
    (yields : act.Yields own outside fun _ => own.Moves timers happening none) :
    (do
      act
      return none : Act Liveness (Option PeerEvent)).Yields own outside
        (own.Moves timers happening) := by
  refine yields.andThen fun _ effect next outside moves => ?_
  refine yields_pure ?_
  rw [Effect.append_nil]
  exact moves

end Liveness

/-- Every handler that answers has made one of the listed moves. -/
theorem Happening.handler_moves
    (happening : Happening)
    (own : Liveness)
    (outside : Outside) :
    happening.handler.Yields own outside (own.Moves outside.timers happening) := by
  cases happening with
  | start => exact Liveness.moves_silently Liveness.start_moves
  | connected conn id => exact Liveness.moves_silently Liveness.onOutboundConnected_moves
  | connectFailed id => exact Liveness.moves_silently Liveness.onConnectFailed_moves
  | accepted conn => exact Liveness.moves_silently Liveness.onAccepted_moves
  | request conn id => exact Liveness.onHeartbeatRequest_moves
  | response conn => exact Liveness.onHeartbeatResponse_moves
  | closed conn => exact (Liveness.onConnectionClosed_ends conn).mono fun _ _ _ => .ended
  | keepalive id => exact Liveness.moves_silently Liveness.onKeepalive_moves
  | peerTimeout id conn => exact Liveness.onPeerTimeout_moves
  | connectionTimeout conn => exact Liveness.moves_silently Liveness.onConnectionTimeout_moves
  | reconnect id => exact Liveness.moves_silently Liveness.onReconnect_moves
  | shutdown => exact Liveness.moves_silently Liveness.shutdown_moves

end Quorum
