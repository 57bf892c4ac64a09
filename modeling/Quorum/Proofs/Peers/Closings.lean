import Quorum.Proofs.Peers.Watch

/-!
# Closed connections

The node closes a connection when another one takes its place, when its peer changes its name or is
no member, and when a timeout passes.  Closing it does not stop a message that is already on its
way, and the protocol does not look at what it has closed: a heartbeat that arrives late identifies
the connection anew.  That is the only way in which a closed connection can be bound
(`Watch.rebound_only_by_heartbeat`).  A binding in turn ends only with its connection closed, by
this node or by the other side.
-/

namespace Quorum

open Act Liveness

/-- The node has asked for a connection to be closed. -/
def Outside.HasClosed (outside : Outside) (conn : ConnId) : Prop :=
  ∃ ms, (ms, Ask.close conn) ∈ outside.asked

/-- A heartbeat on a connection. -/
def Happening.Hears (happening : Happening) (conn : ConnId) : Prop :=
  (∃ id, happening = request conn id) ∨ happening = response conn

namespace Liveness

variable
    {timers : Scheduler TimerEvent}
    {own next : Liveness}
    {happening : Happening}
    {event : Option PeerEvent}
    {effect : Effect}
    {conn another : ConnId}
    {id : NodeId}

/-! ## What one move does -/

theorem Pursues.asks_eq (pursues : own.Pursues id effect next) : effect.asks = [] := by
  cases pursues <;> rfl

theorem Rearms.asks_eq (rearms : own.Rearms id conn effect next) : effect.asks = [] := by
  cases rearms <;> rfl

theorem Rearms.registry_eq (rearms : own.Rearms id conn effect next) :
    next.registry = own.registry := by
  cases rearms <;> rfl

theorem Ends.asks_eq (ends : own.Ends conn event effect next) : effect.asks = [] := by
  cases ends with
  | unanswered _ pursues | parted _ _ pursues => simp [pursues.asks_eq]
  | unbound _ _ => rfl

/-- The end of a connection binds nobody. -/
theorem Ends.get?_of_get?
    (ends : own.Ends conn event effect next)
    (bound : next.registry.get? id = some another) :
    own.registry.get? id = some another := by
  have removed {other : ConnId}
      (bound : (own.registry.removeConnection other).get? id = some another) :
      own.registry.get? id = some another := by
    rw [Registry.get?_removeConnection] at bound
    split at bound
    · cases bound
    · exact bound
  cases ends with
  | unanswered _ pursues =>
      obtain ⟨_, rfl⟩ := pursues.next_eq
      exact bound
  | unbound _ _ => exact removed bound
  | parted _ _ pursues =>
      obtain ⟨_, rfl⟩ := pursues.next_eq
      exact removed bound

/-- The end of a connection unbinds the peer that was bound to it, and nobody else. -/
theorem Ends.get?_or_eq
    (ends : own.Ends conn event effect next)
    (coherent : own.registry.Coherent)
    (bound : own.registry.get? id = some another) :
    next.registry.get? id = some another ∨ another = conn := by
  cases ends with
  | unanswered _ pursues =>
      obtain ⟨_, rfl⟩ := pursues.next_eq
      exact .inl bound
  | unbound _ nobody =>
      refine .inl ?_
      rw [Registry.get?_removeConnection, nobody, if_neg nofun]
      exact bound
  | @parted former _ _ _ known pursues =>
      obtain ⟨_, rfl⟩ := pursues.next_eq
      rw [Registry.get?_removeConnection]
      split
      · next same =>
        have held := coherent.bound conn id same
        rw [bound] at held
        exact .inr (Option.some.inj held)
      · exact .inl bound

/-- A peer that is identified on another connection has its old one closed. -/
theorem Identifies.closes_of_lost
    {claimed : NodeId}
    (identifies : own.Identifies another claimed effect next)
    (bound : own.registry.get? id = some conn) :
    next.registry.get? id = some conn ∨ .close conn ∈ effect.asks := by
  cases identifies with
  | bound _ =>
      rw [Registry.get?_bind]
      split
      · next same =>
        subst same
        by_cases again : conn = another
        · exact .inl (congrArg some again.symm)
        · exact .inr (Registry.mem_evicted.mpr ⟨conn, bound, again, rfl⟩)
      · exact .inl bound

theorem Identifies.unbound_of_closes
    {claimed : NodeId}
    (identifies : own.Identifies another claimed effect next)
    (closes : .close conn ∈ effect.asks) :
    next.registry.peerOf? conn = none := by
  cases identifies with
  | bound _ =>
      obtain ⟨previous, held, replaced, same⟩ := Registry.mem_evicted.mp closes
      cases same
      rw [Registry.peerOf?_bind, held, if_neg (by simpa using replaced), if_neg replaced,
        if_pos rfl]

/-- A connection is bound only when a heartbeat arrives on it. -/
theorem Moves.hears_of_bound
    (moves : own.Moves timers happening event effect next)
    (bound : next.registry.get? id = some conn) :
    own.registry.get? id = some conn ∨ happening.Hears conn := by
  cases moves with
  | failed pursues | lapsed _ pursues =>
      obtain ⟨_, rfl⟩ := pursues.next_eq
      exact .inl bound
  | expired current pursues =>
      obtain ⟨_, rfl⟩ := pursues.next_eq
      rw [Registry.get?_removeIfCurrent current] at bound
      split at bound
      · cases bound
      · exact .inl bound
  | redialled _ _ dials =>
      obtain ⟨_, rfl⟩ := dials.next_eq
      exact .inl bound
  | answered _ rearms | heard _ _ rearms | revived _ _ rearms =>
      rw [rearms.registry_eq] at bound
      exact .inl bound
  | recanted _ _ ends | ended ends => exact .inl (ends.get?_of_get? bound)
  | @identified other claimed _ _ _ _ identifies =>
      cases identifies with
      | bound _ =>
          rw [Registry.get?_bind] at bound
          split at bound
          · cases bound
            exact .inr (.inl ⟨claimed, rfl⟩)
          · exact .inl bound
  | acknowledged _ identifies =>
      cases identifies with
      | bound _ =>
          rw [Registry.get?_bind] at bound
          split at bound
          · cases bound
            exact .inr (.inr rfl)
          · exact .inl bound
  | greeted _ =>
      rw [Registry.get?_addAnonymous] at bound
      exact .inl bound
  | refused nobody _ =>
      rw [Registry.get?_removeConnection, nobody, if_neg nofun] at bound
      exact .inl bound
  | shut =>
      have all {conns : List ConnId} {registry : Registry}
          (bound : (conns.foldl Registry.removeConnection registry).get? id = some conn) :
          registry.get? id = some conn := by
        induction conns generalizing registry with
        | nil => exact bound
        | cons another rest ih =>
            have kept := ih bound
            rw [Registry.get?_removeConnection] at kept
            split at kept
            · cases kept
            · exact kept
      exact .inl (all bound)
  | _ => exact .inl bound

/-- A peer loses its connection only if the connection is closed, by this node or by the other
side. -/
theorem Moves.closes_of_lost
    (moves : own.Moves timers happening event effect next)
    (aligned : Aligned own.registry own.links)
    (bound : own.registry.get? id = some conn) :
    next.registry.get? id = some conn ∨ .close conn ∈ effect.asks ∨ happening = .closed conn := by
  cases moves with
  | failed pursues | lapsed _ pursues =>
      obtain ⟨_, rfl⟩ := pursues.next_eq
      exact .inl bound
  | @expired other former _ _ current pursues =>
      obtain ⟨_, rfl⟩ := pursues.next_eq
      rw [Registry.get?_removeIfCurrent current]
      split
      · next same =>
        rw [← same, bound] at current
        obtain rfl := Option.some.inj current
        exact .inr (.inl (by simp))
      · exact .inl bound
  | redialled _ _ dials =>
      obtain ⟨_, rfl⟩ := dials.next_eq
      exact .inl bound
  | answered _ rearms | heard _ _ rearms | revived _ _ rearms =>
      rw [rearms.registry_eq]
      exact .inl bound
  | recanted _ _ ends =>
      rcases ends.get?_or_eq aligned.coherent bound with kept | rfl
      · exact .inl kept
      · exact .inr (.inl (by simp))
  | ended ends =>
      rcases ends.get?_or_eq aligned.coherent bound with kept | rfl
      · exact .inl kept
      · exact .inr (.inr rfl)
  | @identified other _ _ _ _ _ identifies =>
      have unlisted : ({ own with anonymous := own.anonymous.erase other } : Liveness).registry.get?
          id = some conn := bound
      rcases identifies.closes_of_lost unlisted with kept | closed
      · exact .inl kept
      · exact .inr (.inl (by simp [closed]))
  | acknowledged _ identifies =>
      rcases identifies.closes_of_lost bound with kept | closed
      · exact .inl kept
      · exact .inr (.inl closed)
  | greeted _ =>
      rw [Registry.get?_addAnonymous]
      exact .inl bound
  | refused nobody _ =>
      rw [Registry.get?_removeConnection, nobody, if_neg nofun]
      exact .inl bound
  | shut =>
      obtain ⟨link, linked, rfl⟩ := aligned.exists_link bound
      refine .inr (.inl ?_)
      have listed : link ∈ own.links.values := Table.mem_values_iff.mpr ⟨id, linked⟩
      have closed := List.mem_map_of_mem (f := fun link : PeerLink => Ask.close link.conn) listed
      simp only [List.mem_append]
      exact .inl (.inl closed)
  | _ => exact .inl bound

/-- A connection that is closed in a move is bound to nobody afterwards, provided that each
connection is in one phase. -/
theorem Moves.unbound_of_closes
    (moves : own.Moves timers happening event effect next)
    (aligned : Aligned own.registry own.links)
    (apart : Apart own.registry own.dialing own.anonymous)
    (admits : own.Admits happening)
    (closes : .close conn ∈ effect.asks) :
    next.registry.get? id ≠ some conn := by
  have paired := (moves.apart apart admits).paired
  cases moves with
  | started dials =>
      obtain ⟨peer, same⟩ := dials.connects _ closes
      cases same
  | failed pursues => simp [pursues.asks_eq] at closes
  | answered _ rearms | heard _ _ rearms | revived _ _ rearms => simp [rearms.asks_eq] at closes
  | ended ends => simp [ends.asks_eq] at closes
  | redialled _ _ dials => cases dials <;> simp at closes
  | recanted bound _ ends =>
      simp only [Effect.asks_append, ends.asks_eq, List.append_nil, List.mem_singleton,
        Ask.close.injEq] at closes
      subst closes
      cases ends with
      | unanswered waiting _ =>
          have nobody := apart.unbound conn (Option.isSome_of_eq_some waiting)
          rw [nobody] at bound
          cases bound
      | unbound _ nobody =>
          rw [nobody] at bound
          cases bound
      | parted _ _ pursues =>
          obtain ⟨_, rfl⟩ := pursues.next_eq
          apply paired.get?_ne_of_unbound
          rw [Registry.peerOf?_removeConnection, if_pos rfl]
  | identified _ _ identifies =>
      simp only [Effect.asks_append, List.nil_append, List.mem_append, List.mem_singleton,
        reduceCtorEq, or_false] at closes
      exact paired.get?_ne_of_unbound (identifies.unbound_of_closes closes) id
  | acknowledged _ identifies =>
      exact paired.get?_ne_of_unbound (identifies.unbound_of_closes closes) id
  | refused _ _ =>
      simp only [List.mem_singleton, Ask.close.injEq] at closes
      subst closes
      apply paired.get?_ne_of_unbound
      rw [Registry.peerOf?_removeConnection, if_pos rfl]
  | expired current pursues =>
      simp only [Effect.asks_append, pursues.asks_eq, List.nil_append, List.append_nil,
        List.mem_singleton, Ask.close.injEq] at closes
      subst closes
      obtain ⟨_, rfl⟩ := pursues.next_eq
      apply paired.get?_ne_of_unbound
      rw [Registry.peerOf?_removeIfCurrent current, if_pos rfl]
  | lapsed waiting pursues =>
      simp only [Effect.asks_append, pursues.asks_eq, List.append_nil, List.mem_singleton,
        Ask.close.injEq] at closes
      subst closes
      obtain ⟨_, rfl⟩ := pursues.next_eq
      apply paired.get?_ne_of_unbound
      exact apart.unbound conn (Option.isSome_of_eq_some waiting)
  | dismissed _ listed =>
      simp only [List.mem_singleton, Ask.close.injEq] at closes
      subst closes
      apply paired.get?_ne_of_unbound
      exact aligned.coherent.named conn listed
  | shut =>
      rw [get?_removeAll apart.paired]
      exact nofun
  | _ => simp at closes

end Liveness

/-! ## Runs -/

theorem Outside.Turns.hasClosed_iff
    {before after : Outside}
    {effect : Effect}
    (turns : before.Turns effect after)
    {conn : ConnId} :
    after.HasClosed conn ↔ before.HasClosed conn ∨ .close conn ∈ effect.asks := by
  unfold HasClosed
  constructor
  · rintro ⟨ms, asked⟩
    exact (turns.mem_asked.mp asked).imp (fun old => ⟨ms, old⟩) And.right
  · rintro (⟨ms, old⟩ | new)
    · exact ⟨ms, turns.mem_asked.mpr (.inl old)⟩
    · exact ⟨before.clockMs, turns.mem_asked.mpr (.inr ⟨rfl, new⟩)⟩

theorem Rests.hasClosed_iff
    {stage after : Stage Liveness}
    (rests : Rests stage after)
    {conn : ConnId} :
    after.outside.HasClosed conn ↔ stage.outside.HasClosed conn := by
  unfold Outside.HasClosed
  rw [rests.asked_eq]

section Runs

variable
    {config : NodeConfig}
    {history : List Occurrence}
    {stage : Stage Liveness}
    {conn : ConnId}
    {id : NodeId}

/-- A connection that is bound although the node has closed it was bound by a heartbeat that arrived
after the closing. -/
theorem Watch.late_of_closed
    (watch : Watch config history stage)
    (fresh : Fresh (happenings history))
    (bound : stage.own.registry.get? id = some conn)
    (closed : stage.outside.HasClosed conn) :
    ∃ occurrence ∈ history, occurrence.happening.Hears conn ∧
      occurrence.stage.outside.HasClosed conn := by
  induction watch generalizing id with
  | begun _ _ _ unasked =>
      obtain ⟨ms, asked⟩ := closed
      rw [unasked] at asked
      cases asked
  | handled watch _ performed ih =>
      obtain ⟨effect, turns, moves⟩ := Prompt.moves performed
      have phased := watch.phased fresh.2
      rcases turns.hasClosed_iff.mp closed with before | now
      · rcases moves.hears_of_bound bound with old | hears
        · obtain ⟨occurrence, listed, late⟩ := ih fresh.2 old before
          exact ⟨occurrence, List.mem_cons_of_mem _ listed, late⟩
        · exact ⟨_, List.mem_cons_self, hears, before⟩
      · exact absurd bound
          (moves.unbound_of_closes phased.aligned phased.apart (phased.admits fresh.1) now)
  | rested _ rests ih =>
      rw [rests.own_eq] at bound
      exact ih fresh bound (rests.hasClosed_iff.mp closed)

/-- Every connection that was ever bound to a peer is bound to it still, or is closed. -/
theorem Watch.closes_of_lost
    (watch : Watch config history stage)
    (fresh : Fresh (happenings history))
    {occurrence : Occurrence}
    (listed : occurrence ∈ history)
    (bound : occurrence.stage.own.registry.get? id = some conn) :
    stage.own.registry.get? id = some conn ∨ stage.outside.HasClosed conn ∨
      .closed conn ∈ happenings history := by
  induction watch with
  | begun _ _ _ _ => cases listed
  | @handled history earlier _ happening _ _ _ watch _ performed ih =>
      obtain ⟨effect, turns, moves⟩ := Prompt.moves performed
      have before : earlier.own.registry.get? id = some conn ∨ earlier.outside.HasClosed conn ∨
          .closed conn ∈ happenings history := by
        rcases List.mem_cons.mp listed with rfl | past
        · exact .inl bound
        · exact ih fresh.2 past
      rcases before with old | closed | reported
      · rcases moves.closes_of_lost (watch.phased fresh.2).aligned old with kept | closes | same
        · exact .inl kept
        · exact .inr (.inl (turns.hasClosed_iff.mpr (.inr closes)))
        · exact .inr (.inr (same ▸ List.mem_cons_self))
      · exact .inr (.inl (turns.hasClosed_iff.mpr (.inl closed)))
      · exact .inr (.inr (List.mem_cons_of_mem _ reported))
  | rested _ rests ih =>
      rw [rests.own_eq, rests.hasClosed_iff]
      exact ih fresh listed

/-- Of all connections that were bound to a peer, those that are not bound to it any longer are
closed; and a closed connection is bound again only by a heartbeat that arrived after the
closing. -/
theorem Watch.rebound_only_by_heartbeat
    (watch : Watch config history stage)
    (fresh : Fresh (happenings history)) :
    (∀ id conn, stage.own.registry.get? id = some conn → stage.outside.HasClosed conn →
      ∃ occurrence ∈ history, occurrence.happening.Hears conn ∧
        occurrence.stage.outside.HasClosed conn) ∧
    (∀ occurrence ∈ history, ∀ id conn, occurrence.stage.own.registry.get? id = some conn →
      stage.own.registry.get? id = some conn ∨ stage.outside.HasClosed conn ∨
        .closed conn ∈ happenings history) :=
  ⟨fun _ _ => watch.late_of_closed fresh, fun _ listed _ _ => watch.closes_of_lost fresh listed⟩

end Runs

namespace Relapse

/-! ### A late request

A peer says who it is on one connection and then on another one, for which the node closes the
first. Then a request arrives that was sent on the first connection before. -/

def config : NodeConfig where
  id := "1"
  peers := [⟨"2", "", 0⟩]
  timer := ⟨1000, 4, 4⟩

def timers : Scheduler TimerEvent := (Scheduler.start config.timer 0).toOption.getD default

def fresh : Stage Liveness where
  own := Liveness.ofConfig config
  outside := { clockMs := 0, timers, draws := fun _ => 0 }

def first : Stage Liveness := fresh.after (.request ⟨1⟩ "2")

def second : Stage Liveness := first.after (.request ⟨2⟩ "2")

def third : Stage Liveness := second.after (.request ⟨1⟩ "2")

def history : List Occurrence :=
  [⟨second, .request ⟨1⟩ "2", false⟩, ⟨first, .request ⟨2⟩ "2", false⟩,
    ⟨fresh, .request ⟨1⟩ "2", false⟩]

theorem watch : Watch config history third := by
  have made : Scheduler.start config.timer 0 = .ok timers := by decide +kernel
  obtain ⟨sound, silent⟩ := Scheduler.start_sound made
  have begun : Watch config [] fresh := .begun rfl sound silent rfl
  have names := begun.call (.request ⟨1⟩ "2") (some (.connected "2")) rfl
    (by decide +kernel)
  have moves := names.call (.request ⟨2⟩ "2") none rfl (by decide +kernel)
  exact moves.call (.request ⟨1⟩ "2") none rfl (by decide +kernel)

theorem fresh_history : Fresh (happenings history) := by
  simp [Fresh, happenings, history, Happening.IsNovel]

theorem bound : third.own.registry.get? "2" = some ⟨1⟩ := by decide +kernel

theorem closed : third.outside.HasClosed ⟨1⟩ :=
  ⟨0, by decide +kernel⟩

end Relapse

/-- The request on the first connection arrived after its closing. -/
theorem Watch.rebound_only_by_heartbeat_relapse :
    ∃ occurrence ∈ Relapse.history, occurrence.happening.Hears ⟨1⟩ ∧
      occurrence.stage.outside.HasClosed ⟨1⟩ :=
  (Watch.rebound_only_by_heartbeat Relapse.watch Relapse.fresh_history).1 "2" ⟨1⟩ Relapse.bound
    Relapse.closed

/-- A connection that the node has closed can be bound. -/
theorem Watch.rebinds_closed :
    ¬ ∀ (config : NodeConfig) (history : List Occurrence) (stage : Stage Liveness),
      Watch config history stage → Fresh (happenings history) →
        ∀ id conn, stage.own.registry.get? id = some conn → ¬ stage.outside.HasClosed conn := by
  intro never
  exact never Relapse.config Relapse.history Relapse.third Relapse.watch Relapse.fresh_history "2"
    ⟨1⟩ Relapse.bound Relapse.closed

end Quorum
