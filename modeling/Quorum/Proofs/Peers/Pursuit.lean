import Quorum.Proofs.Peers.Watch

/-!
# Peers to be dialled

A peer that this node dials is connected, or a connect to it is in flight, or a connection opened to
it waits for its answer, or it is to be dialled again.  Each of these phases hands the peer over to
another one when it ends, with one exception: a caller that claims to be somebody else on a
connection that waits for the answer of a peer ends the wait, and the peer may be in no phase any
longer.  The same happens when that connection is reported once more, as opened to somebody else.
Apart from that no peer is forgotten (`Watch.lost_only_to_usurper`).
-/

namespace Quorum

open Act Liveness

namespace Liveness

variable
    {timers : Scheduler TimerEvent}
    {own next : Liveness}
    {happening : Happening}
    {event : Option PeerEvent}
    {effect : Effect}
    {conn : ConnId}
    {id peer : NodeId}

/-- A peer that this node dials is in one of the phases of dialling, or connected. -/
def IsPursued (own : Liveness) (peer : NodeId) : Prop :=
  (own.registry.get? peer).isSome ∨ peer ∈ own.inFlight ∨
    (∃ conn pending, own.dialing.get? conn = some pending ∧ pending.id = peer) ∨
      (own.reconnecting.get? peer).isSome

/-- The connection to a peer is taken away while the node waits for the answer: a caller on it says
to be somebody else, or it is reported as opened to somebody else. -/
def Usurps (own : Liveness) (happening : Happening) (peer : NodeId) : Prop :=
  ∃ conn pending id, own.dialing.get? conn = some pending ∧ pending.id = peer ∧ id ≠ peer ∧
    (happening = .request conn id ∨ happening = .connected conn id)

namespace IsPursued

/-- A peer stays pursued if each of its phases lasts. -/
theorem mono
    (pursued : own.IsPursued peer)
    (connected : (own.registry.get? peer).isSome → (next.registry.get? peer).isSome)
    (flying : peer ∈ own.inFlight → peer ∈ next.inFlight)
    (waiting : ∀ conn pending, own.dialing.get? conn = some pending → pending.id = peer →
      next.dialing.get? conn = some pending)
    (idle : (own.reconnecting.get? peer).isSome → (next.reconnecting.get? peer).isSome) :
    next.IsPursued peer := by
  rcases pursued with held | flies | ⟨conn, pending, waits, same⟩ | armed
  · exact .inl (connected held)
  · exact .inr (.inl (flying flies))
  · exact .inr (.inr (.inl ⟨conn, pending, waiting conn pending waits same, same⟩))
  · exact .inr (.inr (.inr (idle armed)))

/-- Another registry does not matter, as long as the peer keeps its connection. -/
theorem withRegistry
    {registry : Registry}
    {links : Table NodeId PeerLink}
    {anonymous : Table ConnId Handle}
    (pursued : own.IsPursued peer)
    (kept : registry.get? peer = own.registry.get? peer) :
    ({ own with registry, links, anonymous } : Liveness).IsPursued peer := by
  unfold IsPursued at pursued ⊢
  rw [kept]
  exact pursued

/-- The end of a wait matters only to the peer that was waited for. -/
theorem undial
    (pursued : own.IsPursued peer)
    (other : ∀ pending, own.dialing.get? conn = some pending → pending.id ≠ peer) :
    ({ own with dialing := own.dialing.erase conn } : Liveness).IsPursued peer := by
  refine pursued.mono (fun held => held) (fun flies => flies) ?_ fun armed => armed
  intro another pending waiting awaited
  rw [Table.get?_erase, if_neg]
  · exact waiting
  · rintro rfl
    exact other pending waiting awaited

/-- A connect that has been answered matters only to the peer that it was for. -/
theorem landed
    (pursued : own.IsPursued peer)
    (other : id ≠ peer) :
    ({ own with inFlight := own.inFlight.filter (· ≠ id) } : Liveness).IsPursued peer := by
  refine pursued.mono (fun held => held) ?_ (fun _ _ waiting _ => waiting) fun armed => armed
  exact fun flies => List.mem_filter.mpr ⟨flies, decide_eq_true other.symm⟩

/-- The end of a delay matters only to the peer that was to be dialled after it. -/
theorem unschedule
    (pursued : own.IsPursued peer)
    (other : id ≠ peer) :
    ({ own with reconnecting := own.reconnecting.erase id } : Liveness).IsPursued peer := by
  refine pursued.mono (fun held => held) (fun flies => flies) (fun _ _ waiting _ => waiting) ?_
  intro armed
  rw [Table.get?_erase, if_neg other.symm]
  exact armed

theorem pursues
    (pursued : own.IsPursued peer)
    (pursues : own.Pursues id effect next) :
    next.IsPursued peer := by
  cases pursues with
  | scheduled _ _ =>
      refine pursued.mono (fun held => held) (fun flies => flies) (fun _ _ waiting _ => waiting) ?_
      intro armed
      rw [Table.get?_insert]
      split
      · rfl
      · exact armed
  | spared _ => exact pursued

/-- Whoever is to be dialled again is pursued. -/
theorem of_pursues
    (pursues : own.Pursues peer effect next)
    (target : (own.target? peer).isSome) :
    next.IsPursued peer := by
  cases pursues with
  | scheduled _ _ =>
      exact .inr (.inr (.inr (Option.isSome_of_eq_some (Table.get?_insert_self ..))))
  | spared needless =>
      rcases needless with unknown | armed
      · rw [unknown] at target
        cases target
      · exact .inr (.inr (.inr armed))

theorem rearms
    (pursued : own.IsPursued peer)
    (rearms : own.Rearms id conn effect next) :
    next.IsPursued peer := by
  cases rearms <;> exact pursued

theorem ends
    (pursued : own.IsPursued peer)
    (target : (own.target? peer).isSome)
    (ends : own.Ends conn event effect next) :
    next.IsPursued peer := by
  cases ends with
  | @unanswered pending _ _ waiting pursues =>
      by_cases same : pending.id = peer
      · rw [same] at pursues
        exact of_pursues pursues target
      · refine (pursued.undial fun pending' waiting' => ?_).pursues pursues
        rw [waiting] at waiting'
        cases waiting'
        exact same
  | unbound _ nobody =>
      refine pursued.withRegistry ?_
      rw [Registry.get?_removeConnection, nobody, if_neg nofun]
  | @parted former _ _ _ bound pursues =>
      by_cases same : former = peer
      · rw [same] at pursues
        exact of_pursues pursues target
      · refine (pursued.withRegistry ?_).pursues pursues
        rw [Registry.get?_removeConnection, bound, if_neg (by simpa using same)]

/-- A peer that is identified is connected, and it matters to nobody else, unless somebody else was
waited for on the connection. -/
theorem identifies
    (pursued : own.IsPursued peer)
    (identifies : own.Identifies conn id effect next) :
    next.IsPursued peer ∨
      ∃ pending, own.dialing.get? conn = some pending ∧ pending.id = peer ∧ id ≠ peer := by
  cases identifies with
  | @bound keepalive handle _ =>
      by_cases same : peer = id
      · refine .inl (.inl ?_)
        rw [Registry.get?_bind, if_pos same]
        rfl
      · by_cases usurped : ∃ pending, own.dialing.get? conn = some pending ∧ pending.id = peer
        · obtain ⟨pending, waiting, awaited⟩ := usurped
          exact .inr ⟨pending, waiting, awaited, Ne.symm same⟩
        · have kept := (pursued.undial fun pending waiting awaited =>
            usurped ⟨pending, waiting, awaited⟩).unschedule (Ne.symm same)
          refine .inl (kept.withRegistry ?_)
          rw [Registry.get?_bind, if_neg same]

end IsPursued

/-- A peer that this node dials stays pursued, unless its connection is usurped. -/
theorem Moves.pursues
    (moves : own.Moves timers happening event effect next)
    (pursued : own.IsPursued peer)
    (target : (own.target? peer).isSome)
    (running : happening ≠ .shutdown) :
    next.IsPursued peer ∨ own.Usurps happening peer := by
  cases moves with
  | started dials =>
      exact .inl (pursued.mono (fun held => held) (fun flies => dials.kept flies)
        (fun _ _ waiting _ => waiting) fun armed => armed)
  | @opened conn id handle =>
      by_cases same : id = peer
      · exact .inl (.inr (.inr (.inl ⟨conn, ⟨id, handle⟩, Table.get?_insert_self .., same⟩)))
      · by_cases usurped : ∃ pending, own.dialing.get? conn = some pending ∧ pending.id = peer
        · obtain ⟨pending, waiting, awaited⟩ := usurped
          exact .inr ⟨conn, pending, id, waiting, awaited, same, .inr rfl⟩
        · refine .inl ((pursued.landed same).mono (fun held => held) (fun flies => flies) ?_
            fun armed => armed)
          intro another pending waiting awaited
          rw [Table.get?_insert, if_neg]
          · exact waiting
          · rintro rfl
            exact usurped ⟨pending, waiting, awaited⟩
  | @failed id _ _ pursues =>
      refine .inl ?_
      by_cases same : id = peer
      · rw [same] at pursues
        exact .of_pursues pursues target
      · exact (pursued.landed same).pursues pursues
  | answered _ rearms | heard _ _ rearms | revived _ _ rearms => exact .inl (pursued.rearms rearms)
  | recanted _ _ ends | ended ends => exact .inl (pursued.ends target ends)
  | @identified conn id _ _ _ _ identifies =>
      have unlisted : ({ own with anonymous := own.anonymous.erase conn } : Liveness).IsPursued
          peer := pursued
      refine (unlisted.identifies identifies).imp_right ?_
      rintro ⟨pending, waiting, awaited, other⟩
      exact ⟨conn, pending, id, waiting, awaited, other, .inl rfl⟩
  | acknowledged waiting identifies =>
      refine .inl ((pursued.identifies identifies).resolve_right ?_)
      rintro ⟨pending, waiting', awaited, other⟩
      rw [waiting] at waiting'
      cases waiting'
      exact other awaited
  | greeted _ =>
      refine .inl (pursued.withRegistry ?_)
      rw [Registry.get?_addAnonymous]
  | refused nobody _ =>
      refine .inl (pursued.withRegistry ?_)
      rw [Registry.get?_removeConnection, nobody, if_neg nofun]
  | @expired id _ _ _ current pursues =>
      refine .inl ?_
      by_cases same : id = peer
      · rw [same] at pursues
        exact .of_pursues pursues target
      · refine (pursued.withRegistry ?_).pursues pursues
        rw [Registry.get?_removeIfCurrent current, if_neg (Ne.symm same)]
  | @lapsed conn pending _ _ waiting pursues =>
      refine .inl ?_
      by_cases same : pending.id = peer
      · rw [same] at pursues
        exact .of_pursues pursues target
      · refine (pursued.undial fun pending' waiting' => ?_).pursues pursues
        rw [waiting] at waiting'
        cases waiting'
        exact same
  | @redialled id _ _ gone unanswered dials =>
      refine .inl ?_
      by_cases same : id = peer
      · subst same
        cases dials with
        | dialled _ _ => exact .inr (.inl List.mem_insert_self)
        | spared needless =>
            rcases needless with unknown | flies
            · rw [show own.target? id = none from unknown] at target
              cases target
            · exact .inr (.inl flies)
      · have kept := pursued.unschedule same
        cases dials with
        | dialled _ _ =>
            exact kept.mono (fun held => held) List.mem_insert_of_mem (fun _ _ waiting _ => waiting)
              fun armed => armed
        | spared _ => exact kept
  | @reunited id met =>
      refine .inl ?_
      by_cases same : id = peer
      · subst same
        rcases met with connected | ⟨conn, pending, waiting, awaited⟩
        · exact .inl connected
        · exact .inr (.inr (.inl ⟨conn, pending, waiting, awaited⟩))
      · exact pursued.unschedule same
  | shut => exact absurd rfl running
  | _ => exact .inl pursued

/-- At the start every peer that this node dials is in the phase of dialling. -/
theorem Moves.pursues_of_start
    {target : Peer}
    (moves : own.Moves timers .start event effect next)
    (listed : target ∈ own.dialTargets) :
    next.IsPursued target.id := by
  cases moves with
  | started dials => exact .inr (.inl (dials.dialled listed (target?_isSome listed)))

end Liveness

/-! ## Runs -/

section Runs

variable {config : NodeConfig} {history : List Occurrence} {stage : Stage Liveness} {peer : NodeId}

theorem Watch.settings_eq (watch : Watch config history stage) :
    stage.own.settings = (Liveness.ofConfig config).settings := by
  induction watch with
  | begun own_eq _ _ _ => rw [own_eq]
  | handled _ _ performed ih =>
      obtain ⟨_, _, moves⟩ := Prompt.moves performed
      rw [moves.settings_eq, ih]
  | rested _ rests ih => rw [rests.own_eq, ih]

/-- The peers to be dialled stay the same. -/
theorem Watch.dialTargets_eq (watch : Watch config history stage) :
    stage.own.dialTargets = config.dialTargets :=
  congrArg Settings.dialTargets watch.settings_eq

/-- Until the shutdown the links are those of the registry, whatever the transport does. -/
theorem Watch.aligned
    (watch : Watch config history stage)
    (running : .shutdown ∉ happenings history) :
    Aligned stage.own.registry stage.own.links := by
  induction watch with
  | begun own_eq _ _ _ =>
      rw [own_eq]
      exact aligned_ofConfig
  | handled _ _ performed ih =>
      obtain ⟨_, _, moves⟩ := Prompt.moves performed
      obtain ⟨calm, past⟩ := not_or.mp (mt List.mem_cons.mpr running)
      exact moves.aligned (ih past) fun shuts => absurd shuts.symm calm
  | rested _ rests ih =>
      rw [rests.own_eq]
      exact ih running

/-- Until the shutdown no timer but that of a handshake can be missing. -/
theorem Watch.tended
    (watch : Watch config history stage)
    (running : .shutdown ∉ happenings history)
    (intact : stage.outside.timers.intact = true) :
    Tended False stage.outside.timers stage.own := by
  induction watch with
  | begun own_eq sound silent _ => exact tended_ofConfig own_eq sound silent
  | handled watch prompt performed ih =>
      obtain ⟨effect, turns, moves⟩ := Prompt.moves performed
      have past := (not_or.mp (mt List.mem_cons.mpr running)).2
      rw [turns.works.intact_eq, prompt.intact_eq] at intact
      exact prompt.tended turns moves (ih past intact) (watch.aligned past) False.elim False.elim
  | rested _ rests ih => exact rests.tended (ih running (rests.intact intact)) intact

/-- A peer that is not pursued any longer has been lost to a usurper. -/
theorem Watch.usurped_of_lost
    (watch : Watch config history stage)
    (running : .shutdown ∉ happenings history)
    (started : .start ∈ happenings history)
    {target : Peer}
    (listed : target ∈ config.dialTargets)
    (lost : ¬ stage.own.IsPursued target.id) :
    ∃ later occurrence earlier, history = later ++ occurrence :: earlier ∧
      occurrence.stage.own.IsPursued target.id ∧
      occurrence.stage.own.Usurps occurrence.happening target.id ∧
      ∀ next ∈ later, ¬ next.stage.own.IsPursued target.id := by
  induction watch with
  | begun _ _ _ _ => cases started
  | @handled history before _ happening spurious _ _ watch _ performed ih =>
      obtain ⟨_, _, moves⟩ := Prompt.moves performed
      obtain ⟨calm, past⟩ := not_or.mp (mt List.mem_cons.mpr running)
      have known : target ∈ before.own.dialTargets := watch.dialTargets_eq ▸ listed
      by_cases pursued : before.own.IsPursued target.id
      · have usurps := (moves.pursues pursued (target?_isSome known) (Ne.symm calm)).resolve_left
          lost
        exact ⟨[], ⟨before, happening, spurious⟩, history, rfl, pursued, usurps,
          List.forall_mem_nil _⟩
      · rcases List.mem_cons.mp started with rfl | begun
        · exact absurd (moves.pursues_of_start known) lost
        · obtain ⟨later, occurrence, earlier, rfl, rest⟩ := ih past begun pursued
          exact ⟨_ :: later, occurrence, earlier, rfl, rest.1, rest.2.1,
            List.forall_mem_cons.mpr ⟨pursued, rest.2.2⟩⟩
  | rested _ rests ih =>
      rw [rests.own_eq] at lost
      exact ih running started lost

/-- A peer that this node dials is connected, or a connect to it is in flight, or a connection waits
for its answer, or it is to be dialled again and the timer for it runs; unless its connection was
usurped, and it has been lost since. -/
theorem Watch.lost_only_to_usurper
    (watch : Watch config history stage)
    (running : .shutdown ∉ happenings history)
    (started : .start ∈ happenings history) :
    (∀ target ∈ config.dialTargets, stage.own.IsPursued target.id ∨
      ∃ later occurrence earlier, history = later ++ occurrence :: earlier ∧
        occurrence.stage.own.IsPursued target.id ∧
        occurrence.stage.own.Usurps occurrence.happening target.id ∧
        ∀ next ∈ later, ¬ next.stage.own.IsPursued target.id) ∧
    (stage.outside.timers.intact = true →
      ∀ id handle, stage.own.reconnecting.get? id = some handle →
        stage.own.redialDeadline id handle ∈ stage.outside.timers.deadlines) := by
  refine ⟨fun target listed => ?_, fun intact id handle armed => ?_⟩
  · by_cases pursued : stage.own.IsPursued target.id
    · exact .inl pursued
    · exact .inr (watch.usurped_of_lost running started listed pursued)
  · refine (watch.tended running intact).mem_timers ?_ nofun
    exact mem_deadlines.mpr (.inr (.inr (.inr ⟨id, handle, armed, rfl⟩)))

end Runs

namespace Decoy

/-! ### A caller on a dialled connection

The node has opened a connection to one peer, and on this connection somebody says to be another
peer. -/

def fresh : Stage Liveness := Trio.fresh

def started : Stage Liveness := fresh.after .start

def opened : Stage Liveness := started.after (.connected ⟨1⟩ "1")

def usurped : Stage Liveness := opened.after (.request ⟨1⟩ "2")

def history : List Occurrence :=
  [⟨opened, .request ⟨1⟩ "2", false⟩, ⟨started, .connected ⟨1⟩ "1", false⟩,
    ⟨fresh, .start, false⟩]

theorem watch : Watch Trio.config history usurped := by
  have made : Scheduler.start Trio.config.timer 0 = .ok Trio.timers := by decide +kernel
  obtain ⟨sound, silent⟩ := Scheduler.start_sound made
  have begun : Watch Trio.config [] fresh := .begun rfl sound silent rfl
  have starts := begun.call .start none rfl (by decide +kernel)
  have opens := starts.call (.connected ⟨1⟩ "1") none rfl
    (by decide +kernel)
  exact opens.call (.request ⟨1⟩ "2") (some (.connected "2")) rfl
    (by decide +kernel)

/-- The first peer was to be dialled, and is in no phase any longer. -/
theorem lost : ¬ usurped.own.IsPursued "1" := by
  rintro (held | flies | ⟨conn, pending, waiting, _⟩ | armed)
  · revert held
    decide +kernel
  · revert flies
    decide +kernel
  · have idle : usurped.own.dialing.entries = [] := by decide +kernel
    rw [← Table.mem_entries_iff, idle] at waiting
    cases waiting
  · revert armed
    decide +kernel

end Decoy

/-- The peer that is lost was pursued until its connection was usurped. -/
theorem Watch.lost_only_to_usurper_decoy :
    ∃ later occurrence earlier, Decoy.history = later ++ occurrence :: earlier ∧
      occurrence.stage.own.IsPursued "1" ∧
      occurrence.stage.own.Usurps occurrence.happening "1" ∧
      ∀ next ∈ later, ¬ next.stage.own.IsPursued "1" := by
  have kept := (Watch.lost_only_to_usurper Decoy.watch (by decide) (by decide)).1
  exact (kept ⟨"1", "", 0⟩ (by decide)).resolve_left Decoy.lost

/-- A peer that is to be dialled can be forgotten. -/
theorem Watch.forgets_target :
    ¬ ∀ (config : NodeConfig) (history : List Occurrence) (stage : Stage Liveness),
      Watch config history stage → .shutdown ∉ happenings history →
        .start ∈ happenings history → ∀ target ∈ config.dialTargets,
          stage.own.IsPursued target.id := by
  intro never
  exact Decoy.lost (never Trio.config Decoy.history Decoy.usurped Decoy.watch (by decide)
    (by decide) ⟨"1", "", 0⟩ (by decide))

end Quorum
