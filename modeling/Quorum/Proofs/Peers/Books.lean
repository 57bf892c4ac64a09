import Quorum.Proofs.Peers.Moves

/-!
# The timers that the protocol wants

`Liveness.deadlines` are the timers that a state of the protocol calls for: two for a link that this
node keeps alive and one for any other link, and one for each connection in the dialling phase, each
anonymous connection, and each peer that is to be dialled again.

A move gives up some of them and takes on others (`Moves.exchanges`).  It releases the handles of
those it gives up, apart from a few that lapse: the timer that has just fired, and a handshake that
is begun anew.
-/

namespace Quorum.Liveness

variable {own next : Liveness} {conn : ConnId} {id : NodeId}

/-! ## What a state calls for -/

/-- The timers of a link. -/
def linkDeadlines (own : Liveness) (id : NodeId) (link : PeerLink) : List (Deadline TimerEvent) :=
  link.keepalive.toList.map (own.beatDeadline id) ++
    link.timeout.toList.map (own.peerDeadline id link.conn)

/-- The timers that a state of the protocol calls for. -/
def deadlines (own : Liveness) : List (Deadline TimerEvent) :=
  (own.links.entries.flatMap fun entry => own.linkDeadlines entry.1 entry.2) ++
    ((own.dialing.entries.map fun entry => own.handshakeDeadline entry.1 entry.2.timeout) ++
      ((own.anonymous.entries.map fun entry => own.handshakeDeadline entry.1 entry.2) ++
        own.reconnecting.entries.map fun entry => own.redialDeadline entry.1 entry.2))

/-- The timers of a peer that is linked. -/
def linkDue (own : Liveness) (id : NodeId) : List (Deadline TimerEvent) :=
  (own.links.entriesAt id).flatMap fun entry => own.linkDeadlines entry.1 entry.2

/-- The timer of a connection in the dialling phase. -/
def dialDue (own : Liveness) (conn : ConnId) : List (Deadline TimerEvent) :=
  (own.dialing.entriesAt conn).map fun entry => own.handshakeDeadline entry.1 entry.2.timeout

/-- The timer of an anonymous connection. -/
def anonymousDue (own : Liveness) (conn : ConnId) : List (Deadline TimerEvent) :=
  (own.anonymous.entriesAt conn).map fun entry => own.handshakeDeadline entry.1 entry.2

/-- The timer of a peer that waits to be dialled again. -/
def redialDue (own : Liveness) (id : NodeId) : List (Deadline TimerEvent) :=
  (own.reconnecting.entriesAt id).map fun entry => own.redialDeadline entry.1 entry.2

theorem handles_linkDeadlines (own : Liveness) (id : NodeId) (link : PeerLink) :
    (own.linkDeadlines id link).map Deadline.handle = link.handles := by
  simp [linkDeadlines, PeerLink.handles, beatDeadline, peerDeadline, Function.comp_def]

theorem handles_linkDue (own : Liveness) (id : NodeId) :
    (own.linkDue id).map Deadline.handle = own.linkHandles id := by
  simp [linkDue, linkHandles, List.map_flatMap, handles_linkDeadlines]

theorem handles_dialDue (own : Liveness) (conn : ConnId) :
    (own.dialDue conn).map Deadline.handle = own.dialHandles conn := by
  simp [dialDue, dialHandles, handshakeDeadline, Function.comp_def]

theorem handles_anonymousDue (own : Liveness) (conn : ConnId) :
    (own.anonymousDue conn).map Deadline.handle = own.anonymousHandles conn := by
  simp [anonymousDue, anonymousHandles, handshakeDeadline, Function.comp_def]

theorem handles_redialDue (own : Liveness) (id : NodeId) :
    (own.redialDue id).map Deadline.handle = own.redialHandles id := by
  simp [redialDue, redialHandles, redialDeadline, Function.comp_def]

theorem mem_linkDeadlines {link : PeerLink} {deadline : Deadline TimerEvent} :
    deadline ∈ own.linkDeadlines id link ↔
      (∃ handle, link.keepalive = some handle ∧ deadline = own.beatDeadline id handle) ∨
      ∃ handle, link.timeout = some handle ∧ deadline = own.peerDeadline id link.conn handle := by
  simp [linkDeadlines, eq_comm (b := deadline)]

theorem mem_deadlines {deadline : Deadline TimerEvent} :
    deadline ∈ own.deadlines ↔
      (∃ id link, own.links.get? id = some link ∧ deadline ∈ own.linkDeadlines id link) ∨
      (∃ conn pending, own.dialing.get? conn = some pending ∧
        deadline = own.handshakeDeadline conn pending.timeout) ∨
      (∃ conn handle, own.anonymous.get? conn = some handle ∧
        deadline = own.handshakeDeadline conn handle) ∨
      ∃ id handle, own.reconnecting.get? id = some handle ∧
        deadline = own.redialDeadline id handle := by
  simp only [deadlines, List.mem_append, List.mem_flatMap, List.mem_map, Prod.exists,
    Table.mem_entries_iff, eq_comm (b := deadline)]

/-- The timeout of a link is called for. -/
theorem mem_deadlines_of_timeout
    {link : PeerLink}
    {handle : Handle}
    (linked : own.links.get? id = some link)
    (timeout : link.timeout = some handle) :
    own.peerDeadline id link.conn handle ∈ own.deadlines :=
  mem_deadlines.mpr (.inl ⟨id, link, linked, mem_linkDeadlines.mpr (.inr ⟨handle, timeout, rfl⟩)⟩)

/-- The recurring request on a link is called for. -/
theorem mem_deadlines_of_keepalive
    {link : PeerLink}
    {handle : Handle}
    (linked : own.links.get? id = some link)
    (keepalive : link.keepalive = some handle) :
    own.beatDeadline id handle ∈ own.deadlines :=
  mem_deadlines.mpr
    (.inl ⟨id, link, linked, mem_linkDeadlines.mpr (.inl ⟨handle, keepalive, rfl⟩)⟩)

section Inversion

variable {deadline : Deadline TimerEvent} (listed : deadline ∈ own.deadlines)

include listed

/-- Every timer that a state calls for means something to the protocol. -/
theorem isSome_ofTimer : (Happening.ofTimer deadline.event).isSome := by
  rcases mem_deadlines.mp listed with ⟨_, _, _, member⟩ | ⟨_, _, _, rfl⟩ | ⟨_, _, _, rfl⟩ |
    ⟨_, _, _, rfl⟩
  · rcases mem_linkDeadlines.mp member with ⟨_, _, rfl⟩ | ⟨_, _, rfl⟩ <;> rfl
  all_goals rfl

theorem of_peerKeepAlive (event : deadline.event = .peerKeepAlive id) :
    deadline.recurs = true := by
  rcases mem_deadlines.mp listed with ⟨_, _, _, member⟩ | ⟨_, _, _, rfl⟩ | ⟨_, _, _, rfl⟩ |
    ⟨_, _, _, rfl⟩
  · rcases mem_linkDeadlines.mp member with ⟨_, _, rfl⟩ | ⟨_, _, rfl⟩
    · rfl
    · cases event
  all_goals cases event

theorem of_peerTimeout (event : deadline.event = .peerTimeout id conn) :
    deadline.recurs = false ∧
      ∃ link, own.links.get? id = some link ∧ link.conn = conn ∧
        link.timeout = some deadline.handle := by
  rcases mem_deadlines.mp listed with ⟨_, link, linked, member⟩ | ⟨_, _, _, rfl⟩ | ⟨_, _, _, rfl⟩ |
    ⟨_, _, _, rfl⟩
  · rcases mem_linkDeadlines.mp member with ⟨_, _, rfl⟩ | ⟨_, held, rfl⟩
    · cases event
    · cases event
      exact ⟨rfl, link, linked, rfl, held⟩
  all_goals cases event

theorem of_connectionTimeout (event : deadline.event = .connectionTimeout conn) :
    deadline.recurs = false ∧
      (own.dialDue conn = [deadline] ∨
        own.anonymousDue conn = [deadline] ∧ ∃ handle, own.anonymous.get? conn = some handle) := by
  rcases mem_deadlines.mp listed with ⟨_, _, _, member⟩ | ⟨_, pending, waiting, rfl⟩ |
    ⟨_, handle, waiting, rfl⟩ | ⟨_, _, _, rfl⟩
  · rcases mem_linkDeadlines.mp member with ⟨_, _, rfl⟩ | ⟨_, _, rfl⟩
    all_goals cases event
  · cases event
    exact ⟨rfl, .inl (by simp [dialDue, Table.entriesAt, waiting])⟩
  · cases event
    exact ⟨rfl, .inr ⟨by simp [anonymousDue, Table.entriesAt, waiting], handle, waiting⟩⟩
  · cases event

theorem of_reconnect (event : deadline.event = .reconnect id) :
    deadline.recurs = false ∧ own.redialDue id = [deadline] := by
  rcases mem_deadlines.mp listed with ⟨_, _, _, member⟩ | ⟨_, _, _, rfl⟩ | ⟨_, _, _, rfl⟩ |
    ⟨_, handle, waiting, rfl⟩
  · rcases mem_linkDeadlines.mp member with ⟨_, _, rfl⟩ | ⟨_, _, rfl⟩
    all_goals cases event
  · cases event
  · cases event
  · cases event
    exact ⟨rfl, by simp [redialDue, Table.entriesAt, waiting]⟩

end Inversion

/-! ## Exchanging deadlines -/

/-- The state gives up some deadlines and takes on others. -/
def Exchanges
    (own : Liveness)
    (dropped taken : List (Deadline TimerEvent))
    (next : Liveness) : Prop :=
  ∃ rest, own.deadlines.Perm (dropped ++ rest) ∧ next.deadlines.Perm (taken ++ rest)

namespace Exchanges

variable
    {between : Liveness}
    {dropped dropped' taken taken' : List (Deadline TimerEvent)}

theorem of_eq (same : next.deadlines = own.deadlines) : own.Exchanges [] [] next :=
  ⟨own.deadlines, List.Perm.refl _, List.Perm.of_eq same⟩

/-- What is given up first is given up in addition. -/
theorem drop
    (first : own.Exchanges dropped [] between)
    (second : between.Exchanges dropped' taken next) :
    own.Exchanges (dropped ++ dropped') taken next := by
  obtain ⟨rest, before, kept⟩ := first
  obtain ⟨rest', before', after⟩ := second
  refine ⟨rest', ?_, after⟩
  rw [List.append_assoc]
  exact before.trans ((kept.symm.trans before').append_left dropped)

/-- What is taken on last is taken on in addition. -/
theorem take
    (first : own.Exchanges dropped taken between)
    (second : between.Exchanges [] taken' next) :
    own.Exchanges dropped (taken ++ taken') next := by
  obtain ⟨rest, before, after⟩ := first
  obtain ⟨rest', before', after'⟩ := second
  refine ⟨rest, before, ?_⟩
  have moved := List.perm_append_comm_assoc taken' taken rest
  rw [List.append_assoc]
  exact after'.trans ((before'.symm.trans after).append_left taken' |>.trans moved)

theorem perm
    (exchanges : own.Exchanges dropped taken next)
    (dropped_perm : dropped.Perm dropped')
    (taken_perm : taken.Perm taken') :
    own.Exchanges dropped' taken' next := by
  obtain ⟨rest, before, after⟩ := exchanges
  exact ⟨rest, before.trans (dropped_perm.append_right rest),
    after.trans (taken_perm.append_right rest)⟩

/-- Changing one part of the deadlines, between those in front of it and those behind it. -/
theorem of_part
    {front part part' back rest : List (Deadline TimerEvent)}
    (own_eq : own.deadlines = front ++ (part ++ back))
    (next_eq : next.deadlines = front ++ (part' ++ back))
    (split : part.Perm (dropped ++ rest))
    (split' : part'.Perm (taken ++ rest)) :
    own.Exchanges dropped taken next := by
  have moved {old chosen : List (Deadline TimerEvent)} (perm : old.Perm (chosen ++ rest)) :
      (front ++ (old ++ back)).Perm (chosen ++ (front ++ (rest ++ back))) := by
    refine ((perm.append_right back).append_left front).trans ?_
    rw [List.append_assoc]
    exact List.perm_append_comm_assoc front chosen (rest ++ back)
  exact ⟨front ++ (rest ++ back), own_eq ▸ moved split, next_eq ▸ moved split'⟩

end Exchanges

theorem exchanges_links
    {links : Table NodeId PeerLink}
    {taken : List (Deadline TimerEvent)}
    (split : (links.entries.flatMap fun entry => own.linkDeadlines entry.1 entry.2).Perm
      (taken ++ (own.links.erase id).entries.flatMap fun entry =>
        own.linkDeadlines entry.1 entry.2)) :
    own.Exchanges (own.linkDue id) taken { own with links } := by
  refine @Exchanges.of_part _ _ _ _ [] _ _ _ _ rfl rfl ?_ split
  refine ((own.links.entries_perm_erase id).flatMap_right _).trans ?_
  rw [List.flatMap_append]
  rfl

theorem exchanges_unlink (own : Liveness) (id : NodeId) :
    own.Exchanges (own.linkDue id) [] { own with links := own.links.erase id } :=
  exchanges_links (List.Perm.refl _)

theorem exchanges_link (own : Liveness) (id : NodeId) (link : PeerLink) :
    own.Exchanges (own.linkDue id) (own.linkDeadlines id link)
      { own with links := own.links.insert id link } :=
  exchanges_links ((own.links.entries_insert_perm id link).flatMap_right _)

theorem exchanges_dialing
    {dialing : Table ConnId PendingDial}
    {taken : List (Deadline TimerEvent)}
    (split : (dialing.entries.map fun entry =>
        own.handshakeDeadline entry.1 entry.2.timeout).Perm
      (taken ++ (own.dialing.erase conn).entries.map fun entry =>
        own.handshakeDeadline entry.1 entry.2.timeout)) :
    own.Exchanges (own.dialDue conn) taken { own with dialing } := by
  refine Exchanges.of_part rfl rfl ?_ split
  refine ((own.dialing.entries_perm_erase conn).map _).trans ?_
  rw [List.map_append]
  rfl

theorem exchanges_undial (own : Liveness) (conn : ConnId) :
    own.Exchanges (own.dialDue conn) [] { own with dialing := own.dialing.erase conn } :=
  exchanges_dialing (List.Perm.refl _)

theorem exchanges_dial (own : Liveness) (conn : ConnId) (pending : PendingDial) :
    own.Exchanges (own.dialDue conn) [own.handshakeDeadline conn pending.timeout]
      { own with dialing := own.dialing.insert conn pending } :=
  exchanges_dialing ((own.dialing.entries_insert_perm conn pending).map _)

theorem exchanges_anonymous
    {anonymous : Table ConnId Handle}
    {taken : List (Deadline TimerEvent)}
    (split : (anonymous.entries.map fun entry => own.handshakeDeadline entry.1 entry.2).Perm
      (taken ++ (own.anonymous.erase conn).entries.map fun entry =>
        own.handshakeDeadline entry.1 entry.2)) :
    own.Exchanges (own.anonymousDue conn) taken { own with anonymous } := by
  have nested (anonymous : Table ConnId Handle) :
      ({ own with anonymous } : Liveness).deadlines =
        ((own.links.entries.flatMap fun entry => own.linkDeadlines entry.1 entry.2) ++
          own.dialing.entries.map fun entry => own.handshakeDeadline entry.1 entry.2.timeout) ++
        ((anonymous.entries.map fun entry => own.handshakeDeadline entry.1 entry.2) ++
          own.reconnecting.entries.map fun entry => own.redialDeadline entry.1 entry.2) :=
    (List.append_assoc ..).symm
  refine Exchanges.of_part (nested own.anonymous) (nested anonymous) ?_ split
  refine ((own.anonymous.entries_perm_erase conn).map _).trans ?_
  rw [List.map_append]
  rfl

theorem exchanges_unlist (own : Liveness) (conn : ConnId) :
    own.Exchanges (own.anonymousDue conn) [] { own with anonymous := own.anonymous.erase conn } :=
  exchanges_anonymous (List.Perm.refl _)

theorem exchanges_list (own : Liveness) (conn : ConnId) (handle : Handle) :
    own.Exchanges (own.anonymousDue conn) [own.handshakeDeadline conn handle]
      { own with anonymous := own.anonymous.insert conn handle } :=
  exchanges_anonymous ((own.anonymous.entries_insert_perm conn handle).map _)

theorem exchanges_reconnecting
    {reconnecting : Table NodeId Handle}
    {taken : List (Deadline TimerEvent)}
    (split : (reconnecting.entries.map fun entry => own.redialDeadline entry.1 entry.2).Perm
      (taken ++ (own.reconnecting.erase id).entries.map fun entry =>
        own.redialDeadline entry.1 entry.2)) :
    own.Exchanges (own.redialDue id) taken { own with reconnecting } := by
  have nested (reconnecting : Table NodeId Handle) :
      ({ own with reconnecting } : Liveness).deadlines =
        ((own.links.entries.flatMap fun entry => own.linkDeadlines entry.1 entry.2) ++
          ((own.dialing.entries.map fun entry =>
              own.handshakeDeadline entry.1 entry.2.timeout) ++
            own.anonymous.entries.map fun entry => own.handshakeDeadline entry.1 entry.2)) ++
        ((reconnecting.entries.map fun entry => own.redialDeadline entry.1 entry.2) ++ []) := by
    rw [List.append_nil, List.append_assoc, List.append_assoc]
    rfl
  refine Exchanges.of_part (nested own.reconnecting) (nested reconnecting) ?_ split
  refine ((own.reconnecting.entries_perm_erase id).map _).trans ?_
  rw [List.map_append]
  rfl

theorem exchanges_unschedule (own : Liveness) (id : NodeId) :
    own.Exchanges (own.redialDue id) [] { own with reconnecting := own.reconnecting.erase id } :=
  exchanges_reconnecting (List.Perm.refl _)

theorem exchanges_schedule (own : Liveness) (id : NodeId) (handle : Handle) :
    own.Exchanges (own.redialDue id) [own.redialDeadline id handle]
      { own with reconnecting := own.reconnecting.insert id handle } :=
  exchanges_reconnecting ((own.reconnecting.entries_insert_perm id handle).map _)

/-! ## What the moves exchange -/

variable {effect : Effect}

theorem Pursues.exchanges (pursues : own.Pursues id effect next) :
    effect.released = [] ∧ own.Exchanges [] effect.armed next := by
  cases pursues with
  | @scheduled handle _ idle =>
      have none_due : own.redialDue id = [] := by simp [redialDue, Table.entriesAt, idle]
      have exchanges := own.exchanges_schedule id handle
      rw [none_due] at exchanges
      exact ⟨rfl, exchanges⟩
  | spared _ => exact ⟨rfl, .of_eq rfl⟩

theorem Rearms.exchanges (rearms : own.Rearms id conn effect next) :
    ∃ dropped, dropped.map Deadline.handle = effect.released ∧
      own.Exchanges dropped effect.armed next := by
  cases rearms with
  | @rearmed link handle linked current =>
      subst current
      obtain ⟨rest, before, after⟩ := own.exchanges_link id { link with timeout := some handle }
      have due : own.linkDue id = own.linkDeadlines id link := by
        simp [linkDue, Table.entriesAt, linked]
      rw [due, linkDeadlines, List.append_assoc] at before
      rw [linkDeadlines, List.append_assoc] at after
      refine ⟨link.timeout.toList.map (own.peerDeadline id link.conn), ?_,
        link.keepalive.toList.map (own.beatDeadline id) ++ rest,
        before.trans (List.perm_append_comm_assoc ..),
        after.trans (List.perm_append_comm_assoc ..)⟩
      simp [peerDeadline, Function.comp_def]
  | moved _ => exact ⟨[], rfl, .of_eq rfl⟩

theorem Identifies.exchanges (identifies : own.Identifies conn id effect next) :
    ∃ dropped, dropped.map Deadline.handle = effect.released ∧
      own.Exchanges dropped effect.armed next := by
  cases identifies with
  | @bound keepalive handle _ =>
      refine ⟨own.dialDue conn ++ own.linkDue id ++ own.redialDue id, ?_, ?_⟩
      · simp [handles_dialDue, handles_linkDue, handles_redialDue]
      · have undialled := own.exchanges_undial conn
        have unlinked := undialled.drop (exchanges_unlink _ id)
        have unscheduled := unlinked.drop (exchanges_unschedule _ id)
        have linked := unscheduled.drop (exchanges_link _ id ⟨conn, keepalive, some handle⟩)
        have none_due : ({ own with
            dialing := own.dialing.erase conn
            links := own.links.erase id
            reconnecting := own.reconnecting.erase id } : Liveness).linkDue id = [] := by
          simp [linkDue, Table.entriesAt]
        rw [none_due, List.append_nil] at linked
        exact linked

theorem Ends.exchanges
    {event : Option PeerEvent}
    (ends : own.Ends conn event effect next) :
    ∃ dropped, dropped.map Deadline.handle = effect.released ∧
      own.Exchanges dropped effect.armed next := by
  cases ends with
  | unanswered _ pursues =>
      obtain ⟨released, exchanges⟩ := pursues.exchanges
      refine ⟨own.dialDue conn, ?_, ?_⟩
      · simp [handles_dialDue, released]
      · have dropped := (own.exchanges_undial conn).drop exchanges
        rw [List.append_nil] at dropped
        exact dropped
  | unbound _ _ =>
      exact ⟨own.anonymousDue conn, handles_anonymousDue own conn, own.exchanges_unlist conn⟩
  | @parted id _ _ _ _ pursues =>
      obtain ⟨released, exchanges⟩ := pursues.exchanges
      refine ⟨own.anonymousDue conn ++ own.linkDue id, ?_, ?_⟩
      · simp [handles_anonymousDue, handles_linkDue, released]
      · have unlisted := own.exchanges_unlist conn
        have unlinked := unlisted.drop (exchanges_unlink _ id)
        have dropped := unlinked.drop exchanges
        rw [List.append_nil] at dropped
        exact dropped

/-- The deadlines that a happening takes away without releasing them. -/
def lapses (own : Liveness) : Happening → List (Deadline TimerEvent)
  | .connected conn _ => own.dialDue conn
  | .connectionTimeout conn =>
      if (own.dialing.get? conn).isSome then own.dialDue conn else own.anonymousDue conn
  | .reconnect id => own.redialDue id
  | _ => []

/-- A move releases the timers that the state does not call for any longer, apart from those that
lapse, and arms those that it calls for now. -/
theorem Moves.exchanges
    {timers : Scheduler TimerEvent}
    {happening : Happening}
    {event : Option PeerEvent}
    (moves : own.Moves timers happening event effect next) :
    ∃ dropped, dropped.map Deadline.handle = effect.released ∧
      own.Exchanges (dropped ++ own.lapses happening) effect.armed next := by
  cases moves with
  | started | known | ignored | unlinked | nudged | superseded => exact ⟨[], rfl, .of_eq rfl⟩
  | @opened conn id handle => exact ⟨[], rfl, own.exchanges_dial conn ⟨id, handle⟩⟩
  | failed pursues =>
      obtain ⟨released, exchanges⟩ := pursues.exchanges
      exact ⟨[], released.symm, exchanges⟩
  | @greeted conn handle =>
      refine ⟨own.anonymousDue conn, handles_anonymousDue own conn, ?_⟩
      rw [show own.lapses (.accepted conn) = [] from rfl, List.append_nil]
      exact own.exchanges_list conn handle
  | answered _ rearms =>
      obtain ⟨dropped, released, exchanges⟩ := rearms.exchanges
      refine ⟨dropped, ?_, ?_⟩
      · simp [released]
      · simpa [lapses] using exchanges
  | recanted _ _ ends =>
      obtain ⟨dropped, released, exchanges⟩ := ends.exchanges
      refine ⟨dropped, ?_, ?_⟩
      · simp [released]
      · simpa [lapses] using exchanges
  | @identified conn _ _ _ _ _ identifies =>
      obtain ⟨dropped, released, exchanges⟩ := identifies.exchanges
      refine ⟨own.anonymousDue conn ++ dropped, ?_, ?_⟩
      · simp [handles_anonymousDue, released]
      · have unlisted := (own.exchanges_unlist conn).drop exchanges
        simpa [lapses] using unlisted
  | @refused conn id =>
      refine ⟨own.anonymousDue conn, handles_anonymousDue own conn, ?_⟩
      rw [show own.lapses (.request conn id) = [] from rfl, List.append_nil]
      exact own.exchanges_unlist conn
  | acknowledged _ identifies =>
      obtain ⟨dropped, released, exchanges⟩ := identifies.exchanges
      exact ⟨dropped, released, by simpa [lapses] using exchanges⟩
  | heard _ _ rearms =>
      obtain ⟨dropped, released, exchanges⟩ := rearms.exchanges
      exact ⟨dropped, released, by simpa [lapses] using exchanges⟩
  | ended ends =>
      obtain ⟨dropped, released, exchanges⟩ := ends.exchanges
      exact ⟨dropped, released, by simpa [lapses] using exchanges⟩
  | revived _ _ rearms =>
      obtain ⟨dropped, released, exchanges⟩ := rearms.exchanges
      refine ⟨dropped, ?_, ?_⟩
      · simp [released]
      · simpa [lapses] using exchanges
  | @expired id _ _ _ _ pursues =>
      obtain ⟨released, exchanges⟩ := pursues.exchanges
      refine ⟨own.linkDue id, ?_, ?_⟩
      · simp [handles_linkDue, released]
      · have unlinked := (own.exchanges_unlink id).drop exchanges
        simpa [lapses] using unlinked
  | @lapsed conn pending _ _ waiting pursues =>
      obtain ⟨released, exchanges⟩ := pursues.exchanges
      refine ⟨[], ?_, ?_⟩
      · simp [released]
      · have undialled := (own.exchanges_undial conn).drop exchanges
        simpa [lapses, waiting] using undialled
  | @dismissed conn quiet _ =>
      refine ⟨[], rfl, ?_⟩
      rw [lapses, quiet]
      exact own.exchanges_unlist conn
  | @forgotten conn quiet _ =>
      refine ⟨[], rfl, ?_⟩
      rw [lapses, quiet]
      exact own.exchanges_unlist conn
  | @redialled id _ _ _ _ dials =>
      have unscheduled := own.exchanges_unschedule id
      cases dials with
      | dialled _ _ => exact ⟨[], rfl, unscheduled⟩
      | spared _ => exact ⟨[], rfl, unscheduled⟩
  | @reunited id _ => exact ⟨[], rfl, own.exchanges_unschedule id⟩
  | shut =>
      refine ⟨own.deadlines, ?_, [], ?_, List.Perm.refl _⟩
      · simp [deadlines, List.map_flatMap, handles_linkDeadlines, handshakeDeadline,
          redialDeadline, Table.values, List.flatMap_map, Function.comp_def]
      · simp [lapses]

end Quorum.Liveness
