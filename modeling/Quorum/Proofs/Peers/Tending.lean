import Quorum.Proofs.Peers.Books

/-!
# The timers that the protocol has

`Books` balances the timers that could still fire against the timers that a state calls for.  On one
side stand the deadlines that are *missing*, since their timer has fired; on the other side stand
the *orphans*, timers that nobody calls for any longer.

Between two happenings the books of the protocol are almost clean: only the timer of a handshake can
be missing, and no timer of a link is an orphan (`Tended`).  If no connection is used twice they are
clean, and then the timers are just those that the state calls for.
-/

namespace Quorum

/-- The deadlines of timers that fire only once they are due, and of links. -/
def TimerEvent.isPinned : TimerEvent → Bool
  | peerKeepAlive _ => true
  | peerTimeout _ _ => true
  | _ => false

namespace Liveness

variable
    {timers timers' timers'' after : Scheduler TimerEvent}
    {clockMs : Nat}
    {own next : Liveness}
    {missing orphans : List (Deadline TimerEvent)}
    {deadline : Deadline TimerEvent}
    {conn : ConnId}
    {id : NodeId}

/-- The timers of a state, up to missing deadlines and orphans. -/
structure Books
    (timers : Scheduler TimerEvent)
    (own : Liveness)
    (missing orphans : List (Deadline TimerEvent)) : Prop where
  sound : timers.Sound
  issued : ∀ deadline ∈ missing, deadline.handle.number < timers.issued
  distinct : ((missing ++ timers.deadlines).map Deadline.handle).Nodup
  balanced : (missing ++ timers.deadlines).Perm (orphans ++ own.deadlines)

namespace Books

theorem handle_lt
    (books : Books timers own missing orphans)
    (listed : deadline ∈ own.deadlines) :
    deadline.handle.number < timers.issued := by
  have known := books.balanced.mem_iff.mpr (List.mem_append_right orphans listed)
  rcases List.mem_append.mp known with lost | held
  · exact books.issued deadline lost
  · exact books.sound.handle_lt held

/-- A deadline that is not missing has a timer. -/
theorem mem_timers
    (books : Books timers own missing orphans)
    (listed : deadline ∈ own.deadlines)
    (present : deadline ∉ missing) :
    deadline ∈ timers.deadlines := by
  have known := books.balanced.mem_iff.mpr (List.mem_append_right orphans listed)
  exact (List.mem_append.mp known).resolve_left present

/-- A timer that is no orphan is called for. -/
theorem mem_own
    (books : Books timers own missing orphans)
    (listed : deadline ∈ timers.deadlines)
    (wanted : deadline ∉ orphans) :
    deadline ∈ own.deadlines := by
  have known := books.balanced.mem_iff.mp (List.mem_append_right missing listed)
  exact (List.mem_append.mp known).resolve_left wanted

/-- Every handle belongs to one deadline of the state at most. -/
theorem nodup_own (books : Books timers own missing orphans) :
    ((orphans ++ own.deadlines).map Deadline.handle).Nodup :=
  (books.balanced.map Deadline.handle).nodup_iff.mp books.distinct

/-- An orphan that is missing cancels out. -/
theorem settled
    (books : Books timers own (deadline :: missing) orphans)
    (listed : deadline ∈ orphans) :
    Books timers own missing (orphans.erase deadline) where
  sound := books.sound
  issued := (List.forall_mem_cons.mp books.issued).2
  distinct := (List.nodup_cons.mp books.distinct).2
  balanced := by
    have moved := (List.perm_cons_erase listed).append_right own.deadlines
    exact (books.balanced.trans moved).cons_inv

/-- The timers have changed, but not what could still fire. -/
theorem withTimers
    (books : Books timers own missing orphans)
    (sound : timers'.Sound)
    (issued : timers'.issued = timers.issued)
    (kept : timers'.deadlines.Perm timers.deadlines) :
    Books timers' own missing orphans where
  sound := sound
  issued := issued ▸ books.issued
  distinct := (((kept.append_left missing).map Deadline.handle).nodup_iff).mpr books.distinct
  balanced := (kept.append_left missing).trans books.balanced

/-- Receiving a timer. Afterwards its deadline is missing, unless it recurs. -/
theorem delivers
    {task : Task TimerEvent}
    (books : Books timers own missing orphans)
    (delivers : timers.Delivers clockMs task timers') :
    if task.isRecurring then Books timers' own missing orphans
    else Books timers' own (task.deadline :: missing) orphans := by
  obtain ⟨sound, issued, _⟩ := books.sound.delivers delivers
  have changed := books.sound.deadlines_delivers delivers
  split
  · next recurs =>
    rw [if_pos recurs] at changed
    exact books.withTimers sound issued changed
  · next once =>
    rw [if_neg once] at changed
    have moved : (missing ++ timers.deadlines).Perm
        (task.deadline :: missing ++ timers'.deadlines) :=
      (changed.append_left missing).trans List.perm_middle
    exact {
      sound := sound
      issued := by
        rw [issued]
        refine List.forall_mem_cons.mpr ⟨?_, books.issued⟩
        exact books.sound.handle_lt (changed.mem_iff.mpr List.mem_cons_self)
      distinct := (moved.map Deadline.handle).nodup_iff.mp books.distinct
      balanced := moved.symm.trans books.balanced }

/-- Whoever works on the timers, no handle is used twice. -/
theorem distinct_works
    {released : List Handle}
    {armed : List (Deadline TimerEvent)}
    (books : Books timers own missing orphans)
    (works : timers.Works clockMs released armed timers')
    (sound : timers'.Sound) :
    (((missing.filter fun deadline => deadline.handle ∉ released) ++ timers'.deadlines).map
      Deadline.handle).Nodup := by
  have live := works.deadlines_perm books.sound
  have distinct := books.distinct
  rw [List.map_append, List.nodup_append] at distinct ⊢
  obtain ⟨missing_distinct, _, apart⟩ := distinct
  refine ⟨missing_distinct.sublist (List.filter_sublist.map _), sound.nodup_deadlines, ?_⟩
  intro one oneListed other otherListed
  obtain ⟨deadline, lost, rfl⟩ := List.mem_map.mp oneListed
  obtain ⟨deadline', held, rfl⟩ := List.mem_map.mp otherListed
  have lost := (List.mem_filter.mp lost).1
  rcases List.mem_append.mp (live.mem_iff.mp held) with old | new
  · exact apart _ (List.mem_map_of_mem lost) _ (List.mem_map_of_mem (List.mem_filter.mp old).1)
  · intro same
    have below := books.issued deadline lost
    have above := works.issued_le_of_mem (List.mem_filter.mp new).1
    rw [same] at below
    omega

/-- What is given up has been given out. -/
theorem released_lt
    {released : List Handle}
    {dropped lapsed armed : List (Deadline TimerEvent)}
    (books : Books timers own missing orphans)
    (released_eq : dropped.map Deadline.handle = released)
    (exchanges : own.Exchanges (dropped ++ lapsed) armed next) :
    ∀ handle ∈ released, handle.number < timers.issued := by
  obtain ⟨rest, before, _⟩ := exchanges
  rw [← released_eq]
  intro handle listed
  obtain ⟨deadline, member, rfl⟩ := List.mem_map.mp listed
  apply books.handle_lt (before.mem_iff.mpr _)
  rw [List.append_assoc]
  exact List.mem_append_left _ member

/-- The timers are worked on, and the state calls for others.  What lapses is an orphan from now
on, and what is released is no concern of anybody any longer. -/
theorem turn
    {released : List Handle}
    {dropped lapsed armed : List (Deadline TimerEvent)}
    (books : Books timers own missing orphans)
    (works : timers.Works clockMs released armed timers')
    (released_eq : dropped.map Deadline.handle = released)
    (exchanges : own.Exchanges (dropped ++ lapsed) armed next) :
    Books timers' next
      (missing.filter fun deadline => deadline.handle ∉ released)
      ((orphans.filter fun deadline => deadline.handle ∉ released) ++ lapsed) := by
  obtain ⟨rest, before, after⟩ := exchanges
  have all : (missing ++ timers.deadlines).Perm (orphans ++ (dropped ++ lapsed ++ rest)) :=
    books.balanced.trans (before.append_left orphans)
  have issued := books.released_lt released_eq ⟨rest, before, after⟩
  have live := works.deadlines_perm_of_issued books.sound issued
  have sound := works.sound books.sound fun handle gone =>
    Nat.lt_of_lt_of_le (issued handle gone) works.issued_le
  -- No handle is used twice, so that nothing but the dropped deadlines is released.
  have kept : ((dropped ++ lapsed ++ rest).filter fun deadline => deadline.handle ∉ released) =
      lapsed ++ rest := by
    have distinct := (all.map Deadline.handle).nodup_iff.mp books.distinct
    rw [List.map_append, List.append_assoc, @List.map_append _ _ _ dropped, released_eq]
      at distinct
    have apart := (List.nodup_append.mp (List.nodup_append.mp distinct).2.1).2.2
    rw [List.append_assoc, List.filter_append, List.filter_eq_nil_iff.mpr, List.nil_append,
      List.filter_eq_self.mpr]
    · intro deadline listed
      apply decide_eq_true
      intro gone
      exact apart _ gone _ (List.mem_map_of_mem listed) rfl
    · intro deadline listed
      have gone : deadline.handle ∈ released := released_eq ▸ List.mem_map_of_mem listed
      simpa using gone
  exact {
    sound := sound
    issued := fun deadline listed =>
      Nat.lt_of_lt_of_le (books.issued deadline (List.mem_filter.mp listed).1) works.issued_le
    distinct := books.distinct_works works sound
    balanced := by
      have filtered := all.filter fun deadline => deadline.handle ∉ released
      rw [List.filter_append, List.filter_append, kept] at filtered
      refine (live.append_left _).trans ?_
      rw [← List.append_assoc]
      refine (filtered.append_right armed).trans ?_
      simp only [List.append_assoc]
      exact ((List.perm_append_comm.trans after.symm).append_left lapsed).append_left _ }

/-- Somebody else works on the timers and spares those of the state.  What is armed is an orphan. -/
theorem aside
    {released : List Handle}
    {armed : List (Deadline TimerEvent)}
    (books : Books timers own missing orphans)
    (works : timers.Works clockMs released armed timers')
    (issued : ∀ handle ∈ released, handle.number < timers'.issued)
    (spared : ∀ deadline ∈ own.deadlines, deadline.handle ∉ released) :
    Books timers' own
      (missing.filter fun deadline => deadline.handle ∉ released)
      ((orphans ++ armed).filter fun deadline => deadline.handle ∉ released) := by
  have sound := works.sound books.sound issued
  exact {
    sound := sound
    issued := fun deadline listed =>
      Nat.lt_of_lt_of_le (books.issued deadline (List.mem_filter.mp listed).1) works.issued_le
    distinct := books.distinct_works works sound
    balanced := by
      have kept : (own.deadlines.filter fun deadline => deadline.handle ∉ released) =
          own.deadlines :=
        List.filter_eq_self.mpr fun deadline listed => decide_eq_true (spared deadline listed)
      have filtered := books.balanced.filter fun deadline => deadline.handle ∉ released
      rw [List.filter_append, List.filter_append, kept] at filtered
      refine ((works.deadlines_perm books.sound).append_left _).trans ?_
      rw [← List.append_assoc, List.filter_append]
      refine (filtered.append_right _).trans ?_
      simp only [List.append_assoc]
      exact List.perm_append_comm.append_left _ }

end Books

/-- What holds of the timers between two happenings.  Only the timers of handshakes can be missing,
and those of a link are no orphans; in a strict account nothing is missing and nothing is left. -/
def Tended (strict : Prop) (timers : Scheduler TimerEvent) (own : Liveness) : Prop :=
  ∃ missing orphans, Books timers own missing orphans ∧
    (∀ deadline ∈ missing, ∃ conn, deadline.event = .connectionTimeout conn) ∧
    (∀ deadline ∈ orphans, deadline.event.isPinned = false) ∧
    (strict → missing = [] ∧ orphans = [])

theorem isPinned_lapses
    {happening : Happening}
    (listed : deadline ∈ own.lapses happening) :
    deadline.event.isPinned = false := by
  have handshake {conn : ConnId} (listed : deadline ∈ own.dialDue conn) :
      deadline.event.isPinned = false := by
    obtain ⟨entry, _, rfl⟩ := List.mem_map.mp listed
    rfl
  unfold lapses at listed
  split at listed
  · exact handshake listed
  · split at listed
    · exact handshake listed
    · obtain ⟨entry, _, rfl⟩ := List.mem_map.mp listed
      rfl
  · obtain ⟨entry, _, rfl⟩ := List.mem_map.mp listed
    rfl
  · cases listed

namespace Tended

variable
    {strict : Prop}
    {happening : Happening}
    {event : Option PeerEvent}
    {effect : Effect}
    {task : Task TimerEvent}

theorem books (tended : Tended strict timers own) :
    ∃ missing orphans, Books timers own missing orphans := by
  obtain ⟨missing, orphans, books, _⟩ := tended
  exact ⟨missing, orphans, books⟩

theorem sound (tended : Tended strict timers own) : timers.Sound := by
  obtain ⟨_, _, books⟩ := tended.books
  exact books.sound

/-- In a strict account the timers are those that the state calls for. -/
theorem deadlines_perm
    (tended : Tended strict timers own)
    (exact_ : strict) :
    timers.deadlines.Perm own.deadlines := by
  obtain ⟨missing, orphans, books, _, _, clean⟩ := tended
  obtain ⟨rfl, rfl⟩ := clean exact_
  exact books.balanced

/-- Every timer of a link is there. -/
theorem mem_timers
    (tended : Tended strict timers own)
    (listed : deadline ∈ own.deadlines)
    (event : ∀ conn, deadline.event ≠ .connectionTimeout conn) :
    deadline ∈ timers.deadlines := by
  obtain ⟨missing, orphans, books, handshakes, _⟩ := tended
  refine books.mem_timers listed fun lost => ?_
  obtain ⟨conn, same⟩ := handshakes deadline lost
  exact event conn same

/-- Every timer of a link that is there is called for. -/
theorem mem_own
    (tended : Tended strict timers own)
    (listed : deadline ∈ timers.deadlines)
    (pinned : deadline.event.isPinned = true) :
    deadline ∈ own.deadlines := by
  obtain ⟨missing, orphans, books, _, loose, _⟩ := tended
  refine books.mem_own listed fun orphan => ?_
  rw [loose deadline orphan] at pinned
  cases pinned

theorem withTimers
    (tended : Tended strict timers own)
    (sound : timers'.Sound)
    (issued : timers'.issued = timers.issued)
    (kept : timers'.deadlines.Perm timers.deadlines) :
    Tended strict timers' own := by
  obtain ⟨missing, orphans, books, rest⟩ := tended
  exact ⟨missing, orphans, books.withTimers sound issued kept, rest⟩

/-- Finding every fired timer cancelled changes nothing. -/
theorem drained
    (tended : Tended strict timers own)
    (received : timers.receive clockMs = .ok (none, timers')) :
    Tended strict timers' own := by
  obtain ⟨sound, live, issued⟩ := tended.sound.drained received
  exact tended.withTimers sound issued (List.Perm.of_eq (congrArg (List.map Task.deadline) live))

/-- Settling loses nothing, unless the wheels come to their end. -/
theorem settled
    (tended : Tended strict timers own)
    (intact : (timers.settle clockMs).intact = true) :
    Tended strict (timers.settle clockMs) own := by
  obtain ⟨sound, live⟩ := tended.sound.settle intact
  exact tended.withTimers sound (Scheduler.issued_settle _ _) (live.map Task.deadline)

/-- A move keeps the books clean. -/
theorem moved
    (tended : Tended strict timers own)
    (moves : own.Moves timers' happening event effect next)
    (works : timers.Works clockMs effect.released effect.armed after)
    (lasting : strict → own.lapses happening = []) :
    Tended strict after next := by
  obtain ⟨missing, orphans, books, handshakes, loose, clean⟩ := tended
  obtain ⟨dropped, released, exchanges⟩ := moves.exchanges
  refine ⟨_, _, books.turn works released exchanges, ?_, ?_, ?_⟩
  · exact fun deadline listed => handshakes deadline (List.mem_filter.mp listed).1
  · intro deadline listed
    rcases List.mem_append.mp listed with orphan | lapsed
    · exact loose deadline (List.mem_filter.mp orphan).1
    · exact isPinned_lapses lapsed
  · intro exact_
    obtain ⟨rfl, rfl⟩ := clean exact_
    exact ⟨rfl, lasting exact_⟩

/-- Somebody else works on the timers, spares those of the state, and arms none of a link. -/
theorem aside
    {released : List Handle}
    {armed : List (Deadline TimerEvent)}
    (tended : Tended False timers own)
    (works : timers.Works clockMs released armed timers')
    (issued : ∀ handle ∈ released, handle.number < timers'.issued)
    (spared : ∀ deadline ∈ own.deadlines, deadline.handle ∉ released)
    (loose : ∀ deadline ∈ armed, deadline.event.isPinned = false) :
    Tended False timers' own := by
  obtain ⟨missing, orphans, books, handshakes, before, _⟩ := tended
  refine ⟨_, _, books.aside works issued spared, ?_, ?_, False.elim⟩
  · exact fun deadline listed => handshakes deadline (List.mem_filter.mp listed).1
  · intro deadline listed
    exact List.forall_mem_append.mpr ⟨before, loose⟩ deadline (List.mem_filter.mp listed).1

/-- A timer that fires belongs to a deadline of the state or is an orphan. -/
theorem mem_of_delivers
    (books : Books timers own missing orphans)
    (delivers : timers.Delivers clockMs task timers') :
    task.deadline ∈ orphans ++ own.deadlines := by
  obtain ⟨_, _, others, before, _⟩ := books.sound.delivers delivers
  have alive : task.deadline ∈ timers.deadlines :=
    List.mem_map_of_mem (before.mem_iff.mpr List.mem_cons_self)
  exact books.balanced.mem_iff.mp (List.mem_append_right missing alive)

/-- A timer that fires and means nothing to the protocol was an orphan. -/
theorem unmeant
    (tended : Tended strict timers own)
    (delivers : timers.Delivers clockMs task timers')
    (unmeant : Happening.ofTimer task.payload = none) :
    Tended strict timers' own := by
  obtain ⟨missing, orphans, books, handshakes, loose, clean⟩ := tended
  have delivered := books.delivers delivers
  split at delivered
  · exact ⟨missing, orphans, delivered, handshakes, loose, clean⟩
  · have orphan : task.deadline ∈ orphans := by
      refine (List.mem_append.mp (mem_of_delivers books delivers)).resolve_right fun wanted => ?_
      have meant := isSome_ofTimer wanted
      rw [show Happening.ofTimer task.deadline.event = none from unmeant] at meant
      cases meant
    refine ⟨_, _, delivered.settled orphan, handshakes, ?_, ?_⟩
    · exact fun deadline listed => loose deadline (List.mem_of_mem_erase listed)
    · intro exact_
      rw [(clean exact_).2] at orphan
      cases orphan

section Woken

variable
    (tended : Tended strict timers own)
    (delivers : timers.Delivers clockMs task timers')
    (works : timers'.Works clockMs effect.released effect.armed after)

include tended delivers

/-- A link that is kept alive is kept alive on and on. -/
theorem recurring (recurs : task.isRecurring = true) : Tended strict timers' own := by
  obtain ⟨missing, orphans, books, rest⟩ := tended
  have delivered := books.delivers delivers
  rw [if_pos recurs] at delivered
  exact ⟨missing, orphans, delivered, rest⟩

include works

/-- A timer that has fired is released. -/
theorem woken_released
    (once : task.isRecurring = false)
    (moves : own.Moves timers'' happening event effect next)
    (dismissed : task.deadline.handle ∈ effect.released)
    (lasting : own.lapses happening = []) :
    Tended strict after next := by
  obtain ⟨missing, orphans, books, handshakes, loose, clean⟩ := tended
  have delivered := books.delivers delivers
  rw [if_neg (Bool.eq_false_iff.mp once)] at delivered
  obtain ⟨dropped, released, exchanges⟩ := moves.exchanges
  have turned := delivered.turn works released exchanges
  rw [lasting, List.append_nil,
    List.filter_cons_of_neg (by simpa using dismissed)] at turned
  refine ⟨_, _, turned, ?_, ?_, ?_⟩
  · exact fun deadline listed => handshakes deadline (List.mem_filter.mp listed).1
  · exact fun deadline listed => loose deadline (List.mem_filter.mp listed).1
  · intro exact_
    obtain ⟨rfl, rfl⟩ := clean exact_
    exact ⟨rfl, rfl⟩

/-- A timer that has fired lapses, or was no timer of the state any longer. -/
theorem woken_lapsed
    (moves : own.Moves timers'' happening event effect next)
    (releases : effect.released = [])
    (lapsed : task.deadline ∈ own.deadlines →
      task.isRecurring = false ∧ (strict → own.lapses happening = [task.deadline]) ∧
        (task.deadline ∈ own.lapses happening ∨
          ∃ conn, task.payload = .connectionTimeout conn)) :
    Tended strict after next := by
  have origin {missing orphans : List (Deadline TimerEvent)}
      (books : Books timers own missing orphans) := mem_of_delivers books delivers
  by_cases recurs : task.isRecurring = true
  · -- Only an orphan can recur, and there are none in a strict account.
    refine (tended.recurring delivers recurs).moved moves works fun exact_ => ?_
    obtain ⟨missing, orphans, books, _, _, clean⟩ := tended
    obtain ⟨rfl, rfl⟩ := clean exact_
    rw [(lapsed (origin books)).1] at recurs
    cases recurs
  · obtain ⟨missing, orphans, books, handshakes, loose, clean⟩ := tended
    have delivered := books.delivers delivers
    rw [if_neg recurs] at delivered
    obtain ⟨dropped, released, exchanges⟩ := moves.exchanges
    have turned := delivered.turn works released exchanges
    have all (list : List (Deadline TimerEvent)) :
        (list.filter fun deadline => deadline.handle ∉ effect.released) = list :=
      List.filter_eq_self.mpr (by simp [releases])
    rw [all, all] at turned
    have loose' : ∀ deadline ∈ orphans ++ own.lapses happening, deadline.event.isPinned = false :=
      List.forall_mem_append.mpr ⟨loose, fun _ => isPinned_lapses⟩
    by_cases orphan : task.deadline ∈ orphans ++ own.lapses happening
    · refine ⟨_, _, turned.settled orphan, handshakes, ?_, ?_⟩
      · exact fun deadline listed => loose' deadline (List.mem_of_mem_erase listed)
      · intro exact_
        obtain ⟨rfl, rfl⟩ := clean exact_
        refine ⟨rfl, ?_⟩
        rw [(lapsed (origin books)).2.1 exact_, List.nil_append, List.erase_cons_head]
    · have wanted := (List.mem_append.mp (origin books)).resolve_left fun listed =>
        orphan (List.mem_append_left _ listed)
      obtain ⟨_, alone, lapses | handshake⟩ := lapsed wanted
      · exact absurd (List.mem_append_right _ lapses) orphan
      · refine ⟨_, _, turned, List.forall_mem_cons.mpr ⟨handshake, handshakes⟩, loose', ?_⟩
        intro exact_
        rw [alone exact_] at orphan
        exact absurd (List.mem_append_right _ List.mem_cons_self) orphan

/-- A timer that fires, and what the protocol does about it, keeps the books clean: the timer of a
link is released, that of a handshake or of a redial lapses. -/
theorem woken
    (owed : Happening.ofTimer task.payload = some happening)
    (linked : ∀ id link, own.links.get? id = some link → own.registry.get? id = some link.conn)
    (exclusive : strict → ∀ conn, (own.anonymous.get? conn).isSome → own.dialing.get? conn = none)
    (moves : own.Moves timers'' happening event effect next) :
    Tended strict after next := by
  have alive : task.deadline ∈ timers.deadlines := by
    obtain ⟨_, _, others, before, _⟩ := tended.sound.delivers delivers
    exact List.mem_map_of_mem (before.mem_iff.mpr List.mem_cons_self)
  cases fires : task.payload with
  | electionTimeout | leaderHeartbeat =>
      rw [fires] at owed
      cases owed
  | peerKeepAlive id =>
      rw [fires] at owed
      cases owed
      have wanted := tended.mem_own alive (by rw [Task.deadline, fires]; rfl)
      have recurs : task.isRecurring = true := of_peerKeepAlive wanted fires
      exact (tended.recurring delivers recurs).moved moves works fun _ => rfl
  | peerTimeout id conn =>
      rw [fires] at owed
      cases owed
      have wanted := tended.mem_own alive (by rw [Task.deadline, fires]; rfl)
      obtain ⟨once, link, linkedTo, rfl, timeout⟩ := of_peerTimeout wanted fires
      refine woken_released tended delivers works once moves ?_ rfl
      cases moves with
      | expired _ _ =>
          simp [linkHandles, Table.entriesAt, linkedTo, PeerLink.handles, timeout]
      | superseded outdated => exact absurd (linked id link linkedTo) outdated
  | connectionTimeout conn =>
      rw [fires] at owed
      cases owed
      refine woken_lapsed tended delivers works moves ?_ ?_
      · cases moves with
        | lapsed _ pursues => simp [pursues.exchanges.1]
        | dismissed _ _ => rfl
        | forgotten _ _ => rfl
      · intro wanted
        obtain ⟨once, due⟩ := of_connectionTimeout wanted fires
        refine ⟨once, ?_, .inr ⟨conn, fires⟩⟩
        intro exact_
        rcases due with dialled | ⟨accepted, handle, held⟩
        · have waiting : (own.dialing.get? conn).isSome := by
            cases waiting : own.dialing.get? conn with
            | none => simp [dialDue, Table.entriesAt, waiting] at dialled
            | some pending => rfl
          rw [lapses, if_pos waiting]
          exact dialled
        · have quiet := exclusive exact_ conn (by rw [held]; rfl)
          rw [lapses, quiet]
          exact accepted
  | reconnect id =>
      rw [fires] at owed
      cases owed
      refine woken_lapsed tended delivers works moves ?_ ?_
      · cases moves with
        | redialled _ _ dials => cases dials <;> rfl
        | reunited _ => rfl
      · intro wanted
        obtain ⟨once, due⟩ := of_reconnect wanted fires
        have lapses_eq : own.lapses (.reconnect id) = [task.deadline] := due
        exact ⟨once, fun _ => lapses_eq, .inl (lapses_eq ▸ List.mem_cons_self)⟩

end Woken

end Tended

end Liveness

end Quorum
