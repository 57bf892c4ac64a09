import Quorum.Network.Cluster
import Quorum.Proofs.Election.Assembly
import Quorum.Proofs.Network.Mailboxes

/-!
# Runs of a cluster

In a run of a cluster the nodes of a roster share one network.  Each is made known to it once, and
started once after that, and no node is stopped.  Apart from that everything is in any order: a node
handles the oldest event in its mailbox or the oldest timer that has fired, takes connections that
were handed off, or has its wheels settled; nodes are isolated and healed; and time passes.  No
shard ends, which is to say that no timer is refused.

A run keeps a log of the ends that were opened, and of the node that had its turn then.

The turns of `Cluster.serve` are such steps (`Cluster.Run.serve`), and so are all of those that
`Cluster.relay` lets the nodes have (`Cluster.Run.relay`).  Hence what is done to a cluster from
outside leads from one state of a run to another: a node is started (`Cluster.Run.start`), all of
them are polled (`Cluster.Run.poll`), one of them is isolated or healed (`Cluster.Run.isolate` and
`Cluster.Run.heal`), or time passes (`Cluster.Run.passUntil`).
-/

namespace Quorum

/-- An end of a connection has been opened during the turn of a node. -/
structure Opening where
  conn : ConnId
  opener : NodeId
  deriving DecidableEq, Repr

namespace Hub

/-- The ends that are open after the turn of a node, and were not open before. -/
def openings (before after : Hub) (opener : NodeId) : List Opening :=
  (after.links.keys.filter fun conn => !before.links.contains conn).map fun conn => ⟨conn, opener⟩

theorem mem_openings {before after : Hub} {opener : NodeId} {opening : Opening} :
    opening ∈ before.openings after opener ↔
      opening.opener = opener ∧ (after.links.get? opening.conn).isSome ∧
        before.links.get? opening.conn = none := by
  have found {conn : ConnId} :
      conn ∈ (after.links.keys.filter fun conn => !before.links.contains conn) ↔
        (after.links.get? conn).isSome ∧ before.links.get? conn = none := by
    rw [List.mem_filter, ← Table.contains_iff_mem_keys, Bool.not_eq_true', Table.contains,
      Table.contains, Option.isSome_eq_false_iff, Option.isNone_iff_eq_none]
  constructor
  · intro listed
    obtain ⟨conn, opened, rfl⟩ := List.mem_map.mp listed
    exact ⟨rfl, found.mp opened⟩
  · rintro ⟨rfl, opened⟩
    exact List.mem_map.mpr ⟨opening.conn, found.mpr opened, rfl⟩

/-- Take the first connections out of a hand-off queue, so many at most. -/
def takeUpTo (hub : Hub) (queue : QueueId) (count : Nat) : List ConnId × Hub :=
  ((hub.handedOffIn queue).take count,
    { hub with queues := hub.queues.modify queue fun held =>
        { held with waiting := held.waiting.drop count } })

theorem takeUpTo_all (hub : Hub) (queue : QueueId) :
    hub.takeUpTo queue (hub.handedOffIn queue).length = hub.takeHandedOff queue := by
  unfold takeUpTo takeHandedOff
  rw [List.take_length]
  unfold Table.modify handedOffIn
  cases hub.queues.get? queue with
  | none => rfl
  | some held =>
      dsimp only
      rw [List.drop_length]
      rfl

end Hub

namespace Cluster

/-- Let a station do one thing, and then take the first connections that were handed off to it, so
many at most. -/
def turnUpTo
    (cluster : Cluster)
    (id : NodeId)
    (station : Station)
    (handler : Act Core Unit)
    (count : Nat) : Cluster :=
  let (accepted, hub) := cluster.hub.takeUpTo station.queue count
  { cluster with hub }.conclude id { station with shard := station.shard.turn handler accepted }

theorem turn_eq_turnUpTo
    (cluster : Cluster)
    (id : NodeId)
    (station : Station)
    (handler : Act Core Unit) :
    cluster.turn id station handler =
      cluster.turnUpTo id station handler (cluster.hub.handedOffIn station.queue).length := by
  unfold turn turnUpTo
  rw [Hub.takeUpTo_all]

/-- What one node does next. -/
inductive Acts (roster : Roster) (id : NodeId) (before : Cluster) : Cluster → Prop where
  /-- It is started, with the mailbox and the queue that it is known by. -/
  | started
      {mailbox : MailboxId} {queue : QueueId} {shard : Shard} {draws : Nat → Nat}
      (enrolled : id ∈ roster.ids)
      (absent : before.stations.get? id = none)
      (known : before.hub.endpoints.get? id = some ⟨mailbox, some queue⟩)
      (valid : (roster.configOf id).validate = .ok ())
      (made : Shard.create (roster.configOf id) before.clockMs draws = .ok shard) :
      Acts roster id before (before.conclude id { shard := shard.begin [], mailbox, queue })
  /-- It handles the oldest event in its mailbox. -/
  | heard
      {station : Station} {event : NetworkEvent} {hub : Hub}
      (here : before.stations.get? id = some station)
      (taken : before.hub.takeEvent station.mailbox = (some event, hub))
      (count : Nat) :
      Acts roster id before
        ({ before with hub }.turnUpTo id station (Core.onNetwork event) count)
  /-- It handles the oldest timer that has fired and still counts. -/
  | fired
      {station : Station} {event : TimerEvent} {shard : Shard}
      (here : before.stations.get? id = some station)
      (received : station.shard.receive = (some event, shard))
      (count : Nat) :
      Acts roster id before (before.turnUpTo id { station with shard } (Core.onTimer event) count)
  /-- No timer that has fired counts any more. -/
  | drained
      {station : Station} {shard : Shard}
      (here : before.stations.get? id = some station)
      (received : station.shard.receive = (none, shard)) :
      Acts roster id before (before.conclude id { station with shard })
  /-- It only takes connections that were handed off. -/
  | polled
      {station : Station}
      (here : before.stations.get? id = some station)
      (count : Nat) :
      Acts roster id before (before.turnUpTo id station (pure ()) count)
  /-- Its wheels are brought up to the clock. -/
  | settled
      {station : Station}
      (here : before.stations.get? id = some station) :
      Acts roster id before
        (before.conclude id { station with shard := station.shard.moveTo before.clockMs })

/-- A node has not ended. -/
def Lasts (cluster : Cluster) (id : NodeId) : Prop :=
  ∀ station ∈ cluster.stations.get? id, station.shard.isRunning = true

instance (cluster : Cluster) (id : NodeId) : Decidable (cluster.Lasts id) :=
  inferInstanceAs (Decidable (∀ station ∈ cluster.stations.get? id, _))

/-- The states that a cluster can come to, with the log of the ends that were opened. -/
inductive Run (roster : Roster) : List Opening → Cluster → Prop where
  | founded : Run roster [] {}
  /-- A node is made known, with a fresh mailbox and a fresh queue.  It does not run yet. -/
  | wired
      {log : List Opening} {cluster : Cluster} {id : NodeId} {queue : QueueId} {hub : Hub}
      (run : Run roster log cluster)
      (unknown : cluster.hub.endpoints.get? id = none)
      (opened : (cluster.hub.register id).2.openQueue (roster.configOf id).handoffCapacity =
        .ok (queue, hub)) :
      Run roster log { cluster with hub := hub.attach id queue }
  | acted
      {log : List Opening} {before after : Cluster} {id : NodeId}
      (run : Run roster log before)
      (acts : Acts roster id before after)
      (lasts : after.Lasts id) :
      Run roster (log ++ before.hub.openings after.hub id) after
  | isolated
      {log : List Opening} {cluster : Cluster}
      (run : Run roster log cluster)
      (id : NodeId) :
      Run roster log { cluster with hub := cluster.hub.isolate id }
  | healed
      {log : List Opening} {cluster : Cluster}
      (run : Run roster log cluster)
      (id : NodeId) :
      Run roster log { cluster with hub := cluster.hub.heal id }
  | elapsed
      {log : List Opening} {cluster : Cluster} {laterMs : Nat}
      (run : Run roster log cluster)
      (later : cluster.clockMs ≤ laterMs) :
      Run roster log { cluster with clockMs := laterMs }

variable
    {roster : Roster}
    {log : List Opening}
    {cluster before : Cluster}
    {id other : NodeId}
    {station : Station}

/-! ## Nodes that last -/

theorem lasts_conclude :
    (cluster.conclude id station).Lasts id ↔ station.shard.isRunning = true := by
  have filed : (cluster.conclude id station).stations.get? id =
      some { station with shard := station.shard.passedOn } :=
    Table.get?_insert_self ..
  unfold Lasts
  rw [filed]
  constructor
  · exact fun lasts => lasts { station with shard := station.shard.passedOn } rfl
  · intro running after same
    cases same
    exact running

theorem lasts_of_values
    (running : ∀ station ∈ cluster.stations.values, station.shard.isRunning = true)
    (id : NodeId) :
    cluster.Lasts id :=
  fun station here => running station (Table.mem_values_iff.mpr ⟨id, here⟩)

/-- A node that is told to end does not last. -/
theorem not_lasts_finish
    {result : Except Error Unit}
    (here : cluster.stations.get? id = some station)
    (lasts : (cluster.finish id station result).Lasts id) : False := by
  unfold finish at lasts
  split at lasts
  · cases lasts_conclude.mp lasts
  · next ended => exact ended (lasts station here)

/-- Nobody else is concerned by the turn of a node. -/
theorem get?_conclude_of_ne (apart : other ≠ id) :
    (cluster.conclude id station).stations.get? other = cluster.stations.get? other :=
  (Table.get?_insert ..).trans (if_neg apart)

/-- Either nothing changes, or one station is filed. -/
theorem finish_eq_self_or_conclude (result : Except Error Unit) :
    cluster.finish id station result = cluster ∨
      ∃ hub filed, cluster.finish id station result =
        ({ cluster with hub } : Cluster).conclude id filed := by
  unfold finish
  split
  · exact .inr ⟨cluster.hub, _, rfl⟩
  · exact .inl rfl

theorem serve_eq_self_or_conclude (cluster : Cluster) (id : NodeId) :
    cluster.serve id = cluster ∨
      ∃ hub filed, cluster.serve id = ({ cluster with hub } : Cluster).conclude id filed := by
  unfold serve
  split
  · exact .inl rfl
  · split
    · unfold handleFired
      split
      · exact .inr ⟨_, _, rfl⟩
      · exact .inr ⟨cluster.hub, _, rfl⟩
    · split
      · exact finish_eq_self_or_conclude _
      · split
        · unfold handleEvent
          split
          · exact .inr ⟨_, _, rfl⟩
          · split
            · exact .inl rfl
            · exact finish_eq_self_or_conclude _
        · exact .inl rfl

theorem get?_serve_of_ne (apart : other ≠ id) :
    (cluster.serve id).stations.get? other = cluster.stations.get? other := by
  obtain same | ⟨hub, filed, same⟩ := cluster.serve_eq_self_or_conclude id
  · rw [same]
  · exact (congrArg (·.stations.get? other) same).trans (get?_conclude_of_ne apart)

/-- Time does not pass while a node has its turn. -/
theorem clockMs_serve : (cluster.serve id).clockMs = cluster.clockMs := by
  obtain same | ⟨hub, filed, same⟩ := cluster.serve_eq_self_or_conclude id
  · rw [same]
  · exact congrArg (·.clockMs) same

/-- A node that has ended stays as it is. -/
theorem serve_of_ended
    (here : cluster.stations.get? id = some station)
    (ended : station.shard.isRunning = false) :
    cluster.serve id = cluster := by
  unfold serve Shard.hasFired Shard.isStranded
  rw [here]
  simp only [ended, Bool.false_and, Bool.false_eq_true, if_false]

/-- A node that lasts has not ended before. -/
theorem Lasts.of_serve (lasts : (cluster.serve other).Lasts id) : cluster.Lasts id := by
  intro station here
  rw [Option.mem_def] at here
  by_cases same : id = other
  · subst same
    cases running : station.shard.isRunning with
    | true => rfl
    | false =>
        rw [serve_of_ended here running] at lasts
        rw [← running]
        exact lasts station here
  · exact lasts station ((get?_serve_of_ne same).trans here)

theorem Lasts.of_serveEach
    {ids : List NodeId}
    (lasts : (ids.foldl serve cluster).Lasts id) :
    cluster.Lasts id := by
  induction ids generalizing cluster with
  | nil => exact lasts
  | cons _ _ ih => exact (ih lasts).of_serve

theorem Lasts.of_relayRounds
    {rounds : Nat}
    (lasts : (relayRounds rounds cluster).Lasts id) :
    cluster.Lasts id := by
  induction rounds generalizing cluster with
  | zero => exact lasts
  | succ rounds ih =>
      unfold relayRounds at lasts
      split at lasts
      · exact (ih lasts).of_serveEach
      · exact lasts

/-! ## What is done to all stations -/

/-- One thing is done at a station.  A station that has ended stays so. -/
structure Sweep (clockMs : Nat) (sweep : Cluster → NodeId × Station → Cluster) : Prop where
  timeless : ∀ cluster entry, (sweep cluster entry).clockMs = cluster.clockMs
  alone : ∀ cluster entry other, other ≠ entry.1 →
    (sweep cluster entry).stations.get? other = cluster.stations.get? other
  acts : ∀ roster cluster entry, cluster.clockMs = clockMs →
    cluster.stations.get? entry.1 = some entry.2 →
      Acts roster entry.1 cluster (sweep cluster entry)
  ended : ∀ cluster entry, (sweep cluster entry).Lasts entry.1 → entry.2.shard.isRunning = true

theorem sweep_poll (clockMs : Nat) :
    Sweep clockMs fun cluster entry => cluster.turn entry.1 entry.2 (pure ()) where
  timeless := fun _ _ => rfl
  alone := fun _ _ _ apart => get?_conclude_of_ne apart
  acts := fun _ cluster entry _ here => turn_eq_turnUpTo cluster entry.1 entry.2 _ ▸ .polled here _
  ended := by
    intro cluster entry lasts
    have running := lasts_conclude.mp lasts
    unfold Shard.turn at running
    split at running
    · assumption
    · exact running

theorem sweep_settle (clockMs : Nat) :
    Sweep clockMs fun cluster entry =>
      cluster.conclude entry.1 { entry.2 with shard := entry.2.shard.moveTo clockMs } where
  timeless := fun _ _ => rfl
  alone := fun _ _ _ apart => get?_conclude_of_ne apart
  acts := by
    rintro _ cluster entry rfl here
    exact .settled here
  ended := fun _ _ => lasts_conclude.mp

namespace Sweep

variable
    {clockMs : Nat}
    {sweep : Cluster → NodeId × Station → Cluster}
    {entries : List (NodeId × Station)}

theorem get?_foldl
    (sweeps : Sweep clockMs sweep)
    (absent : id ∉ entries.map Prod.fst) :
    (entries.foldl sweep cluster).stations.get? id = cluster.stations.get? id := by
  induction entries generalizing cluster with
  | nil => rfl
  | cons entry rest ih =>
      rw [List.map_cons, List.mem_cons, not_or] at absent
      exact (ih absent.2).trans (sweeps.alone cluster entry id absent.1)

/-- The others do not matter for whether a station lasts. -/
theorem lasts_foldl
    (sweeps : Sweep clockMs sweep)
    (absent : id ∉ entries.map Prod.fst) :
    (entries.foldl sweep cluster).Lasts id ↔ cluster.Lasts id := by
  unfold Lasts
  rw [sweeps.get?_foldl absent]

/-- The stations that are still to come stand as they stood. -/
theorem here_of_cons
    {entry : NodeId × Station}
    (sweeps : Sweep clockMs sweep)
    (distinct : ((entry :: entries).map Prod.fst).Nodup)
    (here : ∀ later ∈ entry :: entries, cluster.stations.get? later.1 = some later.2) :
    ∀ later ∈ entries, (sweep cluster entry).stations.get? later.1 = some later.2 := by
  intro later listed
  have apart : later.1 ≠ entry.1 := by
    intro same
    rw [List.map_cons, List.nodup_cons] at distinct
    exact distinct.1 (same ▸ List.mem_map_of_mem listed)
  exact (sweeps.alone cluster entry _ apart).trans (here later (.tail _ listed))

/-- A station that lasts has not ended before. -/
theorem lasts_of_foldl
    (sweeps : Sweep clockMs sweep)
    (distinct : (entries.map Prod.fst).Nodup)
    (here : ∀ entry ∈ entries, cluster.stations.get? entry.1 = some entry.2)
    (lasts : (entries.foldl sweep cluster).Lasts id) :
    cluster.Lasts id := by
  induction entries generalizing cluster with
  | nil => exact lasts
  | cons entry rest ih =>
      have after : (sweep cluster entry).Lasts id :=
        ih distinct.of_cons (sweeps.here_of_cons distinct here) lasts
      intro station held
      by_cases same : id = entry.1
      · subst same
        obtain rfl : entry.2 = station :=
          Option.some.inj ((here entry (List.mem_cons_self ..)).symm.trans held)
        exact sweeps.ended cluster entry after
      · exact after station ((sweeps.alone cluster entry id same).trans held)

theorem timeless_foldl (sweeps : Sweep clockMs sweep) :
    (entries.foldl sweep cluster).clockMs = cluster.clockMs := by
  induction entries generalizing cluster with
  | nil => rfl
  | cons entry rest ih => exact ih.trans (sweeps.timeless cluster entry)

end Sweep

theorem clockMs_serveEach {ids : List NodeId} :
    (ids.foldl serve cluster).clockMs = cluster.clockMs := by
  induction ids generalizing cluster with
  | nil => rfl
  | cons _ _ ih => exact ih.trans clockMs_serve

theorem clockMs_relayRounds {rounds : Nat} :
    (relayRounds rounds cluster).clockMs = cluster.clockMs := by
  induction rounds generalizing cluster with
  | zero => rfl
  | succ rounds ih =>
      unfold relayRounds
      split
      · exact ih.trans clockMs_serveEach
      · rfl

theorem clockMs_visit {clockMs : Nat} : (visit clockMs cluster).clockMs = clockMs :=
  clockMs_relayRounds.trans (sweep_settle clockMs).timeless_foldl

theorem Lasts.of_visit {clockMs : Nat} (lasts : (visit clockMs cluster).Lasts id) :
    cluster.Lasts id := by
  have later : Lasts { cluster with clockMs } id :=
    (sweep_settle clockMs).lasts_of_foldl cluster.stations.distinct
      (fun _ => Table.mem_entries_iff.mp) lasts.of_relayRounds
  exact later

/-- From one visit to the next, up to a target. -/
inductive Passes (targetMs : Nat) : Cluster → Cluster → Prop where
  | arrived (cluster : Cluster) : Passes targetMs cluster (cluster.visit targetMs)
  | woken {before after : Cluster} {wakeMs : Nat} (later : before.clockMs ≤ wakeMs)
      (earlier : wakeMs ≤ targetMs) (passes : Passes targetMs (visit wakeMs before) after) :
      Passes targetMs before after

theorem Passes.lasts_of_after
    {targetMs : Nat}
    {after : Cluster}
    (passes : Passes targetMs before after)
    (lasts : after.Lasts id) :
    before.Lasts id := by
  induction passes with
  | arrived _ => exact lasts.of_visit
  | woken _ _ _ ih => exact (ih lasts).of_visit

theorem passes_passUntil (cluster : Cluster) (targetMs : Nat) :
    Passes targetMs cluster (cluster.passUntil targetMs) := by
  have passed {clockMs : Nat} (now : cluster.clockMs = clockMs) :
      ∃ after, Passes targetMs cluster after ∧
        passTime (fun held => .ok held.wakeMs) (fun clockMs held => .ok (visit clockMs held))
          targetMs clockMs cluster = .ok after := by
    induction clockMs, cluster using passTime.induct (fun held => .ok held.wakeMs)
        (fun clockMs held => .ok (visit clockMs held)) targetMs with
    | case1 _ _ _ failed => cases failed
    | case2 clockMs cluster asleep =>
        refine ⟨_, .arrived cluster, ?_⟩
        unfold passTime
        rw [asleep]
    | case3 _ _ _ _ _ _ failed => cases failed
    | case4 clockMs cluster wakeMs awake due _ visited ih =>
        cases visited
        obtain ⟨after, passes, same⟩ := ih clockMs_visit
        refine ⟨after, .woken (now ▸ Nat.le_of_lt due.1) due.2 passes, ?_⟩
        unfold passTime
        simp only [awake, dif_pos due, same]
    | case5 clockMs cluster wakeMs awake undue =>
        refine ⟨_, .arrived cluster, ?_⟩
        unfold passTime
        simp only [awake, dif_neg undue]
  obtain ⟨after, passes, same⟩ := passed rfl
  unfold passUntil
  rw [same]
  exact passes

/-! ## The turns that the nodes are given -/

namespace Run

theorem idle (run : Run roster log cluster) : ∃ more, Run roster (log ++ more) cluster :=
  ⟨[], (List.append_nil log).symm ▸ run⟩

/-- What leads from one state to the next leads on from there. -/
theorem onward
    {after : Cluster}
    (led : ∃ more, Run roster (log ++ more) before)
    (leads : ∀ {past}, Run roster past before → ∃ more, Run roster (past ++ more) after) :
    ∃ more, Run roster (log ++ more) after := by
  obtain ⟨more, run⟩ := led
  obtain ⟨further, run⟩ := leads run
  exact ⟨more ++ further, List.append_assoc .. ▸ run⟩

/-- A turn of a node is a step of a run, if the node does not end. -/
theorem serve
    (run : Run roster log before)
    (id : NodeId)
    (lasts : (before.serve id).Lasts id) :
    ∃ more, Run roster (log ++ more) (before.serve id) := by
  have acted {after : Cluster} (acts : Acts roster id before after) (lasts : after.Lasts id) :
      ∃ more, Run roster (log ++ more) after := ⟨_, run.acted acts lasts⟩
  unfold Cluster.serve at lasts ⊢
  split
  · exact run.idle
  · next station here =>
    rw [here] at lasts
    dsimp only at lasts
    split
    · next fired =>
      rw [if_pos fired] at lasts
      unfold handleFired at lasts ⊢
      split
      · next event shard received =>
        rw [received] at lasts
        dsimp only at lasts
        rw [turn_eq_turnUpTo] at lasts ⊢
        exact acted (.fired here received _) lasts
      · next shard received =>
        rw [received] at lasts
        exact acted (.drained here received) lasts
    · next unfired =>
      rw [if_neg unfired] at lasts
      split
      · next stranded =>
        rw [if_pos stranded] at lasts
        exact (not_lasts_finish here lasts).elim
      · next ticking =>
        rw [if_neg ticking] at lasts
        split
        · next running =>
          rw [if_pos running] at lasts
          unfold handleEvent at lasts ⊢
          split
          · next event hub taken =>
            rw [taken] at lasts
            dsimp only at lasts
            rw [turn_eq_turnUpTo] at lasts ⊢
            exact acted (.heard here taken _) lasts
          · next taken =>
            rw [taken] at lasts
            dsimp only at lasts
            split
            · exact run.idle
            · next unaddressed =>
              rw [if_neg unaddressed] at lasts
              exact (not_lasts_finish here lasts).elim
        · exact run.idle

/-- So are the turns of several nodes, one after the other. -/
theorem serveEach
    {ids : List NodeId}
    (run : Run roster log before)
    (lasts : ∀ id, (ids.foldl Cluster.serve before).Lasts id) :
    ∃ more, Run roster (log ++ more) (ids.foldl Cluster.serve before) := by
  induction ids generalizing log before with
  | nil => exact run.idle
  | cons id rest ih =>
      have later (other : NodeId) : (rest.foldl Cluster.serve (before.serve id)).Lasts other :=
        lasts other
      exact onward (run.serve id (later id).of_serveEach) fun run => ih run lasts

/-- The nodes have as many turns as they need, and none of them ends. -/
theorem relayRounds
    {rounds : Nat}
    (run : Run roster log before)
    (lasts : ∀ id, (Cluster.relayRounds rounds before).Lasts id) :
    ∃ more, Run roster (log ++ more) (Cluster.relayRounds rounds before) := by
  induction rounds generalizing log before with
  | zero => exact run.idle
  | succ rounds ih =>
      unfold Cluster.relayRounds at lasts ⊢
      split
      · next busy =>
        rw [if_pos busy] at lasts
        have served := run.serveEach fun id => (lasts id).of_relayRounds
        exact onward served fun run => ih run lasts
      · exact run.idle

theorem relay
    (run : Run roster log before)
    (lasts : ∀ id, before.relay.Lasts id) :
    ∃ more, Run roster (log ++ more) before.relay :=
  run.relayRounds lasts

/-- A node that is not known yet is made known and started in a run, and what follows are steps of
that run. -/
theorem start
    {draws : Nat → Nat}
    {after : Cluster}
    (run : Run roster log before)
    (enrolled : id ∈ roster.ids)
    (absent : before.stations.get? id = none)
    (unknown : before.hub.endpoints.get? id = none)
    (begun : before.start (roster.configOf id) draws = .ok (.ok (), after))
    (lasts : ∀ id, after.Lasts id) :
    ∃ more, Run roster (log ++ more) after := by
  unfold Cluster.start at begun
  rw [roster.named id enrolled] at begun
  obtain ⟨⟨queue, hub⟩, opened, begun⟩ := bind_eq_ok_iff.mp begun
  dsimp only at begun
  rw [absent] at begun
  split at begun
  · cases begun
  · cases begun
  · next shard made =>
    obtain ⟨_, valid, made⟩ := bind_eq_ok_iff.mp made
    obtain rfl := (Prod.mk.inj (Except.ok.inj begun)).2
    have wired := run.wired unknown opened
    have known := Hub.get?_endpoints_wired opened
    have acts : Acts roster id { before with hub := hub.attach id queue } _ :=
      .started enrolled absent known valid made
    exact onward ⟨_, wired.acted acts (lasts id).of_relayRounds⟩ fun run => run.relay lasts

/-- A node is isolated, and the others react. -/
theorem isolate
    (run : Run roster log before)
    (id : NodeId)
    (lasts : ∀ other, (before.modifyHub (·.isolate id)).Lasts other) :
    ∃ more, Run roster (log ++ more) (before.modifyHub (·.isolate id)) :=
  (run.isolated id).relay lasts

/-- A node is healed, and the others react. -/
theorem heal
    (run : Run roster log before)
    (id : NodeId)
    (lasts : ∀ other, (before.modifyHub (·.heal id)).Lasts other) :
    ∃ more, Run roster (log ++ more) (before.modifyHub (·.heal id)) :=
  (run.healed id).relay lasts

/-- One thing is done at several stations. -/
theorem sweep
    {clockMs : Nat}
    {sweep : Cluster → NodeId × Station → Cluster}
    {entries : List (NodeId × Station)}
    (sweeps : Sweep clockMs sweep)
    (run : Run roster log before)
    (now : before.clockMs = clockMs)
    (distinct : (entries.map Prod.fst).Nodup)
    (here : ∀ entry ∈ entries, before.stations.get? entry.1 = some entry.2)
    (lasts : ∀ id, (entries.foldl sweep before).Lasts id) :
    ∃ more, Run roster (log ++ more) (entries.foldl sweep before) := by
  induction entries generalizing log before with
  | nil => exact run.idle
  | cons entry rest ih =>
      have acts := sweeps.acts roster before entry now (here entry (List.mem_cons_self ..))
      have absent : entry.1 ∉ rest.map Prod.fst := (List.nodup_cons.mp distinct).1
      have swept := run.acted acts ((sweeps.lasts_foldl absent).mp (lasts entry.1))
      exact onward ⟨_, swept⟩ fun run => ih run ((sweeps.timeless before entry).trans now)
        distinct.of_cons (sweeps.here_of_cons distinct here) lasts

/-- The poll interval of every node elapses. -/
theorem poll
    (run : Run roster log before)
    (lasts : ∀ id, before.poll.Lasts id) :
    ∃ more, Run roster (log ++ more) before.poll := by
  have polled := run.sweep (sweep_poll before.clockMs) rfl before.stations.distinct
    (fun _ => Table.mem_entries_iff.mp) fun id => (lasts id).of_relayRounds
  exact onward polled fun run => run.relay lasts

/-- The clock moves, and what is due is handled. -/
theorem visit
    {clockMs : Nat}
    (run : Run roster log before)
    (later : before.clockMs ≤ clockMs)
    (lasts : ∀ id, (Cluster.visit clockMs before).Lasts id) :
    ∃ more, Run roster (log ++ more) (Cluster.visit clockMs before) := by
  have moved := (run.elapsed later).sweep (sweep_settle clockMs) rfl before.stations.distinct
    (fun _ => Table.mem_entries_iff.mp) fun id => (lasts id).of_relayRounds
  exact onward moved fun run => run.relay lasts

theorem passes
    {targetMs : Nat}
    {after : Cluster}
    (run : Run roster log before)
    (later : before.clockMs ≤ targetMs)
    (passes : Passes targetMs before after)
    (lasts : ∀ id, after.Lasts id) :
    ∃ more, Run roster (log ++ more) after := by
  induction passes generalizing log with
  | arrived _ => exact run.visit later lasts
  | woken unpassed earlier passes ih =>
      have visited := run.visit unpassed fun id => passes.lasts_of_after (lasts id)
      exact onward visited fun run => ih run (clockMs_visit.symm ▸ earlier) lasts

/-- Time passes. -/
theorem passUntil
    {targetMs : Nat}
    (run : Run roster log before)
    (later : before.clockMs ≤ targetMs)
    (lasts : ∀ id, (before.passUntil targetMs).Lasts id) :
    ∃ more, Run roster (log ++ more) (before.passUntil targetMs) :=
  run.passes later (passes_passUntil before targetMs) lasts

end Run

end Cluster

end Quorum
