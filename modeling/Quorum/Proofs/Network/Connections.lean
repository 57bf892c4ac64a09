import Quorum.Proofs.Network.Runs
import Quorum.Proofs.Network.Turns

/-!
# One connection for each pair

However the turns of the nodes follow one another, whatever waits in their mailboxes by then, and
whoever is isolated or healed meanwhile, two nodes of a cluster are never connected twice, and it is
the node with the larger id that has opened the connection between them.  A node that has to dial a
peer is always in one state of contact with it, be the peer there or not
(`Cluster.Run.wellConnected`).

Between two turns a cluster is in order (`Cluster.Orderly`): its network is a mesh in which nobody
has anything left to ask for.
-/

namespace Quorum

section Runs

variable
    {roster : Roster}
    {origins : Origins}
    {links : Table ConnId Link}
    {id : NodeId}

/-! ## Between two turns -/

/-- A log names the dialler of each end that is open, and of none wrongly. -/
structure Origins.Logs
    (origins : Origins)
    (links : Table ConnId Link)
    (log : List Opening) : Prop where
  dialled : ∀ opening ∈ log, ∃ origin, origins opening.conn = some origin ∧
    origin.dialler = opening.opener
  complete : ∀ conn, (links.get? conn).isSome → ∃ opening ∈ log, opening.conn = conn

/-- The log is continued with what was opened during a turn. -/
theorem Origins.Logs.append
    {origins' : Origins}
    {hub hub' : Hub}
    {log : List Opening}
    (logs : origins.Logs hub.links log)
    (extended : origins.Extends origins' id hub.links hub'.links) :
    origins'.Logs hub'.links (log ++ hub.openings hub' id) where
  dialled := by
    intro opening listed
    rcases List.mem_append.mp listed with old | new
    · obtain ⟨origin, born, dialled⟩ := logs.dialled opening old
      exact ⟨origin, extended.grows _ _ born, dialled⟩
    · obtain ⟨rfl, opened, unopened⟩ := Hub.mem_openings.mp new
      refine (extended.dialled _ opened).resolve_left fun held => ?_
      rw [unopened] at held
      cases held
  complete := by
    intro conn held
    cases old : hub.links.get? conn with
    | none =>
        exact ⟨⟨conn, id⟩, List.mem_append_right _ (Hub.mem_openings.mpr ⟨rfl, held, old⟩), rfl⟩
    | some link =>
        obtain ⟨opening, listed, same⟩ := logs.complete conn (Option.isSome_of_eq_some old)
        exact ⟨opening, List.mem_append_left _ listed, same⟩

/-- A station that waits for its next turn. -/
structure Station.Waits (hub : Hub) (id : NodeId) (station : Station) : Prop where
  running : station.shard.isRunning = true
  unasked : station.shard.stage.outside.asked = []
  addressed : hub.mailboxOf? id = some station.mailbox

namespace Cluster

/-- The nodes of a cluster as parties of its network. -/
def parties (cluster : Cluster) (id : NodeId) : Option Party :=
  (cluster.stations.get? id).map fun station => station.shard.stage.party

/-- A cluster between two turns. -/
structure Orderly
    (roster : Roster)
    (origins : Origins)
    (log : List Opening)
    (cluster : Cluster) : Prop where
  meshed : cluster.hub.Meshed roster origins cluster.parties
  waits : ∀ id station, cluster.stations.get? id = some station → station.Waits cluster.hub id
  logs : origins.Logs cluster.hub.links log

variable
    {log : List Opening}
    {before after : Cluster}
    {station : Station}
    {hub : Hub}

theorem parties_of_here (here : before.stations.get? id = some station) :
    before.parties id = some station.shard.stage.party :=
  Option.map_eq_some_iff.mpr ⟨station, here, rfl⟩

namespace Orderly

/-- Nobody runs yet. -/
theorem founded : Orderly roster (fun _ => none) [] {} where
  meshed := {
    posted := .empty
    known := fun _ seated => nomatch seated
    mesh := {
      issued := fun _ _ born => nomatch born
      ordered := fun _ _ born => nomatch born
      linked := fun _ _ held => nomatch held
      vouched := fun _ _ waiting => nomatch waiting
      sound := fun _ _ seated => nomatch seated
      settled := fun _ _ seated => nomatch seated
      unasked := fun _ _ _ => rfl
      tracked := fun _ _ held => nomatch held } }
  waits := fun _ _ here => nomatch here
  logs := {
    dialled := fun _ listed => nomatch listed
    complete := fun _ held => nomatch held }

/-- The network has changed in nothing that concerns connections. -/
theorem withHub
    (orderly : Orderly roster origins log before)
    (endpoints : hub.endpoints = before.hub.endpoints)
    (links : hub.links = before.hub.links)
    (mailboxes : hub.mailboxes = before.hub.mailboxes)
    (issued : hub.issued = before.hub.issued) :
    Orderly roster origins log { before with hub } := by
  have known (other : NodeId) : hub.mailboxOf? other = before.hub.mailboxOf? other := by
    unfold Hub.mailboxOf?
    rw [endpoints]
  have scene_eq : hub.scene before.parties = before.hub.scene before.parties := by
    unfold Hub.scene
    rw [Hub.inbox_congr known mailboxes, links, issued]
  exact {
    meshed := {
      posted := orderly.meshed.posted.of_eq known mailboxes (Nat.le_of_eq issued.symm)
      known := fun other seated => (known other).symm ▸ orderly.meshed.known other seated
      mesh := scene_eq.symm ▸ orderly.meshed.mesh }
    waits := by
      intro other station here
      have waits := orderly.waits other station here
      exact { waits with addressed := (known other).trans waits.addressed }
    logs := links.symm ▸ orderly.logs }

/-- A node is made known. -/
theorem wires
    {queue : QueueId}
    {capacity : Nat}
    (orderly : Orderly roster origins log before)
    (unknown : before.hub.endpoints.get? id = none)
    (opened : (before.hub.register id).2.openQueue capacity = .ok (queue, hub)) :
    Orderly roster origins log { before with hub := hub.attach id queue } where
  meshed := orderly.meshed.wires (Option.map_eq_none_iff.mpr unknown) opened
  waits := by
    intro other station here
    have waits := orderly.waits other station here
    have apart : other ≠ id := by
      rintro rfl
      cases (Option.map_eq_none_iff.mpr unknown).symm.trans waits.addressed
    exact { waits with addressed :=
      (Hub.mailboxOf?_wired opened).trans ((if_neg apart).trans waits.addressed) }
  logs := Hub.links_wired opened ▸ orderly.logs

/-- What a station has asked for is carried out, and it waits for its next turn. -/
theorem conclude
    (orderly : Orderly roster origins log before)
    (links : hub.links = before.hub.links)
    (known : ∀ other, hub.mailboxOf? other = before.hub.mailboxOf? other)
    (addressed : before.hub.mailboxOf? id = some station.mailbox)
    (meshed : hub.Meshed roster origins
      (Function.update before.parties id (some station.shard.stage.party)))
    (running : station.shard.isRunning = true) :
    let after := ({ before with hub } : Cluster).conclude id station
    ∃ origins', Orderly roster origins' (log ++ before.hub.openings after.hub id) after := by
  intro after
  obtain ⟨origins', extended, meshed'⟩ := meshed.carryOutAll station.shard.asked
    (Function.update_self ..) rfl
  have hub_eq : after.hub =
      station.shard.asked.foldl (fun hub wish => hub.carryOut id wish.2) hub :=
    if_pos running
  rw [← hub_eq] at extended meshed'
  rw [links] at extended
  have passed : after.stations.get? id =
      some { station with shard := station.shard.passedOn } :=
    Table.get?_insert_self ..
  have parties_eq : after.parties =
      Function.update before.parties id (some { station.shard.stage.party with asks := [] }) := by
    funext other
    by_cases here : other = id
    · subst here
      rw [Function.update_self, parties_of_here passed]
      rfl
    · rw [Function.update_of_ne here]
      unfold parties
      rw [get?_conclude_of_ne here]
  rw [Function.update_idem, ← parties_eq] at meshed'
  have addresses (other : NodeId) : after.hub.mailboxOf? other = before.hub.mailboxOf? other := by
    rw [hub_eq]
    exact Hub.mailboxOf?_carryOutAll.trans (known other)
  refine ⟨origins', meshed', ?_, orderly.logs.append extended⟩
  intro other station' here
  by_cases same : other = id
  · subst same
    rw [passed] at here
    cases here
    exact ⟨running, rfl, (addresses other).trans addressed⟩
  · rw [get?_conclude_of_ne same] at here
    have waits := orderly.waits other station' here
    exact { waits with addressed := (addresses other).trans waits.addressed }

/-- A station has its turn, and takes some of the connections that were handed off. -/
theorem turns
    {handler : Act Core Unit}
    {count : Nat}
    (orderly : Orderly roster origins log before)
    (links : hub.links = before.hub.links)
    (known : ∀ other, hub.mailboxOf? other = before.hub.mailboxOf? other)
    (addressed : before.hub.mailboxOf? id = some station.mailbox)
    (meshed : ∀ accepted, (station.shard.turn handler accepted).isRunning = true →
      hub.Meshed roster origins (Function.update before.parties id
        (some (station.shard.turn handler accepted).stage.party)))
    (lasts : (({ before with hub } : Cluster).turnUpTo id station handler count).Lasts id) :
    ∃ origins', Orderly roster origins'
      (log ++ before.hub.openings
        (({ before with hub } : Cluster).turnUpTo id station handler count).hub id)
      (({ before with hub } : Cluster).turnUpTo id station handler count) := by
  have running := lasts_conclude.mp lasts
  exact orderly.conclude links known addressed (meshed _ running).withQueues running

end Orderly

/-- Whatever a node does, the cluster is in order when it has done it. -/
theorem Acts.orderly
    (acts : Acts roster id before after)
    (lasts : after.Lasts id)
    (orderly : Orderly roster origins log before) :
    ∃ origins', Orderly roster origins' (log ++ before.hub.openings after.hub id) after := by
  cases acts with
  | @started mailbox queue shard draws enrolled absent known _ made =>
      have running := lasts_conclude.mp lasts
      obtain ⟨timers, sinceMs, started, stage_eq, fresh⟩ := Shard.create_eq_ok made
      have unarmed : shard.stage.outside.timers.held = [] := by
        rw [stage_eq]
        exact Scheduler.held_of_start started
      have unasked : shard.stage.outside.asked = [] := by rw [stage_eq]
      have unseated : before.parties id = none := Option.map_eq_none_iff.mpr absent
      have addressed : before.hub.mailboxOf? id = some mailbox :=
        Option.map_eq_some_iff.mpr ⟨_, known, rfl⟩
      have meshed := orderly.meshed.starts unseated (Option.isSome_of_eq_some addressed) enrolled
        (congrArg Stage.own stage_eq) unasked unarmed (Shard.begin_acts fresh running)
      exact orderly.conclude rfl (fun _ => rfl) addressed meshed running
  | @heard station event _ here taken count =>
      have waits := orderly.waits id _ here
      obtain ⟨_, rfl⟩ := Prod.mk.inj taken
      refine orderly.turns rfl (fun _ => rfl) waits.addressed ?_ lasts
      intro accepted lasts
      have takes := Shard.turn_takes waits.running (.told (.reported event)) accepted
      exact orderly.meshed.hears (parties_of_here here) waits.addressed taken
        (takes.answered_of_running lasts)
  | fired here received count =>
      have waits := orderly.waits id _ here
      obtain ⟨task, timers, found, rfl, rfl⟩ := Shard.receive_eq_some received
      refine orderly.turns rfl (fun _ => rfl) waits.addressed ?_ lasts
      intro accepted lasts
      have running : (Shard.modifyTimers _ fun _ => timers).isRunning = true := waits.running
      exact orderly.meshed.wakes (parties_of_here here) found
        ((Shard.turn_takes running (.timer task.payload) accepted).answered_of_running lasts)
  | drained here received =>
      have waits := orderly.waits id _ here
      have running := lasts_conclude.mp lasts
      obtain ⟨timers, found, rfl⟩ := Shard.receive_eq_none received running
      have seated := parties_of_here here
      refine orderly.conclude rfl (fun _ => rfl) waits.addressed ?_ running
      refine orderly.meshed.seat seated (orderly.meshed.mesh.retimed seated fun task listed => ?_)
      rw [Scheduler.receive_eq_none found] at listed
      exact ⟨task, List.mem_append_right _ listed, rfl⟩
  | polled here count =>
      have waits := orderly.waits id _ here
      refine orderly.turns rfl (fun _ => rfl) waits.addressed ?_ lasts
      intro accepted running
      have seated := parties_of_here here
      have answered : Answered _ (Shard.handOffs accepted) _ :=
        (Shard.perform_takes waits.running (.polled accepted)).answered_of_running running
      exact orderly.meshed.seat seated (orderly.meshed.mesh.accepts seated answered)
  | settled here =>
      have waits := orderly.waits id _ here
      have seated := parties_of_here here
      refine orderly.conclude rfl (fun _ => rfl) waits.addressed ?_ (lasts_conclude.mp lasts)
      refine orderly.meshed.seat seated (orderly.meshed.mesh.retimed seated fun task listed => ?_)
      obtain ⟨_, kept⟩ := Scheduler.exists_lost _ before.clockMs
      exact ⟨task, kept.mem_iff.mp (List.mem_append_left _ listed), rfl⟩

/-- A cluster is in order throughout its run. -/
theorem Run.orderly {cluster : Cluster} (run : Run roster log cluster) :
    ∃ origins, Orderly roster origins log cluster := by
  induction run with
  | founded => exact ⟨_, .founded⟩
  | wired _ unknown opened ih =>
      obtain ⟨origins, orderly⟩ := ih
      exact ⟨origins, orderly.wires unknown opened⟩
  | acted _ acts lasts ih =>
      obtain ⟨_, orderly⟩ := ih
      exact acts.orderly lasts orderly
  | isolated _ _ ih | healed _ _ ih =>
      obtain ⟨origins, orderly⟩ := ih
      exact ⟨origins, orderly.withHub rfl rfl rfl rfl⟩
  | elapsed _ _ ih =>
      obtain ⟨origins, orderly⟩ := ih
      exact ⟨origins, { orderly with }⟩

end Cluster

/-! ## Pairs of nodes -/

/-- Two nodes are connected by the two ends. -/
structure Hub.Connects
    (hub : Hub)
    (near : ConnId)
    (one : NodeId)
    (far : ConnId)
    (other : NodeId) : Prop where
  here : hub.links.get? near = some ⟨one, far⟩
  there : hub.links.get? far = some ⟨other, near⟩

theorem Hub.Connects.symm
    {hub : Hub}
    {near far : ConnId}
    {one other : NodeId}
    (connects : hub.Connects near one far other) :
    hub.Connects far other near one :=
  ⟨connects.there, connects.here⟩

namespace Cluster

/-- What is true of the connections of a cluster. -/
structure WellConnected (roster : Roster) (log : List Opening) (cluster : Cluster) : Prop where
  /-- An end that is open belongs to a connection. -/
  paired : ∀ conn link, cluster.hub.links.get? conn = some link →
    ∃ other, cluster.hub.Connects conn link.owner link.remote other
  /-- Two nodes have one connection at most. -/
  single : ∀ one other near far near' far', cluster.hub.Connects near one far other →
    cluster.hub.Connects near' one far' other → near = near' ∧ far = far'
  /-- It has been opened by the one with the larger id, and by nobody else. -/
  opened : ∀ near one far other, cluster.hub.Connects near one far other → ∃ opener,
    (opener = one ∧ other < one ∨ opener = other ∧ one < other) ∧
      ∀ node, ⟨near, node⟩ ∈ log ↔ node = opener
  /-- A node is in one state of contact with each peer that it has to dial. -/
  reached : ∀ id station, cluster.stations.get? id = some station →
    ∀ target ∈ (roster.configOf id).dialTargets,
      ∃! contact, station.shard.stage.own.liveness.InContact target.id contact

namespace Orderly

variable
    {log : List Opening}
    {cluster : Cluster}
    {near far near' far' : ConnId}
    {one other : NodeId}

/-- One of the two nodes has dialled the other. -/
theorem dialled
    (orderly : Orderly roster origins log cluster)
    (connects : cluster.hub.Connects near one far other) :
    (origins near = some ⟨one, other, true⟩ ∧ origins far = some ⟨one, other, false⟩) ∨
      (origins near = some ⟨other, one, false⟩ ∧ origins far = some ⟨other, one, true⟩) := by
  obtain ⟨⟨dialler, target, isNear⟩, born, owned, bornFar, heldFar⟩ :=
    orderly.meshed.mesh.linked near _ connects.here
  have far_eq := connects.there.symm.trans heldFar
  cases isNear with
  | true =>
      obtain rfl : one = dialler := owned
      obtain rfl : other = target := congrArg Link.owner (Option.some.inj far_eq)
      exact .inl ⟨born, bornFar⟩
  | false =>
      obtain rfl : one = target := owned
      obtain rfl : other = dialler := congrArg Link.owner (Option.some.inj far_eq)
      exact .inr ⟨born, bornFar⟩

/-- What a node has dialled is its only connection to that peer. -/
theorem eq_of_dialled
    (orderly : Orderly roster origins log cluster)
    (connects : cluster.hub.Connects near one far other)
    (connects' : cluster.hub.Connects near' one far' other)
    (born : origins near = some ⟨one, other, true⟩)
    (born' : origins near' = some ⟨one, other, true⟩) :
    near = near' ∧ far = far' := by
  have mesh := orderly.meshed.mesh
  obtain ⟨party, seated, tracks⟩ := mesh.tracked near _ connects.here one other born
  obtain ⟨party', seated', tracks'⟩ := mesh.tracked near' _ connects'.here one other born'
  obtain rfl : party = party' := Option.some.inj (seated.symm.trans seated')
  obtain ⟨station, here, rfl⟩ := Option.map_eq_some_iff.mp seated
  have idle : station.shard.stage.party.asks = [] := by
    unfold Stage.party
    rw [(orderly.waits one station here).unasked]
    rfl
  obtain rfl := mesh.eq_of_tracks seated idle (mesh.ordered near _ born) tracks tracks'
  exact ⟨rfl, congrArg Link.remote (Option.some.inj (connects.here.symm.trans connects'.here))⟩

theorem single
    (orderly : Orderly roster origins log cluster)
    (connects : cluster.hub.Connects near one far other)
    (connects' : cluster.hub.Connects near' one far' other) :
    near = near' ∧ far = far' := by
  have mesh := orderly.meshed.mesh
  -- The two nodes do not both dial each other.
  have apart {near near' : ConnId} (born : origins near = some ⟨one, other, true⟩)
      (born' : origins near' = some ⟨other, one, false⟩) : False :=
    (mesh.ordered near _ born).asymm (mesh.ordered near' _ born')
  rcases orderly.dialled connects with ⟨born, _⟩ | ⟨born, bornFar⟩
  · rcases orderly.dialled connects' with ⟨born', _⟩ | ⟨born', _⟩
    · exact orderly.eq_of_dialled connects connects' born born'
    · exact (apart born born').elim
  · rcases orderly.dialled connects' with ⟨born', _⟩ | ⟨_, bornFar'⟩
    · exact (apart born' born).elim
    · exact (orderly.eq_of_dialled connects.symm connects'.symm bornFar bornFar').symm

/-- The log has the dialler of an open end, and nobody else. -/
theorem logged
    {origin : Origin}
    (orderly : Orderly roster origins log cluster)
    (connects : cluster.hub.Connects near one far other)
    (born : origins near = some origin)
    (node : NodeId) :
    ⟨near, node⟩ ∈ log ↔ node = origin.dialler := by
  constructor
  · intro listed
    obtain ⟨_, born', dialled⟩ := orderly.logs.dialled _ listed
    cases born.symm.trans born'
    exact dialled.symm
  · rintro rfl
    obtain ⟨⟨conn, opener⟩, listed, rfl⟩ := orderly.logs.complete near
      (Option.isSome_of_eq_some connects.here)
    obtain ⟨_, born', dialled⟩ := orderly.logs.dialled _ listed
    cases born.symm.trans born'
    exact dialled ▸ listed

end Orderly

/-- Whatever happens to a cluster none of whose nodes ends, two of its nodes have one connection at
most, which the one with the larger id has opened, and a node is in one state of contact with each
peer that it has to dial. -/
theorem Run.wellConnected
    {log : List Opening}
    {cluster : Cluster}
    (run : Run roster log cluster) :
    cluster.WellConnected roster log := by
  obtain ⟨origins, orderly⟩ := run.orderly
  have mesh := orderly.meshed.mesh
  exact {
    paired := by
      intro conn link held
      obtain ⟨origin, _, _, _, heldFar⟩ := mesh.linked conn link held
      exact ⟨origin.other, held, heldFar⟩
    single := fun _ _ _ _ _ _ => orderly.single
    opened := by
      intro near one far other connects
      rcases orderly.dialled connects with ⟨born, _⟩ | ⟨born, _⟩
      · exact ⟨one, .inl ⟨rfl, (mesh.ordered near _ born).below⟩, orderly.logged connects born⟩
      · exact ⟨other, .inr ⟨rfl, (mesh.ordered near _ born).below⟩, orderly.logged connects born⟩
    reached := by
      intro id station here target listed
      have seated := parties_of_here here
      have enrolled := (mesh.sound id _ seated).enrolled
      have dials := (roster.dialTargets_iff enrolled).mp ⟨target, listed, rfl⟩
      obtain ⟨contact, sole⟩ := mesh.settled id _ seated target.id dials
      exact sole.existsUnique }

end Cluster

end Runs

namespace Duo

/-! ### A cluster of two

Member `1` starts, and then member `2`, which dials it.  When one of them has been isolated for long
enough, each gives the other up and hangs up.  Once it is healed, member `2` dials anew. -/

def roster : Roster where
  ids := ["1", "2"]
  configOf id :=
    { id
      peers := (["1", "2"].filter fun other => other ≠ id).map fun other => ⟨other, "", 0⟩
      timer := ⟨1000, 20, 20⟩ }
  distinct := by decide
  named := fun _ _ => rfl
  shared := by decide

/-- The cluster after a node was started. -/
def joined (cluster : Cluster) (id : NodeId) : Cluster :=
  match cluster.start (roster.configOf id) fun _ => 0 with
  | .ok (_, after) => after
  | .error _ => cluster

def isStarted (cluster : Cluster) (id : NodeId) : Bool :=
  match cluster.start (roster.configOf id) fun _ => 0 with
  | .ok (.ok _, _) => true
  | _ => false

theorem start_eq {cluster : Cluster} {id : NodeId} (started : isStarted cluster id = true) :
    cluster.start (roster.configOf id) (fun _ => 0) = .ok (.ok (), joined cluster id) := by
  unfold isStarted at started
  unfold joined
  split at started
  · next same => rw [same]
  · cases started

def alone : Cluster := joined {} "1"

def both : Cluster := joined alone "2"

def isolated : Cluster := both.modifyHub (·.isolate "2")

def parted : Cluster := isolated.visit 15000

def healed : Cluster := parted.modifyHub (·.heal "2")

def again : Cluster := healed.visit 20000

theorem run_both : ∃ log, Cluster.Run roster log both := by
  have empty : Cluster.Run roster [] {} := .founded
  obtain ⟨first, begun⟩ := empty.start (by decide) rfl rfl
    (start_eq (show isStarted {} "1" = true by decide +kernel))
    (Cluster.lasts_of_values (show ∀ station ∈ alone.stations.values, _ by decide +kernel))
  have absent : alone.stations.get? "2" = none :=
    Option.isNone_iff_eq_none.mp (by decide +kernel)
  obtain ⟨second, joined⟩ := begun.start (by decide) absent (by decide +kernel)
    (start_eq (show isStarted alone "2" = true by decide +kernel))
    (Cluster.lasts_of_values (show ∀ station ∈ both.stations.values, _ by decide +kernel))
  exact ⟨_, joined⟩

theorem run_again : ∃ log, Cluster.Run roster log again := by
  obtain ⟨log, run⟩ := run_both
  have run := run.isolate "2" (Cluster.lasts_of_values
    (show ∀ station ∈ isolated.stations.values, _ by decide +kernel))
  have run := Cluster.Run.onward run fun run => run.visit (show isolated.clockMs ≤ 15000 by
    decide +kernel) (Cluster.lasts_of_values
      (show ∀ station ∈ parted.stations.values, _ by decide +kernel))
  have run := Cluster.Run.onward run fun run => run.heal "2" (Cluster.lasts_of_values
    (show ∀ station ∈ healed.stations.values, _ by decide +kernel))
  have run := Cluster.Run.onward run fun run => run.visit (show healed.clockMs ≤ 20000 by
    decide +kernel) (Cluster.lasts_of_values
      (show ∀ station ∈ again.stations.values, _ by decide +kernel))
  obtain ⟨more, run⟩ := run
  exact ⟨_, run⟩

end Duo

/-- The two ends of the first connection were open, then no connection was, and finally the two ends
of another one are. -/
theorem Cluster.Run.wellConnected_duo :
    Duo.both.hub.Connects ⟨4⟩ "2" ⟨5⟩ "1" ∧ Duo.parted.hub.links.entries = [] ∧
      ∃ log, Cluster.Run Duo.roster log Duo.again ∧
        Duo.again.hub.Connects ⟨6⟩ "2" ⟨7⟩ "1" ∧ Duo.again.WellConnected Duo.roster log := by
  obtain ⟨log, run⟩ := Duo.run_again
  exact ⟨⟨by decide +kernel, by decide +kernel⟩, by decide +kernel, log, run,
    ⟨by decide +kernel, by decide +kernel⟩, Cluster.Run.wellConnected run⟩

end Quorum
