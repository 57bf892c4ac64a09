import Quorum.Proofs.Network.Mailboxes
import Quorum.Proofs.Network.Parties

/-!
# The mesh of connections

A `Scene` is a network as far as its connections are concerned: the open ends, what waits in the
mailboxes, and the parties.  In a `Mesh` all of it fits together.  The events that wait are true,
the books of every party are right, a party is in one state of contact with each peer that it dials,
and an open connection is known to the node that opened it: as the connection of this contact, as an
event that waits, or as something that is still to be closed.

What a node does, and what a network does for it, keeps the mesh, one lemma for each.
-/

namespace Quorum

open Liveness

/-- A network as far as its connections are concerned. -/
structure Scene where
  issued : Nat
  links : Table ConnId Link
  inbox : NodeId → List NetworkEvent
  parties : NodeId → Option Party

namespace Scene

/-- An event is put behind those that wait for a node. -/
def post (scene : Scene) (id : NodeId) (event : NetworkEvent) : Scene :=
  { scene with inbox := Function.update scene.inbox id (scene.inbox id ++ [event]) }

/-- A party has acted. -/
def seat (scene : Scene) (id : NodeId) (party : Party) : Scene :=
  { scene with parties := Function.update scene.parties id (some party) }

/-- Some of what waits for a node is left. -/
def leave (scene : Scene) (id : NodeId) (rest : List NetworkEvent) : Scene :=
  { scene with inbox := Function.update scene.inbox id rest }

variable
    {scene : Scene}
    {id other : NodeId}
    {party party' : Party}
    {event waiting : NetworkEvent}
    {taken rest : List NetworkEvent}

theorem inbox_seat : (scene.seat id party).inbox = scene.inbox :=
  rfl

theorem parties_seat_self : (scene.seat id party).parties id = some party :=
  Function.update_self ..

theorem parties_seat_of_ne (apart : other ≠ id) :
    (scene.seat id party).parties other = scene.parties other :=
  Function.update_of_ne apart ..

/-- Whoever is a party has acted, or was one before. -/
theorem eq_or_of_seat (seated : (scene.seat id party').parties other = some party) :
    (other = id ∧ party' = party) ∨ (other ≠ id ∧ scene.parties other = some party) := by
  by_cases here : other = id
  · subst here
    rw [parties_seat_self] at seated
    exact .inl ⟨rfl, Option.some.inj seated⟩
  · rw [parties_seat_of_ne here] at seated
    exact .inr ⟨here, seated⟩

/-- Whoever is no party has not acted, and was none before. -/
theorem absent_of_seat (absent : (scene.seat id party).parties other = none) :
    other ≠ id ∧ scene.parties other = none := by
  have apart : other ≠ id := by
    rintro rfl
    rw [parties_seat_self] at absent
    cases absent
  exact ⟨apart, (parties_seat_of_ne apart).symm.trans absent⟩

theorem seat_seat : (scene.seat id party).seat id party' = scene.seat id party' := by
  unfold seat
  rw [Function.update_idem]

theorem inbox_leave_self : (scene.leave id rest).inbox id = rest :=
  Function.update_self ..

theorem leave_self : scene.leave id (scene.inbox id) = scene := by
  unfold leave
  rw [Function.update_eq_self]

theorem inbox_leave_of_ne (apart : other ≠ id) :
    (scene.leave id rest).inbox other = scene.inbox other :=
  Function.update_of_ne apart ..

theorem mem_of_leave
    (waited : scene.inbox id = taken ++ rest)
    (waits : waiting ∈ (scene.leave id rest).inbox other) :
    waiting ∈ scene.inbox other := by
  by_cases here : other = id
  · subst here
    rw [inbox_leave_self] at waits
    rw [waited]
    exact List.mem_append_right _ waits
  · rwa [inbox_leave_of_ne here] at waits

theorem inbox_post_self : (scene.post id event).inbox id = scene.inbox id ++ [event] :=
  Function.update_self ..

theorem inbox_post_of_ne (apart : other ≠ id) :
    (scene.post id event).inbox other = scene.inbox other :=
  Function.update_of_ne apart ..

theorem mem_inbox_post :
    waiting ∈ (scene.post id event).inbox other ↔
      waiting ∈ scene.inbox other ∨ (other = id ∧ waiting = event) := by
  by_cases here : other = id
  · subst here
    rw [inbox_post_self, List.mem_append, List.mem_singleton]
    simp
  · rw [inbox_post_of_ne here]
    simp [here]

end Scene

/-- What an event that waits for a node says is true.  A heartbeat request comes from the node that
has opened the connection, and a connection that has been closed stays so. -/
def Origins.Vouch (origins : Origins) (links : Table ConnId Link) (id : NodeId) :
    NetworkEvent → Prop
  | .connected conn peer => origins conn = some ⟨id, peer, true⟩
  | .received conn (.request (.heartbeat name)) => origins conn = some ⟨name, id, false⟩
  | .closed conn => (origins conn).isSome ∧ links.get? conn = none
  | _ => True

/-- A party knows of an open connection to a peer. -/
def Party.Tracks
    (party : Party)
    (inbox : List NetworkEvent)
    (peer : NodeId)
    (conn : ConnId) : Prop :=
  (∃ contact, party.own.InContact peer contact ∧ contact.conn? = some conn) ∨
    .connected conn peer ∈ inbox ∨ .close conn ∈ party.asks

/-- A network in which everything fits together. -/
structure Mesh (roster : Roster) (origins : Origins) (scene : Scene) : Prop where
  issued : ∀ conn origin, origins conn = some origin → conn.number < scene.issued
  ordered : ∀ conn origin, origins conn = some origin →
    roster.Dials origin.dialler origin.target
  /-- Both ends of a connection are open, or none. -/
  linked : ∀ conn link, scene.links.get? conn = some link →
    ∃ origin, origins conn = some origin ∧ link.owner = origin.owner ∧
      origins link.remote = some origin.far ∧
        scene.links.get? link.remote = some ⟨origin.other, conn⟩
  vouched : ∀ id, ∀ event ∈ scene.inbox id, origins.Vouch scene.links id event
  sound : ∀ id party, scene.parties id = some party →
    party.Sound roster origins id (scene.inbox id)
  settled : ∀ id party, scene.parties id = some party → ∀ peer, roster.Dials id peer →
    ∃ contact, party.own.SoleContact peer contact
  /-- A node that has not started has not asked for anything, and gets no answers. -/
  unasked : ∀ id, scene.parties id = none → ∀ peer,
    (scene.inbox id).countP (NetworkEvent.answers peer) = 0
  /-- An open connection is known to the node that opened it. -/
  tracked : ∀ conn link, scene.links.get? conn = some link → ∀ id peer,
    origins conn = some ⟨id, peer, true⟩ →
      ∃ party, scene.parties id = some party ∧ party.Tracks (scene.inbox id) peer conn

/-- What is counted once is in a list once. -/
theorem eq_of_countP_le_one
    {α : Type}
    {test : α → Bool}
    {list : List α}
    {one other : α}
    (single : list.countP test ≤ 1)
    (listed : one ∈ list)
    (listed' : other ∈ list)
    (counts : test one = true)
    (counts' : test other = true) :
    one = other := by
  have member := List.mem_filter.mpr ⟨listed, counts⟩
  have member' := List.mem_filter.mpr ⟨listed', counts'⟩
  rw [List.countP_eq_length_filter] at single
  rcases counted : list.filter test with _ | ⟨only, _ | ⟨second, more⟩⟩
  · rw [counted] at member
    cases member
  · rw [counted, List.mem_singleton] at member member'
    rw [member, member']
  · rw [counted] at single
    simp at single

/-! ## The parties -/

namespace Party

variable
    {roster : Roster}
    {origins : Origins}
    {id peer : NodeId}
    {inbox inbox' : List NetworkEvent}
    {party : Party}
    {conn : ConnId}

theorem Sound.withInbox
    (sound : party.Sound roster origins id inbox)
    (counted : ∀ peer, inbox'.countP (NetworkEvent.answers peer) =
      inbox.countP (NetworkEvent.answers peer)) :
    party.Sound roster origins id inbox' :=
  { sound with flights := fun peer => by rw [counted]; exact sound.flights peer }

theorem Tracks.withInbox
    (tracks : party.Tracks inbox peer conn)
    (kept : .connected conn peer ∈ inbox → .connected conn peer ∈ inbox') :
    party.Tracks inbox' peer conn :=
  tracks.imp_right fun waits => waits.imp_left kept

end Party

namespace Mesh

variable
    {roster : Roster}
    {origins : Origins}
    {scene : Scene}
    {id peer : NodeId}
    {party : Party}
    {before after : Stage Core}
    {heard : Option Happening}
    {happening : Happening}
    {event : Option PeerEvent}
    {effect : Effect}
    {taken rest : List NetworkEvent}
    {conn : ConnId}

/-! ## What the mesh is kept for -/

/-- A node that has nothing left to ask for knows of one connection to a peer at most. -/
theorem eq_of_tracks
    {another : ConnId}
    (mesh : Mesh roster origins scene)
    (seated : scene.parties id = some party)
    (idle : party.asks = [])
    (dials : roster.Dials id peer)
    (tracks : party.Tracks (scene.inbox id) peer conn)
    (tracks' : party.Tracks (scene.inbox id) peer another) :
    conn = another := by
  obtain ⟨contact, sole⟩ := mesh.settled id party seated peer dials
  have balance := (mesh.sound id party seated).flights peer
  rw [idle, List.countP_nil, Nat.add_zero] at balance
  -- A connection that is reported belongs to the connect that is in flight.
  have flying {conn : ConnId} (reported : .connected conn peer ∈ scene.inbox id) :
      contact = .inFlight := by
    have counted : 0 < (scene.inbox id).countP (NetworkEvent.answers peer) :=
      List.countP_pos_iff.mpr ⟨_, reported, decide_eq_true rfl⟩
    rw [balance] at counted
    unfold Liveness.flights at counted
    split at counted
    · next flies => exact (sole.eq .inFlight flies).symm
    · exact absurd counted (Nat.lt_irrefl 0)
  have grounded {other : Contact} {conn another : ConnId}
      (reported : .connected conn peer ∈ scene.inbox id)
      (held : party.own.InContact peer other)
      (led : other.conn? = some another) : False := by
    rw [sole.eq other held, flying reported] at led
    cases led
  rw [Party.Tracks, idle] at tracks tracks'
  rcases tracks with ⟨one, held, led⟩ | reported | asked
  · rcases tracks' with ⟨other, held', led'⟩ | reported' | asked'
    · rw [sole.eq one held] at led
      rw [sole.eq other held', led] at led'
      exact Option.some.inj led'
    · exact (grounded reported' held led).elim
    · cases asked'
  · rcases tracks' with ⟨other, held', led'⟩ | reported' | asked'
    · exact (grounded reported held' led').elim
    · have single : (scene.inbox id).countP (NetworkEvent.answers peer) ≤ 1 := by
        rw [balance]
        unfold Liveness.flights
        split <;> decide
      have same := eq_of_countP_le_one single reported reported' (decide_eq_true rfl)
        (decide_eq_true rfl)
      exact (NetworkEvent.connected.inj same).1
    · cases asked'
  · cases asked

/-- An id that has not been given out belongs to no open end. -/
theorem get?_eq_none_of_unborn
    (mesh : Mesh roster origins scene)
    (unborn : origins conn = none) :
    scene.links.get? conn = none := by
  cases held : scene.links.get? conn with
  | none => rfl
  | some link =>
      obtain ⟨origin, born, _⟩ := mesh.linked conn link held
      rw [unborn] at born
      cases born

/-- Nor is it reported to be closed. -/
theorem not_closed_of_unborn
    (mesh : Mesh roster origins scene)
    (unborn : origins conn = none) :
    .closed conn ∉ scene.inbox id := by
  intro reported
  have born := (mesh.vouched id _ reported).1
  rw [unborn] at born
  cases born

theorem unborn
    (mesh : Mesh roster origins scene)
    (later : scene.issued ≤ conn.number) :
    origins conn = none := by
  cases born : origins conn with
  | none => rfl
  | some origin => exact absurd (mesh.issued conn origin born) (Nat.not_lt.mpr later)

/-! ## A node acts -/

theorem tracks
    {link : Link}
    (mesh : Mesh roster origins scene)
    (seated : scene.parties id = some party)
    (held : scene.links.get? conn = some link)
    (born : origins conn = some ⟨id, peer, true⟩) :
    party.Tracks (scene.inbox id) peer conn := by
  obtain ⟨known, seated', tracks⟩ := mesh.tracked conn link held id peer born
  cases seated.symm.trans seated'
  exact tracks

/-- One node has changed, and what waits for it. -/
theorem reseat
    {inbox : List NetworkEvent}
    (mesh : Mesh roster origins scene)
    (vouched : ∀ event ∈ inbox, origins.Vouch scene.links id event)
    (sound : party.Sound roster origins id inbox)
    (settled : ∀ peer, roster.Dials id peer → ∃ contact, party.own.SoleContact peer contact)
    (tracked : ∀ conn link, scene.links.get? conn = some link → ∀ peer,
      origins conn = some ⟨id, peer, true⟩ → party.Tracks inbox peer conn) :
    Mesh roster origins ((scene.leave id inbox).seat id party) :=
  { mesh with
    vouched := by
      intro other event waits
      by_cases here : other = id
      · subst here
        rw [Scene.inbox_seat, Scene.inbox_leave_self] at waits
        exact vouched event waits
      · rw [Scene.inbox_seat, Scene.inbox_leave_of_ne here] at waits
        exact mesh.vouched other event waits
    sound := by
      intro other known seated
      rcases Scene.eq_or_of_seat seated with ⟨rfl, rfl⟩ | ⟨apart, seated⟩
      · rw [Scene.inbox_seat, Scene.inbox_leave_self]
        exact sound
      · rw [Scene.inbox_seat, Scene.inbox_leave_of_ne apart]
        exact mesh.sound other known seated
    settled := by
      intro other known seated
      rcases Scene.eq_or_of_seat seated with ⟨rfl, rfl⟩ | ⟨_, seated⟩
      · exact settled
      · exact mesh.settled other known seated
    unasked := by
      intro other absent
      obtain ⟨apart, absent⟩ := Scene.absent_of_seat absent
      rw [Scene.inbox_seat, Scene.inbox_leave_of_ne apart]
      exact mesh.unasked other absent
    tracked := by
      intro conn link held other peer born
      by_cases here : other = id
      · subst here
        refine ⟨party, Scene.parties_seat_self, ?_⟩
        rw [Scene.inbox_seat, Scene.inbox_leave_self]
        exact tracked conn link held peer born
      · obtain ⟨known, seated, tracks⟩ := mesh.tracked conn link held other peer born
        refine ⟨known, (Scene.parties_seat_of_ne here).trans seated, ?_⟩
        rw [Scene.inbox_seat, Scene.inbox_leave_of_ne here]
        exact tracks }

/-- A party has changed, but for its state of contact with its peers. -/
theorem seat
    {party' : Party}
    (mesh : Mesh roster origins scene)
    (seated : scene.parties id = some party)
    (sound : party'.Sound roster origins id (scene.inbox id))
    (own_eq : party'.own = party.own)
    (closes : ∀ conn link, scene.links.get? conn = some link → link.owner = id →
      .close conn ∈ party.asks → .close conn ∈ party'.asks) :
    Mesh roster origins (scene.seat id party') := by
  have reseated := mesh.reseat (mesh.vouched id) sound
    (own_eq.symm ▸ mesh.settled id party seated) ?_
  · rwa [Scene.leave_self] at reseated
  · intro conn link held peer born
    have tracks := mesh.tracks seated held born
    unfold Party.Tracks
    rw [own_eq]
    refine tracks.imp_right fun waits => waits.imp_right fun asked => ?_
    obtain ⟨origin, born', owned, _⟩ := mesh.linked conn link held
    rw [born] at born'
    cases born'
    exact closes conn link held owned asked

/-- Events that wait have changed, but no answers to connects, and no connection is forgotten. -/
theorem withInbox
    {inbox : NodeId → List NetworkEvent}
    (mesh : Mesh roster origins scene)
    (vouched : ∀ id, ∀ event ∈ inbox id, origins.Vouch scene.links id event)
    (counted : ∀ id peer, (inbox id).countP (NetworkEvent.answers peer) =
      (scene.inbox id).countP (NetworkEvent.answers peer))
    (kept : ∀ id conn peer, .connected conn peer ∈ scene.inbox id →
      .connected conn peer ∈ inbox id) :
    Mesh roster origins { scene with inbox } :=
  { mesh with
    vouched
    sound := fun id party seated => (mesh.sound id party seated).withInbox (counted id)
    unasked := fun id absent peer => (counted id peer).trans (mesh.unasked id absent peer)
    tracked := by
      intro conn link held id peer born
      obtain ⟨party, seated, tracks⟩ := mesh.tracked conn link held id peer born
      exact ⟨party, seated, tracks.withInbox (kept id conn peer)⟩ }

/-- An event that answers no connect is put behind the others. -/
theorem post
    {event : NetworkEvent}
    (mesh : Mesh roster origins scene)
    (vouch : origins.Vouch scene.links id event)
    (other : ∀ peer, event.answers peer = false) :
    Mesh roster origins (scene.post id event) := by
  refine mesh.withInbox ?_ ?_ fun _ _ _ waiting => Scene.mem_inbox_post.mpr (.inl waiting)
  · intro receiver event' waiting
    rcases Scene.mem_inbox_post.mp waiting with old | ⟨rfl, rfl⟩
    · exact mesh.vouched receiver event' old
    · exact vouch
  · intro receiver peer
    by_cases here : receiver = id
    · subst here
      rw [Function.update_self, List.countP_append, List.countP_singleton, other]
      rfl
    · rw [Function.update_of_ne here]

/-- The election of a node does something. -/
theorem elected
    (mesh : Mesh roster origins scene)
    (seated : scene.parties id = some before.party)
    (elects : Core.Elects before effect after) :
    Mesh roster origins (scene.seat id after.party) := by
  refine mesh.seat seated ((mesh.sound id _ seated).elected elects) elects.liveness_eq ?_
  intro conn link _ _ asked
  have asks_eq : after.party.asks = before.party.asks ++ effect.asks := elects.turns.asks_eq
  rw [asks_eq]
  exact List.mem_append_left _ asked

/-- An event that means nothing to the liveness protocol is taken out of a mailbox. -/
theorem leave
    (mesh : Mesh roster origins scene)
    (waiting : scene.inbox id = taken ++ rest)
    (prompted : Prompted roster origins id none taken) :
    Mesh roster origins (scene.leave id rest) := by
  refine mesh.withInbox ?_ ?_ ?_
  · exact fun receiver event waits =>
      mesh.vouched receiver event (Scene.mem_of_leave waiting waits)
  · intro receiver peer
    by_cases here : receiver = id
    · subst here
      have counted := prompted.counted peer
      rw [Function.update_self, waiting, List.countP_append, counted]
      exact (Nat.zero_add _).symm
    · rw [Function.update_of_ne here]
  · intro receiver conn peer waits
    by_cases here : receiver = id
    · subst here
      rw [Function.update_self]
      rw [waiting] at waits
      refine (List.mem_append.mp waits).resolve_left fun gone => ?_
      cases prompted.opened conn peer gone
    · rw [Function.update_of_ne here]
      exact waits

/-- The liveness protocol of a node makes a move, upon something that has been taken out of its
mailbox if it was there. -/
theorem watched
    (mesh : Mesh roster origins scene)
    (seated : scene.parties id = some before.party)
    (waiting : scene.inbox id = taken ++ rest)
    (prompted : Prompted roster origins id (some happening) taken)
    (running : happening ≠ .start)
    (closed : ∀ conn, happening = .closed conn → scene.links.get? conn = none)
    (watches : Core.Watches before happening event effect after) :
    Mesh roster origins ((scene.leave id rest).seat id after.party) := by
  have sound := mesh.sound id _ seated
  rw [waiting] at sound
  have settled := mesh.settled id _ seated
  have expected := sound.expects mesh.ordered settled prompted running
  have moves : before.party.own.Moves before.party.timers happening event effect after.party.own :=
    watches.moves
  have leads {peer : NodeId} {contact : Contact}
      (dials : roster.Dials id peer)
      (sole : before.party.own.SoleContact peer contact) :
      ∃ next, after.party.own.SoleContact peer next ∧
        contact.Leads peer happening effect.asks next :=
    moves.contact_leads expected sound.aligned.coherent (sound.target?_iff.mpr dials) sole
  have asks_eq : after.party.asks = before.party.asks ++ effect.asks := watches.turns.asks_eq
  refine mesh.reseat ?_ (sound.watched mesh.ordered prompted watches) ?_ ?_
  · intro event waits
    refine mesh.vouched id event ?_
    rw [waiting]
    exact List.mem_append_right _ waits
  · intro peer dials
    obtain ⟨contact, sole⟩ := settled peer dials
    obtain ⟨next, sole', _⟩ := leads dials sole
    exact ⟨next, sole'⟩
  · intro conn link held peer born
    obtain ⟨contact, sole⟩ := settled peer (mesh.ordered conn _ born)
    obtain ⟨next, sole', leads⟩ := leads (mesh.ordered conn _ born) sole
    rcases mesh.tracks seated held born with ⟨contact', within, led⟩ | reported | asked
    · rw [sole.eq contact' within] at led
      rcases leads.kept conn led with kept | asked | gone
      · exact .inl ⟨next, sole'.here, kept⟩
      · refine .inr (.inr ?_)
        rw [asks_eq]
        exact List.mem_append_right _ asked
      · have shut : some link = none := held.symm.trans (closed conn gone)
        cases shut
    · rw [waiting] at reported
      rcases List.mem_append.mp reported with now | later
      · have same := Option.some.inj (prompted.opened conn peer now)
        exact .inl ⟨next, sole'.here, leads.taken conn same⟩
      · exact .inr (.inl later)
    · refine .inr (.inr ?_)
      rw [asks_eq]
      exact List.mem_append_left _ asked

/-- A node acts. -/
theorem acts
    (mesh : Mesh roster origins scene)
    (seated : scene.parties id = some before.party)
    (waiting : scene.inbox id = taken ++ rest)
    (prompted : Prompted roster origins id heard taken)
    (running : heard ≠ some .start)
    (closed : ∀ conn, heard = some (.closed conn) → scene.links.get? conn = none)
    (acts : Core.Acts before heard after) :
    Mesh roster origins ((scene.leave id rest).seat id after.party) := by
  cases acts with
  | elected elects => exact (mesh.leave waiting prompted).elected seated elects
  | @watched _ _ _ _ between _ watches elects =>
      have moved := mesh.watched seated waiting prompted
        (fun starts => running (congrArg some starts))
        (fun conn gone => closed conn (congrArg some gone)) watches
      have again := moved.elected Scene.parties_seat_self elects
      rwa [Scene.seat_seat] at again
  | started => exact absurd rfl running

/-- A node starts.  Others may have dialled it by then, and not been answered. -/
theorem joins
    {sinceMs : Nat}
    (mesh : Mesh roster origins scene)
    (unknown : scene.parties id = none)
    (enrolled : id ∈ roster.ids)
    (own_eq : before.own = Core.ofConfig (roster.configOf id) sinceMs)
    (unasked : before.outside.asked = [])
    (unarmed : before.outside.timers.held = [])
    (acts : Core.Acts before (some .start) after) :
    Mesh roster origins (scene.seat id after.party) := by
  have liveness_eq : before.own.liveness = Liveness.ofConfig (roster.configOf id) :=
    congrArg Core.liveness own_eq
  have fresh : before.party.Sound roster origins id ([] ++ scene.inbox id) :=
    (Party.Sound.fresh enrolled own_eq unasked unarmed).withInbox (mesh.unasked id unknown)
  have prompted : Prompted roster origins id (some .start) [] := {
    backed := fun _ same => Option.some.inj same ▸ trivial
    counted := fun _ => rfl
    opened := nofun }
  have out (peer : NodeId) : before.own.liveness.OutOfContact peer := by
    rw [liveness_eq]
    intro contact held
    cases contact with
    | inFlight => cases held
    | handshaking conn =>
        obtain ⟨_, waiting, _⟩ := held
        cases waiting
    | identified conn => cases held
    | reconnecting => cases held
  obtain ⟨sound, settled⟩ : after.party.Sound roster origins id (scene.inbox id) ∧
      ∀ peer, roster.Dials id peer → after.party.own.SoleContact peer .inFlight := by
    cases acts with
    | @watched _ _ _ _ between last watches elects =>
        have sound : last.party.Sound roster origins id (scene.inbox id) :=
          (fresh.watched mesh.ordered prompted watches).elected elects
        refine ⟨sound, ?_⟩
        intro peer dials
        have own_eq : last.party.own = between.own.liveness := elects.liveness_eq
        have sole : last.party.own.SoleContact peer .inFlight := by
          rw [own_eq]
          exact watches.moves.contact_of_start (fresh.target?_iff.mpr dials) (out peer)
        exact sole
    | @started _ _ between _ elects watches =>
        have begun : between.party.Sound roster origins id ([] ++ scene.inbox id) :=
          fresh.elected elects
        refine ⟨begun.watched mesh.ordered prompted watches, ?_⟩
        intro peer dials
        refine watches.moves.contact_of_start (begun.target?_iff.mpr dials) ?_
        rw [elects.liveness_eq]
        exact out peer
  have reseated :=
    mesh.reseat (mesh.vouched id) sound (fun peer dials => ⟨_, settled peer dials⟩) ?_
  · rwa [Scene.leave_self] at reseated
  · intro conn link held peer born
    obtain ⟨known, seated, _⟩ := mesh.tracked conn link held id peer born
    rw [unknown] at seated
    cases seated

/-! ## What the network does -/

/-- Ids are given out. -/
theorem issue
    {issued : Nat}
    (mesh : Mesh roster origins scene)
    (later : scene.issued ≤ issued) :
    Mesh roster origins { scene with issued } :=
  { mesh with
    issued := fun conn origin born => Nat.lt_of_lt_of_le (mesh.issued conn origin born) later }

/-- Something that was asked for is carried out: it was not a connect, and if it was the closing of
a connection of this node, then that is closed now. -/
theorem served
    {ask : Ask}
    {asks : List Ask}
    (mesh : Mesh roster origins scene)
    (seated : scene.parties id = some party)
    (asked : party.asks = ask :: asks)
    (other : ∀ peer, ask.connectsTo peer = false)
    (closed : ∀ conn link, ask = .close conn → scene.links.get? conn = some link →
      link.owner ≠ id) :
    Mesh roster origins (scene.seat id { party with asks }) := by
  have sound := mesh.sound id party seated
  have later {ask' : Ask} (listed : ask' ∈ asks) : ask' ∈ party.asks := by
    rw [asked]
    exact List.mem_cons_of_mem _ listed
  refine mesh.seat seated ?_ rfl ?_
  · exact { sound with
      names := fun conn name listed => sound.names conn name (later listed)
      calls := fun peer listed => sound.calls peer (later listed)
      flights := by
        intro peer
        have balance := sound.flights peer
        rw [asked, List.countP_cons_of_neg (by rw [other]; exact Bool.false_ne_true)] at balance
        exact balance }
  · intro conn link held owned listed
    rw [asked] at listed
    refine (List.mem_cons.mp listed).resolve_left fun same => ?_
    exact closed conn link same.symm held owned

/-- A connect is answered. -/
theorem answered
    {target : Peer}
    {asks : List Ask}
    (mesh : Mesh roster origins scene)
    (answer : NetworkEvent)
    (seated : scene.parties id = some party)
    (asked : party.asks = .connect target :: asks)
    (vouch : origins.Vouch scene.links id answer)
    (answers : ∀ peer, answer.answers peer = decide (target.id = peer)) :
    Mesh roster origins ((scene.post id answer).seat id { party with asks }) := by
  have sound := mesh.sound id party seated
  have later {ask : Ask} (listed : ask ∈ asks) : ask ∈ party.asks := by
    rw [asked]
    exact List.mem_cons_of_mem _ listed
  refine mesh.reseat ?_ ?_ (mesh.settled id party seated) ?_
  · intro event waiting
    rcases List.mem_append.mp waiting with old | new
    · exact mesh.vouched id event old
    · exact List.mem_singleton.mp new ▸ vouch
  · exact { sound with
      names := fun conn name listed => sound.names conn name (later listed)
      calls := fun peer listed => sound.calls peer (later listed)
      flights := by
        intro peer
        have balance := sound.flights peer
        rw [asked, List.countP_cons] at balance
        rw [List.countP_append, List.countP_singleton, answers, ← balance, Nat.add_right_comm,
          Nat.add_assoc]
        rfl }
  · intro conn link held peer born
    have tracks := (mesh.tracks seated held born).withInbox (List.mem_append_left [answer])
    refine tracks.imp_right fun waits => waits.imp_right fun listed => ?_
    rw [asked] at listed
    exact (List.mem_cons.mp listed).resolve_left nofun

/-- Two more ids are given out, for the ends of a connection. -/
theorem extend
    (mesh : Mesh roster origins scene)
    (origins' : Origins)
    (grows : ∀ conn origin, origins conn = some origin → origins' conn = some origin)
    (issued : ∀ conn origin, origins' conn = some origin → conn.number < scene.issued)
    (ordered : ∀ conn origin, origins' conn = some origin →
      roster.Dials origin.dialler origin.target) :
    Mesh roster origins' scene where
  issued := issued
  ordered := ordered
  linked := by
    intro conn link held
    obtain ⟨origin, born, owned, bornFar, heldFar⟩ := mesh.linked conn link held
    exact ⟨origin, grows _ _ born, owned, grows _ _ bornFar, heldFar⟩
  vouched := by
    intro receiver event waiting
    have vouch := mesh.vouched receiver event waiting
    unfold Origins.Vouch at vouch ⊢
    split
    · exact grows _ _ vouch
    · exact grows _ _ vouch
    · obtain ⟨origin, born⟩ := Option.isSome_iff_exists.mp vouch.1
      exact ⟨Option.isSome_of_eq_some (grows _ _ born), vouch.2⟩
    · trivial
  sound := fun id party seated => (mesh.sound id party seated).mono grows
  settled := mesh.settled
  unasked := mesh.unasked
  tracked := by
    intro conn link held id peer born
    obtain ⟨origin, born', _⟩ := mesh.linked conn link held
    have same := (grows _ _ born').symm.trans born
    exact mesh.tracked conn link held id peer (born'.trans same)

/-- A connection is opened, and its dialler has been told. -/
theorem link
    {near far : ConnId}
    (mesh : Mesh roster origins scene)
    (bornNear : origins near = some ⟨id, peer, true⟩)
    (bornFar : origins far = some ⟨id, peer, false⟩)
    (free : scene.links.get? near = none)
    (free' : scene.links.get? far = none)
    (unclosed : ∀ receiver, .closed near ∉ scene.inbox receiver ∧
      .closed far ∉ scene.inbox receiver)
    (seated : scene.parties id = some party)
    (told : .connected near peer ∈ scene.inbox id) :
    Mesh roster origins
      { scene with links := (scene.links.insert near ⟨id, far⟩).insert far ⟨peer, near⟩ } := by
  have apart : near ≠ far := by
    rintro rfl
    rw [bornNear] at bornFar
    cases bornFar
  have held (conn : ConnId) (link : Link)
      (found : ((scene.links.insert near ⟨id, far⟩).insert far ⟨peer, near⟩).get? conn =
        some link) :
      (conn = near ∧ link = ⟨id, far⟩) ∨ (conn = far ∧ link = ⟨peer, near⟩) ∨
        (conn ≠ near ∧ conn ≠ far ∧ scene.links.get? conn = some link) := by
    rw [Table.get?_insert, Table.get?_insert] at found
    split at found
    · next same => exact .inr (.inl ⟨same, (Option.some.inj found).symm⟩)
    · split at found
      · next same => exact .inl ⟨same, (Option.some.inj found).symm⟩
      · next other other' => exact .inr (.inr ⟨other', other, found⟩)
  exact { mesh with
    linked := by
      intro conn link found
      rcases held conn link found with ⟨rfl, rfl⟩ | ⟨rfl, rfl⟩ | ⟨other, other', old⟩
      · refine ⟨_, bornNear, rfl, bornFar, ?_⟩
        rw [Table.get?_insert_self]
        rfl
      · refine ⟨_, bornFar, rfl, bornNear, ?_⟩
        rw [Table.get?_insert, if_neg apart, Table.get?_insert_self]
        rfl
      · obtain ⟨origin, born, owned, bornRemote, heldRemote⟩ := mesh.linked conn link old
        refine ⟨origin, born, owned, bornRemote, ?_⟩
        have remote_ne_far : link.remote ≠ far := fun same => by
          rw [same, free'] at heldRemote
          cases heldRemote
        have remote_ne_near : link.remote ≠ near := fun same => by
          rw [same, free] at heldRemote
          cases heldRemote
        rw [Table.get?_insert, if_neg remote_ne_far, Table.get?_insert, if_neg remote_ne_near]
        exact heldRemote
    vouched := by
      intro receiver event waiting
      have vouch := mesh.vouched receiver event waiting
      unfold Origins.Vouch at vouch ⊢
      split
      · exact vouch
      · exact vouch
      · next conn =>
        refine ⟨vouch.1, ?_⟩
        have other : conn ≠ near := by
          rintro rfl
          exact (unclosed receiver).1 waiting
        have other' : conn ≠ far := by
          rintro rfl
          exact (unclosed receiver).2 waiting
        rw [Table.get?_insert, if_neg other', Table.get?_insert, if_neg other]
        exact vouch.2
      · trivial
    tracked := by
      intro conn link found other peer' born
      rcases held conn link found with ⟨rfl, rfl⟩ | ⟨rfl, rfl⟩ | ⟨_, _, old⟩
      · rw [bornNear] at born
        cases born
        exact ⟨party, seated, .inr (.inl told)⟩
      · rw [bornFar] at born
        cases born
      · exact mesh.tracked conn link old other peer' born }

/-- A connection is closed at both ends. -/
theorem unlink
    {link : Link}
    (mesh : Mesh roster origins scene)
    (held : scene.links.get? conn = some link) :
    Mesh roster origins { scene with links := (scene.links.erase conn).erase link.remote } := by
  obtain ⟨origin, born, owned, bornFar, heldFar⟩ := mesh.linked conn link held
  have left (another : ConnId) (other : Link)
      (found : ((scene.links.erase conn).erase link.remote).get? another = some other) :
      another ≠ link.remote ∧ another ≠ conn ∧ scene.links.get? another = some other := by
    rw [Table.get?_erase, Table.get?_erase] at found
    split at found
    · cases found
    · next apart =>
      split at found
      · cases found
      · next apart' => exact ⟨apart, apart', found⟩
  exact { mesh with
    linked := by
      intro another other found
      obtain ⟨apart, apart', found⟩ := left another other found
      obtain ⟨origin', born', owned', bornFar', heldFar'⟩ := mesh.linked another other found
      refine ⟨origin', born', owned', bornFar', ?_⟩
      have remote_ne_far : other.remote ≠ link.remote := fun same => by
        rw [same, heldFar] at heldFar'
        exact apart' (congrArg Link.remote (Option.some.inj heldFar')).symm
      have remote_ne_near : other.remote ≠ conn := fun same => by
        rw [same, held] at heldFar'
        exact apart (congrArg Link.remote (Option.some.inj heldFar')).symm
      rw [Table.get?_erase, if_neg remote_ne_far, Table.get?_erase, if_neg remote_ne_near]
      exact heldFar'
    vouched := by
      intro receiver event waiting
      have vouch := mesh.vouched receiver event waiting
      unfold Origins.Vouch at vouch ⊢
      split
      · exact vouch
      · exact vouch
      · refine ⟨vouch.1, ?_⟩
        rw [Table.get?_erase, Table.get?_erase, vouch.2, ite_self, ite_self]
      · trivial
    tracked := fun another other found =>
      mesh.tracked another other (left another other found).2.2 }

end Mesh

end Quorum
