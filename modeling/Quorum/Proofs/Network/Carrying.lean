import Quorum.Proofs.Network.Mesh

/-!
# What a hub carries out

A hub carries out what a node has asked for, one thing after the other.  Each of them keeps the mesh
(`Hub.Meshed.send`, `Hub.Meshed.connect`, `Hub.Meshed.close`), and so does the whole list
(`Hub.Meshed.carryOutAll`).  Ids may be given out on the way, and a connection that is open
afterwards was open before, or has been dialled by this node (`Origins.Extends`).
-/

namespace Quorum

/-- More ids have been given out, and the ends that were opened belong to connections that one node
has dialled. -/
structure Origins.Extends
    (origins origins' : Origins)
    (dialler : NodeId)
    (before after : Table ConnId Link) : Prop where
  grows : ∀ conn origin, origins conn = some origin → origins' conn = some origin
  dialled : ∀ conn, (after.get? conn).isSome → (before.get? conn).isSome ∨
    ∃ origin, origins' conn = some origin ∧ origin.dialler = dialler

namespace Origins.Extends

variable
    {origins between origins' : Origins}
    {id : NodeId}
    {before middle after : Table ConnId Link}

theorem refl (origins : Origins) (id : NodeId) (links : Table ConnId Link) :
    origins.Extends origins id links links where
  grows := fun _ _ born => born
  dialled := fun _ => .inl

/-- Ends were closed at most. -/
theorem of_shrinks (kept : ∀ conn, (after.get? conn).isSome → (before.get? conn).isSome) :
    origins.Extends origins id before after where
  grows := fun _ _ born => born
  dialled := fun conn held => .inl (kept conn held)

theorem trans
    (extends₁ : origins.Extends between id before middle)
    (extends₂ : between.Extends origins' id middle after) :
    origins.Extends origins' id before after where
  grows := fun conn origin born => extends₂.grows conn origin (extends₁.grows conn origin born)
  dialled := by
    intro conn held
    rcases extends₂.dialled conn held with held | dialled
    · refine (extends₁.dialled conn held).imp_right ?_
      rintro ⟨origin, born, dialled⟩
      exact ⟨origin, extends₂.grows conn origin born, dialled⟩
    · exact .inr dialled

end Origins.Extends

/-! ## A connect that is accepted -/

/-- Two ids are given out, for the two ends of a connection. -/
def Origins.dial (origins : Origins) (near far : ConnId) (dialler target : NodeId) : Origins :=
  Function.update (Function.update origins near (some ⟨dialler, target, true⟩)) far
    (some ⟨dialler, target, false⟩)

namespace Origins

variable
    {origins : Origins}
    {near far conn : ConnId}
    {dialler target : NodeId}
    {origin : Origin}

theorem dial_far : origins.dial near far dialler target far = some ⟨dialler, target, false⟩ :=
  Function.update_self ..

theorem dial_near (apart : near ≠ far) :
    origins.dial near far dialler target near = some ⟨dialler, target, true⟩ :=
  (Function.update_of_ne apart ..).trans (Function.update_self ..)

theorem dial_of_ne (other : conn ≠ near) (other' : conn ≠ far) :
    origins.dial near far dialler target conn = origins conn :=
  (Function.update_of_ne other' ..).trans (Function.update_of_ne other ..)

/-- Ids that were given out before stay what they are. -/
theorem dial_of_born
    (unborn : origins near = none)
    (unborn' : origins far = none)
    (born : origins conn = some origin) :
    origins.dial near far dialler target conn = some origin := by
  rw [dial_of_ne, born]
  · rintro rfl
    rw [unborn] at born
    cases born
  · rintro rfl
    rw [unborn'] at born
    cases born

/-- An id is one of the two, or had been given out before. -/
theorem eq_or_of_dial (born : origins.dial near far dialler target conn = some origin) :
    ((conn = near ∨ conn = far) ∧ origin.dialler = dialler ∧ origin.target = target) ∨
      origins conn = some origin := by
  by_cases last : conn = far
  · rw [last, dial_far] at born
    cases born
    exact .inl ⟨.inr last, rfl, rfl⟩
  · by_cases first : conn = near
    · rw [first, dial_near (first ▸ last)] at born
      cases born
      exact .inl ⟨.inl first, rfl, rfl⟩
    · rw [dial_of_ne first last] at born
      exact .inr born

end Origins

/-- A node gets what it has dialled, and the two ends are open. -/
theorem Mesh.dialled
    {roster : Roster}
    {origins : Origins}
    {scene : Scene}
    {id : NodeId}
    {party : Party}
    {target : Peer}
    {asks : List Ask}
    (mesh : Mesh roster origins scene)
    (near far : ConnId)
    (issued : Nat)
    (seated : scene.parties id = some party)
    (asked : party.asks = .connect target :: asks)
    (fresh : scene.issued ≤ near.number)
    (ordered : near.number < far.number)
    (counted : far.number < issued) :
    Mesh roster (origins.dial near far id target.id)
      { (scene.post id (.connected near target.id)).seat id { party with asks } with
        issued
        links := (scene.links.insert near ⟨id, far⟩).insert far ⟨target.id, near⟩ } := by
  have apart : near ≠ far := by
    rintro rfl
    exact Nat.lt_irrefl _ ordered
  have unborn : origins near = none := mesh.unborn fresh
  have unborn' : origins far = none := mesh.unborn (Nat.le_trans fresh (Nat.le_of_lt ordered))
  have dials : roster.Dials id target.id :=
    (mesh.sound id party seated).calls target (asked ▸ List.mem_cons_self)
  have later : scene.issued ≤ issued := by omega
  have extended := (mesh.issue later).extend (origins.dial near far id target.id)
    (fun _ _ => Origins.dial_of_born unborn unborn')
    (by
      intro conn origin born
      rcases Origins.eq_or_of_dial born with ⟨rfl | rfl, _⟩ | old
      · exact Nat.lt_trans ordered counted
      · exact counted
      · exact Nat.lt_of_lt_of_le (mesh.issued conn origin old) later)
    (by
      intro conn origin born
      rcases Origins.eq_or_of_dial born with ⟨_, rfl, same⟩ | old
      · rwa [same]
      · exact mesh.ordered conn origin old)
  have answered := extended.answered (.connected near target.id) seated asked
    (Origins.dial_near apart) fun _ => rfl
  refine answered.link (Origins.dial_near apart) Origins.dial_far
    (mesh.get?_eq_none_of_unborn unborn) (mesh.get?_eq_none_of_unborn unborn') ?_
    Scene.parties_seat_self (Scene.mem_inbox_post.mpr (.inr ⟨rfl, rfl⟩))
  intro receiver
  constructor
  · intro reported
    rcases Scene.mem_inbox_post.mp reported with old | ⟨_, other⟩
    · exact mesh.not_closed_of_unborn unborn old
    · cases other
  · intro reported
    rcases Scene.mem_inbox_post.mp reported with old | ⟨_, other⟩
    · exact mesh.not_closed_of_unborn unborn' old
    · cases other

namespace Hub

/-- A hub and its parties, as far as connections are concerned. -/
def scene (hub : Hub) (parties : NodeId → Option Party) : Scene where
  issued := hub.issued
  links := hub.links
  inbox := hub.inbox
  parties := parties

/-- The mesh of a hub, all of whose parties are known to it. -/
structure Meshed
    (roster : Roster)
    (origins : Origins)
    (hub : Hub)
    (parties : NodeId → Option Party) : Prop where
  posted : hub.Posted
  known : ∀ id, (parties id).isSome → (hub.mailboxOf? id).isSome
  mesh : Mesh roster origins (hub.scene parties)

variable
    {roster : Roster}
    {origins : Origins}
    {hub : Hub}
    {parties : NodeId → Option Party}
    {id : NodeId}
    {party : Party}
    {event : NetworkEvent}
    {ask : Ask}
    {asks : List Ask}
    {conn : ConnId}

theorem scene_deliver (posted : hub.Posted) (known : (hub.mailboxOf? id).isSome) :
    (hub.deliver id event).scene parties = (hub.scene parties).post id event := by
  unfold scene Scene.post
  rw [issued_deliver, links_deliver, posted.inbox_deliver known]

namespace Meshed

/-- Whoever is a party stays known when another one acts. -/
theorem known_seat
    {hub' : Hub}
    {party' : Party}
    (meshed : hub.Meshed roster origins parties)
    (seated : parties id = some party)
    (same : ∀ other, hub'.mailboxOf? other = hub.mailboxOf? other)
    (other : NodeId)
    (held : (Function.update parties id (some party') other).isSome) :
    (hub'.mailboxOf? other).isSome := by
  rw [same]
  refine meshed.known other ?_
  by_cases here : other = id
  · rw [here, seated]
    rfl
  · rwa [Function.update_of_ne here] at held

/-- An event that answers no connect is delivered, if its receiver is known. -/
theorem deliver
    (meshed : hub.Meshed roster origins parties)
    (vouch : origins.Vouch hub.links id event)
    (other : ∀ peer, event.answers peer = false) :
    (hub.deliver id event).Meshed roster origins parties := by
  cases receives : hub.mailboxOf? id with
  | none =>
      rw [deliver_of_unknown receives]
      exact meshed
  | some name =>
      have known : (hub.mailboxOf? id).isSome := Option.isSome_of_eq_some receives
      refine ⟨meshed.posted.deliver, fun id held => ?_, ?_⟩
      · rw [mailboxOf?_deliver]
        exact meshed.known id held
      · rw [scene_deliver meshed.posted known]
        exact meshed.mesh.post vouch other

/-- Something that was asked for has been carried out: it was not a connect, and if it was the
closing of a connection of this node, then that is closed now. -/
theorem served
    (meshed : hub.Meshed roster origins parties)
    (seated : parties id = some party)
    (asked : party.asks = ask :: asks)
    (other : ∀ peer, ask.connectsTo peer = false)
    (closed : ∀ conn link, ask = .close conn → hub.links.get? conn = some link →
      link.owner ≠ id) :
    hub.Meshed roster origins (Function.update parties id (some { party with asks })) where
  posted := meshed.posted
  known := meshed.known_seat seated fun _ => rfl
  mesh := meshed.mesh.served seated asked other closed

/-- A message is sent.  A node says who it is only where it has dialled. -/
theorem send
    {message : Message}
    (meshed : hub.Meshed roster origins parties)
    (honest : ∀ name, message = .request (.heartbeat name) →
      name = id ∧ ∃ peer, origins conn = some ⟨id, peer, true⟩) :
    (hub.send id conn message).Meshed roster origins parties := by
  unfold Hub.send
  cases held : hub.links.get? conn with
  | none => exact meshed
  | some near =>
      dsimp only
      obtain ⟨origin, born, _, bornFar, heldFar⟩ := meshed.mesh.linked conn near held
      rw [show hub.links.get? near.remote = some ⟨origin.other, conn⟩ from heldFar]
      dsimp only
      split
      · refine meshed.deliver ?_ fun _ => rfl
        unfold Origins.Vouch
        split
        · next same => cases same
        · next name same =>
          cases same
          obtain ⟨rfl, peer, dialled⟩ := honest name rfl
          rw [born] at dialled
          cases dialled
          exact bornFar
        · next same => cases same
        · trivial
      · exact meshed

/-- A connection is closed at both ends, and the node at the other end is told. -/
theorem hangUp (meshed : hub.Meshed roster origins parties) (conn : ConnId) :
    (hub.hangUp conn).Meshed roster origins parties ∧
      (hub.hangUp conn).links.get? conn = none ∧
      ∀ other, ((hub.hangUp conn).links.get? other).isSome → (hub.links.get? other).isSome := by
  unfold Hub.hangUp
  cases held : hub.links.get? conn with
  | none => exact ⟨meshed, held, fun _ => id⟩
  | some near =>
      dsimp only
      obtain ⟨origin, born, _, bornFar, heldFar⟩ := meshed.mesh.linked conn near held
      have apart : near.remote ≠ conn := by
        intro same
        rw [same, born] at bornFar
        exact origin.far_ne (Option.some.inj bornFar).symm
      have far : (hub.links.erase conn).get? near.remote = some ⟨origin.other, conn⟩ := by
        rw [Table.get?_erase, if_neg apart]
        exact heldFar
      rw [far]
      dsimp only
      have unlinked : ({ hub with links := (hub.links.erase conn).erase near.remote } : Hub).Meshed
          roster origins parties := {
        posted := meshed.posted.of_eq (fun _ => rfl) rfl (Nat.le_refl _)
        known := meshed.known
        mesh := meshed.mesh.unlink held }
      refine ⟨unlinked.deliver ⟨?_, ?_⟩ fun _ => rfl, ?_, ?_⟩
      · rw [bornFar]
        rfl
      · exact Table.get?_erase_self ..
      · rw [links_deliver]
        rw [Table.get?_erase, Table.get?_erase, if_pos rfl, ite_self]
      · intro other open'
        rw [links_deliver, Table.get?_erase, Table.get?_erase] at open'
        split at open'
        · cases open'
        · split at open'
          · cases open'
          · exact open'

/-- A connection is closed by the node at one of its ends. -/
theorem close (meshed : hub.Meshed roster origins parties) (id : NodeId) (conn : ConnId) :
    (hub.close id conn).Meshed roster origins parties ∧
      (∀ link, (hub.close id conn).links.get? conn = some link → link.owner ≠ id) ∧
      ∀ other, ((hub.close id conn).links.get? other).isSome → (hub.links.get? other).isSome := by
  unfold Hub.close
  cases held : hub.links.get? conn with
  | none =>
      refine ⟨meshed, fun link open' => ?_, fun _ open' => open'⟩
      rw [held] at open'
      cases open'
  | some near =>
      dsimp only
      split
      · obtain ⟨meshed', closed, kept⟩ := meshed.hangUp conn
        refine ⟨meshed', fun link open' => ?_, kept⟩
        rw [closed] at open'
        cases open'
      · next other =>
        refine ⟨meshed, fun link open' => ?_, fun _ open' => open'⟩
        rw [held] at open'
        cases open'
        exact other

/-- A connect is answered: either there is no connection, or both of its ends get an id. -/
theorem connect
    {target : Peer}
    (meshed : hub.Meshed roster origins parties)
    (seated : parties id = some party)
    (asked : party.asks = .connect target :: asks) :
    ∃ origins', origins.Extends origins' id hub.links (hub.connect id target.id).links ∧
      (hub.connect id target.id).Meshed roster origins'
        (Function.update parties id (some { party with asks })) := by
  have known : (hub.mailboxOf? id).isSome := meshed.known id (Option.isSome_of_eq_some seated)
  have later : hub.issued ≤ hub.issued + 1 + 1 := by omega
  unfold Hub.connect issue
  dsimp only
  split
  · next name _ =>
    let near : ConnId := ⟨hub.issued⟩
    let far : ConnId := ⟨hub.issued + 1⟩
    have unborn : origins near = none := meshed.mesh.unborn (Nat.le_refl _)
    have unborn' : origins far = none := meshed.mesh.unborn (Nat.le_succ _)
    have dialled := meshed.mesh.dialled near far (hub.issued + 1 + 1) seated asked (Nat.le_refl _)
      (Nat.lt_succ_self _) (Nat.lt_succ_self _)
    let linked : Hub := { hub with
      issued := hub.issued + 1 + 1
      queues := hub.queues.modify name fun queue => queue.offer far
      links := (hub.links.insert near ⟨id, far⟩).insert far ⟨target.id, near⟩ }
    have posted : linked.Posted := meshed.posted.of_eq (fun _ => rfl) rfl later
    refine ⟨origins.dial near far id target.id, ⟨?_, ?_⟩, ?_⟩
    · exact fun _ _ => Origins.dial_of_born unborn unborn'
    · intro conn open'
      rw [links_deliver] at open'
      by_cases last : conn = far
      · rw [last]
        exact .inr ⟨_, Origins.dial_far, rfl⟩
      · by_cases first : conn = near
        · rw [first] at last ⊢
          exact .inr ⟨_, Origins.dial_near last, rfl⟩
        · refine .inl ?_
          unfold Hub.link at open'
          rwa [Table.get?_insert, if_neg last, Table.get?_insert, if_neg first] at open'
    · refine ⟨posted.deliver, meshed.known_seat seated fun _ => mailboxOf?_deliver, ?_⟩
      show Mesh roster _ ((linked.deliver id (.connected near target.id)).scene _)
      rw [scene_deliver posted known]
      exact dialled
  · let refused : Hub := { hub with issued := hub.issued + 1 + 1 }
    have posted : refused.Posted := meshed.posted.of_eq (fun _ => rfl) rfl later
    refine ⟨origins, .of_shrinks fun conn open' => ?_, ?_⟩
    · rwa [links_deliver] at open'
    · refine ⟨posted.deliver, meshed.known_seat seated fun _ => mailboxOf?_deliver, ?_⟩
      have answered := (meshed.mesh.issue later).answered (.connectFailed target.id) seated
        asked trivial fun _ => rfl
      rw [scene_deliver posted known]
      exact answered

/-! ## Everything that a node has asked for -/

/-- One thing is carried out. -/
theorem carryOut
    (meshed : hub.Meshed roster origins parties)
    (seated : parties id = some party)
    (asked : party.asks = ask :: asks) :
    ∃ origins', origins.Extends origins' id hub.links (hub.carryOut id ask).links ∧
      (hub.carryOut id ask).Meshed roster origins'
        (Function.update parties id (some { party with asks })) := by
  cases ask with
  | send conn message =>
      have honest (name : NodeId) (same : message = .request (.heartbeat name)) :
          name = id ∧ ∃ peer, origins conn = some ⟨id, peer, true⟩ := by
        refine (meshed.mesh.sound id party seated).names conn name ?_
        rw [asked, same]
        exact List.mem_cons_self
      refine ⟨origins, .of_shrinks fun other open' => ?_, ?_⟩
      · rwa [show (hub.carryOut id (.send conn message)).links = hub.links from links_send] at open'
      · exact (meshed.send honest).served seated asked (fun _ => rfl) nofun
  | connect target => exact meshed.connect seated asked
  | close conn =>
      obtain ⟨meshed', closed, kept⟩ := meshed.close id conn
      refine ⟨origins, .of_shrinks kept, meshed'.served seated asked (fun _ => rfl) ?_⟩
      rintro other link ⟨rfl⟩ open'
      exact closed link open'

/-- All of it is carried out, oldest first. -/
theorem carryOutAll
    (meshed : hub.Meshed roster origins parties)
    (wishes : List (Nat × Ask))
    (seated : parties id = some party)
    (asked : party.asks = wishes.map Prod.snd) :
    let served := wishes.foldl (fun hub wish => hub.carryOut id wish.2) hub
    ∃ origins', origins.Extends origins' id hub.links served.links ∧
      served.Meshed roster origins'
        (Function.update parties id (some { party with asks := [] })) := by
  induction wishes generalizing hub origins parties party with
  | nil =>
      have seated' : Function.update parties id (some { party with asks := [] }) = parties := by
        rw [← show party.asks = [] from asked, ← seated, Function.update_eq_self]
      exact ⟨origins, .refl .., seated'.symm ▸ meshed⟩
  | cons wish wishes ih =>
      obtain ⟨between, extends₁, meshed₁⟩ := meshed.carryOut seated asked
      obtain ⟨origins', extends₂, meshed₂⟩ := ih meshed₁ (Function.update_self ..) rfl
      rw [Function.update_idem] at meshed₂
      exact ⟨origins', extends₁.trans extends₂, meshed₂⟩

end Meshed

end Hub

end Quorum
