import Quorum.Node.Core
import Quorum.Proofs.Election.Conduct
import Quorum.Proofs.Election.Discretion
import Quorum.Proofs.Peers.Handling

/-!
# What the core of a node does

Whatever the core is told, it hands over to one of its parts, and what the liveness protocol answers
goes on to the election and to the subscribers.  So the core acts in one of two ways: either the
member alone has an occasion, or the liveness protocol makes a move, and the news are an occasion
for the member (`Core.Conducts`).  Only the start takes the parts in the other order.

The election never touches the peers and their timers, and the protocol never touches the member.
`Core.Acts` keeps this of what a node does, and leaves open which occasion it was.
-/

namespace Quorum

open Act

/-- What makes a node act, apart from its timers. -/
inductive Cue where
  | started
  /-- A connection was handed off. -/
  | accepted (conn : ConnId)
  | reported (event : NetworkEvent)
  deriving DecidableEq, Repr

namespace Cue

def handler : Cue → Act Core Unit
  | started => Core.start
  | accepted conn => Core.onAccepted conn
  | reported event => Core.onNetwork event

/-- What it means to the liveness protocol; only heartbeats mean anything among the messages. -/
def happening? : Cue → Option Happening
  | started => some .start
  | accepted conn => some (.accepted conn)
  | reported (.connected conn id) => some (.connected conn id)
  | reported (.connectFailed id) => some (.connectFailed id)
  | reported (.received conn (.request (.heartbeat id))) => some (.request conn id)
  | reported (.received conn (.response .heartbeat)) => some (.response conn)
  | reported (.received _ _) => none
  | reported (.closed conn) => some (.closed conn)

/-- Nothing that a node is told means a timer or a shutdown. -/
theorem of_happening?
    {cue : Cue}
    {happening : Happening}
    (heard : cue.happening? = some happening) :
    happening.isCall = true ∧ happening ≠ .shutdown := by
  unfold happening? at heard
  split at heard <;> cases heard <;> exact ⟨rfl, nofun⟩

theorem happening?_request
    {conn : ConnId}
    {request : Request}
    (other : ∀ id, request = .heartbeat id → False) :
    (reported (.received conn (.request request))).happening? = none := by
  cases request with
  | heartbeat id => exact (other id rfl).elim
  | vote | leaderHeartbeat => rfl

theorem happening?_response
    {conn : ConnId}
    {response : Response}
    (other : response = .heartbeat → False) :
    (reported (.received conn (.response response))).happening? = none := by
  cases response with
  | heartbeat => exact (other rfl).elim
  | vote | leaderHeartbeat => rfl

end Cue

/-- What makes a node act: what it is told, and its timers. -/
inductive Impulse where
  | told (cue : Cue)
  | timer (event : TimerEvent)
  deriving DecidableEq, Repr

namespace Impulse

def handler : Impulse → Act Core Unit
  | told cue => cue.handler
  | timer event => Core.onTimer event

/-- What it means to the liveness protocol, if anything. -/
def happening? : Impulse → Option Happening
  | told cue => cue.happening?
  | timer event => Happening.ofTimer event

/-- The occasion that it is for the member, if the liveness protocol is not concerned.  A message is
one if its sender is known. -/
def occasion? (registry : Registry) : Impulse → Option Occasion
  | told (.reported (.received conn (.request request))) =>
      (registry.peerOf? conn).map fun sender => .request sender request
  | told (.reported (.received conn (.response response))) =>
      (registry.peerOf? conn).map fun sender => .response sender response
  | told _ => none
  | timer event => some (.timer event)

/-- Nothing that makes a node act is a shutdown. -/
theorem ne_shutdown_of_happening?
    {impulse : Impulse}
    {happening : Happening}
    (heard : impulse.happening? = some happening) :
    happening ≠ .shutdown := by
  cases impulse with
  | told cue => exact (Cue.of_happening? heard).2
  | timer event => exact Happening.ne_shutdown_of_ofTimer heard

end Impulse

namespace Core

variable {stage before between after : Stage Core} {effect effect' : Effect}

/-- The election does something. -/
structure Elects (before : Stage Core) (effect : Effect) (after : Stage Core) : Prop where
  turns : before.outside.Turns effect after.outside
  minds : before.own.member.Minds effect after.own.member
  liveness_eq : after.own.liveness = before.own.liveness
  news_eq : after.own.news = before.own.news

namespace Elects

theorem refl (stage : Stage Core) : Elects stage {} stage where
  turns := .refl _
  minds := .idle rfl
  liveness_eq := rfl
  news_eq := rfl

theorem trans
    (elects : Elects before effect between)
    (elects' : Elects between effect' after) :
    Elects before (effect ++ effect') after where
  turns := elects.turns.trans elects'.turns
  minds := elects.minds.trans elects'.minds
  liveness_eq := elects'.liveness_eq.trans elects.liveness_eq
  news_eq := elects'.news_eq.trans elects.news_eq

theorem asked {ask : Ask} (talks : ask.isTalk = true) :
    Elects stage { asks := [ask] }
      { stage with outside.asked := (stage.outside.clockMs, ask) :: stage.outside.asked } where
  turns := ⟨rfl, rfl, .idle⟩
  minds := .of_asks (List.forall_mem_singleton.mpr talks) rfl
  liveness_eq := rfl
  news_eq := rfl

end Elects

/-- The liveness protocol makes a move. -/
structure Watches
    (before : Stage Core)
    (happening : Happening)
    (event : Option PeerEvent)
    (effect : Effect)
    (after : Stage Core) : Prop where
  turns : before.outside.Turns effect after.outside
  moves : before.own.liveness.Moves before.outside.timers happening event effect after.own.liveness
  member_eq : after.own.member = before.own.member
  news_eq : after.own.news = before.own.news

/-- What the core can do: with the protocol, if that is told something, or without it. -/
inductive Acts (before : Stage Core) : Option Happening → Stage Core → Prop where
  | elected
      {effect : Effect} {after : Stage Core}
      (elects : Elects before effect after) :
      Acts before none after
  | watched
      {happening : Happening} {event : Option PeerEvent} {effect effect' : Effect}
      {between after : Stage Core}
      (watches : Watches before happening event effect between)
      (elects : Elects between effect' after) :
      Acts before (some happening) { after with own.news := event.toList ++ after.own.news }
  | started
      {effect effect' : Effect} {between after : Stage Core}
      (elects : Elects before effect between)
      (watches : Watches between .start none effect' after) :
      Acts before (some .start) after

namespace Acts

variable {heard : Option Happening}

theorem clock_eq (acts : Acts before heard after) :
    after.outside.clockMs = before.outside.clockMs := by
  cases acts with
  | elected elects => exact elects.turns.clock_eq
  | watched watches elects => exact elects.turns.clock_eq.trans watches.turns.clock_eq
  | started elects watches => exact watches.turns.clock_eq.trans elects.turns.clock_eq

/-- What was asked for stays on record. -/
theorem mem_asked
    {entry : Nat × Ask}
    (acts : Acts before heard after)
    (asked : entry ∈ before.outside.asked) :
    entry ∈ after.outside.asked := by
  cases acts with
  | elected elects => exact elects.turns.mem_asked.mpr (.inl asked)
  | watched watches elects =>
      exact elects.turns.mem_asked.mpr (.inl (watches.turns.mem_asked.mpr (.inl asked)))
  | started elects watches =>
      exact watches.turns.mem_asked.mpr (.inl (elects.turns.mem_asked.mpr (.inl asked)))

end Acts

/-! ## Occasions of the member -/

/-- The answer of a member, if it gives one, is sent on a connection. -/
def Reply (conn : ConnId) (stage : Stage Core) : Option Response → Stage Core
  | none => stage
  | some response =>
      { stage with
        outside.asked :=
          (stage.outside.clockMs, .send conn (.response response)) :: stage.outside.asked }

/-- The member meets an occasion, among the peers of the registry as it is now. -/
inductive Meets (before : Stage Core) (occasion : Occasion) : Stage Core → Prop where
  | met
      {answer : Option Response} {met : Stage Member}
      (conn : ConnId)
      (performed : (occasion.handler before.own.registry).perform
        ⟨before.own.member, before.outside⟩ = (.ok answer, met)) :
      Meets before occasion
        (Reply conn ⟨{ before.own with member := met.own }, met.outside⟩ answer)

/-- The member meets an occasion if there is one. -/
inductive Bids (before : Stage Core) : Option Occasion → Stage Core → Prop where
  | idle : Bids before none before
  | met
      {occasion : Occasion} {after : Stage Core}
      (meets : Meets before occasion after) :
      Bids before (some occasion) after

/-- What a change among the peers is for the member. -/
def occasionOf : PeerEvent → Occasion
  | .connected id => .peerConnected id
  | .disconnected _ => .peerDisconnected

/-- What a node does when something makes it act. -/
inductive Conducts (before : Stage Core) (impulse : Impulse) : Stage Core → Prop where
  /-- It is a matter of the election alone. -/
  | elected
      {after : Stage Core}
      (unheard : impulse.happening? = none)
      (bids : Bids before (impulse.occasion? before.own.registry) after) :
      Conducts before impulse after
  /-- The protocol makes a move, and its news are told to the member and then to the
  subscribers. -/
  | watched
      {happening : Happening} {event : Option PeerEvent} {effect : Effect}
      {between after : Stage Core}
      (heard : impulse.happening? = some happening)
      (watches : Watches before happening event effect between)
      (bids : Bids between (event.map occasionOf) after) :
      Conducts before impulse { after with own.news := event.toList ++ after.own.news }
  | started
      {effect : Effect} {between after : Stage Core}
      (begins : impulse = .told .started)
      (meets : Meets before .start between)
      (watches : Watches between .start none effect after) :
      Conducts before impulse after

theorem Meets.elects {occasion : Occasion} (meets : Meets before occasion after) :
    ∃ effect, Elects before effect after := by
  obtain @⟨answer, met, conn, performed⟩ := meets
  obtain ⟨effect, turns, minds⟩ :=
    (Member.Discreet.occasion before.own.registry occasion _ _).of_perform performed
  have elects : Elects before effect ⟨{ before.own with member := met.own }, met.outside⟩ :=
    ⟨turns, minds, rfl, rfl⟩
  cases answer with
  | none => exact ⟨_, elects⟩
  | some response => exact ⟨_, elects.trans (.asked rfl)⟩

/-- It is a turn of the member. -/
theorem Meets.turn {occasion : Occasion} (meets : Meets before occasion after) :
    ∃ answer said, Turn occasion before.own.member.seat answer said after.own.member.seat := by
  have turns := handler_turns before.own.registry occasion ⟨before.own.member, before.outside⟩
  obtain @⟨answer, met, conn, performed⟩ := meets
  rw [performed] at turns
  obtain ⟨said, turn, _⟩ := turns
  refine ⟨.ok answer, said, ?_⟩
  cases answer <;> exact turn

theorem Bids.elects {occasion : Option Occasion} (bids : Bids before occasion after) :
    ∃ effect, Elects before effect after := by
  cases bids with
  | idle => exact ⟨_, .refl before⟩
  | met meets => exact meets.elects

/-- Which occasion it was does not matter to the protocol. -/
theorem Conducts.acts {impulse : Impulse} (conducts : Conducts before impulse after) :
    Acts before impulse.happening? after := by
  cases conducts with
  | elected unheard bids =>
      obtain ⟨effect, elects⟩ := bids.elects
      rw [unheard]
      exact .elected elects
  | watched heard watches bids =>
      obtain ⟨effect, elects⟩ := bids.elects
      rw [heard]
      exact .watched watches elects
  | started begins meets watches =>
      obtain ⟨effect, elects⟩ := meets.elects
      subst begins
      exact .started elects watches

/-! ## The two parts -/

section Parts

variable {α : Type} {happening : Happening} {impulse : Impulse}

/-- A handler of the election that an occasion calls for, and what it answers. -/
theorem elect_answers
    (occasion : Occasion)
    (answer : α → Option Response)
    {handler : Registry → Act Member α}
    (runs : ∀ registry, occasion.handler registry = do return answer (← handler registry)) :
    (elect handler).Ensures stage
      (fun value after => ∀ conn, Meets stage occasion (Reply conn after (answer value)))
      fun _ _ => True := by
  unfold elect
  rw [ensures_bind, ensures_own, ensures_within]
  unfold Ensures
  rcases performed : (handler stage.own.registry).perform ⟨stage.own.member, stage.outside⟩ with
    ⟨_ | value, met⟩
  · trivial
  · intro conn
    refine .met conn ?_
    rw [runs, perform_bind, performed]
    rfl

theorem elect_meets
    (occasion : Occasion)
    {handler : Registry → Act Member Unit}
    (runs : ∀ registry, occasion.handler registry = do handler registry; return none) :
    (elect handler).Ensures stage (fun _ after => Meets stage occasion after)
      fun _ _ => True :=
  (elect_answers occasion (fun _ => none) runs).mono (fun _ _ meets => meets default)
    fun _ _ => id

theorem watch_watches
    {handler : Act Liveness α}
    {event : α → Option PeerEvent}
    (yields : handler.Yields stage.own.liveness stage.outside fun value =>
      stage.own.liveness.Moves stage.outside.timers happening (event value)) :
    (watch handler).Ensures stage
      (fun value after => ∃ effect, Watches stage happening (event value) effect after)
      fun _ _ => True := by
  unfold watch
  rw [ensures_within]
  refine Ensures.mono yields ?_ fun _ _ => id
  rintro value inner ⟨effect, turns, moves⟩
  exact ⟨effect, turns, moves, rfl, rfl⟩

/-- A handler of the protocol that has no news. -/
theorem watch_conducts
    {handler : Act Liveness Unit}
    (runs : impulse.handler = watch handler)
    (heard : impulse.happening? = some happening)
    (yields : handler.Yields stage.own.liveness stage.outside fun _ =>
      stage.own.liveness.Moves stage.outside.timers happening none) :
    impulse.handler.Ensures stage (fun _ after => Conducts stage impulse after)
      fun _ _ => True := by
  rw [runs]
  refine (watch_watches yields).mono ?_ fun _ _ => id
  rintro _ after ⟨effect, watches⟩
  exact .watched heard watches .idle

/-- News go to the election first, and then to the subscribers. -/
theorem announce_bids (event : Option PeerEvent) :
    (announce event).Ensures stage
      (fun _ after => ∃ between, Bids stage (event.map occasionOf) between ∧
        after = { between with own.news := event.toList ++ between.own.news })
      fun _ _ => True := by
  have spread {handler : Registry → Act Member Unit} (news : PeerEvent)
      (runs : ∀ registry, (occasionOf news).handler registry = do handler registry; return none) :
      Ensures (do
        elect handler
        modifyOwn fun core => { core with news := news :: core.news })
        stage
        (fun _ after => ∃ between, Bids stage (some (occasionOf news)) between ∧
          after = { between with own.news := news :: between.own.news })
        fun _ _ => True := by
    refine (elect_meets _ runs).andThen ?_
    intro _ between meets
    exact ⟨between, .met meets, rfl⟩
  match event with
  | none => exact ⟨stage, .idle, rfl⟩
  | some (.connected id) => exact spread (.connected id) fun _ => rfl
  | some (.disconnected id) => exact spread (.disconnected id) fun _ => rfl

/-- A handler of the protocol whose answer is announced. -/
theorem watch_announce_conducts
    {handler : Act Liveness (Option PeerEvent)}
    (runs : impulse.handler = do announce (← watch handler))
    (heard : impulse.happening? = some happening)
    (yields : handler.Yields stage.own.liveness stage.outside
      (stage.own.liveness.Moves stage.outside.timers happening)) :
    impulse.handler.Ensures stage (fun _ after => Conducts stage impulse after)
      fun _ _ => True := by
  rw [runs]
  refine (watch_watches yields).andThen ?_
  rintro event between ⟨effect, watches⟩
  refine (announce_bids event).mono ?_ fun _ _ => id
  rintro _ _ ⟨after, bids, rfl⟩
  exact .watched heard watches bids

end Parts

/-! ## The handlers -/

/-- A request other than a heartbeat is a matter of the election. -/
theorem request_conducts
    {request : Request}
    (conn : ConnId)
    (other : ∀ id, request = .heartbeat id → False) :
    (Impulse.told (.reported (.received conn (.request request)))).handler.Ensures stage
      (fun _ after => Conducts stage (.told (.reported (.received conn (.request request)))) after)
      fun _ _ => True := by
  have runs : (Impulse.told (.reported (.received conn (.request request)))).handler =
      onMessage conn (.request request) := rfl
  have matter {after : Stage Core} :
      Bids stage ((stage.own.registry.peerOf? conn).map fun sender => .request sender request)
        after → Conducts stage (.told (.reported (.received conn (.request request)))) after := by
    have unheard : (Impulse.told (.reported (.received conn (.request request)))).happening? =
        none := Cue.happening?_request other
    exact .elected unheard
  rw [runs]
  unfold onMessage
  split
  · next same => exact (other _ (Message.request.inj same)).elim
  · next same => cases same
  · next same =>
    cases same
    rw [ensures_bind, ensures_own]
    split
    · next stranger =>
      rw [stranger] at matter
      exact matter .idle
    · next sender known =>
      rw [known] at matter
      refine (elect_answers (.request sender request) id fun _ => (bind_pure _).symm).andThen ?_
      intro response between meets
      cases response with
      | none => exact matter (.met (meets conn))
      | some response => exact matter (.met (meets conn))
  · next same => cases same

/-- So is a response. -/
theorem response_conducts
    {response : Response}
    (conn : ConnId)
    (other : response = .heartbeat → False) :
    (Impulse.told (.reported (.received conn (.response response)))).handler.Ensures stage
      (fun _ after =>
        Conducts stage (.told (.reported (.received conn (.response response)))) after)
      fun _ _ => True := by
  have runs : (Impulse.told (.reported (.received conn (.response response)))).handler =
      onMessage conn (.response response) := rfl
  have matter {after : Stage Core} :
      Bids stage ((stage.own.registry.peerOf? conn).map fun sender => .response sender response)
        after → Conducts stage (.told (.reported (.received conn (.response response)))) after := by
    have unheard : (Impulse.told (.reported (.received conn (.response response)))).happening? =
        none := Cue.happening?_response other
    exact .elected unheard
  rw [runs]
  unfold onMessage
  split
  · next same => cases same
  · next same => exact (other (Message.response.inj same)).elim
  · next same => cases same
  · next same =>
    cases same
    rw [ensures_bind, ensures_own]
    split
    · next stranger =>
      rw [stranger] at matter
      exact matter .idle
    · next sender known =>
      rw [known] at matter
      refine (elect_meets (.response sender response) fun _ => rfl).mono ?_ fun _ _ => id
      exact fun _ after meets => matter (.met meets)

/-- A node starts with its election, and then dials. -/
theorem start_conducts :
    start.Ensures stage (fun _ after => Conducts stage (.told .started) after)
      fun _ _ => True := by
  refine (elect_meets .start fun _ => rfl).andThen ?_
  intro _ between meets
  refine (watch_watches Liveness.start_moves).mono ?_ fun _ _ => id
  rintro _ after ⟨effect', watches⟩
  exact .started rfl meets watches

/-- Whatever makes a node act, it acts upon it. -/
theorem impulse_conducts (impulse : Impulse) :
    impulse.handler.Ensures stage (fun _ after => Conducts stage impulse after)
      fun _ _ => True := by
  have electing (event : TimerEvent) (electoral : Happening.ofTimer event = none)
      (runs : onTimer event = elect fun registry => Member.onTimer registry event) :
      (onTimer event).Ensures stage (fun _ after => Conducts stage (.timer event) after)
        fun _ _ => True := by
    rw [runs]
    refine (elect_meets (.timer event) fun _ => rfl).mono ?_ fun _ _ => id
    exact fun _ after meets => .elected electoral (.met meets)
  match impulse with
  | .told .started => exact start_conducts
  | .told (.accepted conn) => exact watch_conducts rfl rfl Liveness.onAccepted_moves
  | .told (.reported (.connected conn id)) =>
      exact watch_conducts rfl rfl Liveness.onOutboundConnected_moves
  | .told (.reported (.connectFailed id)) =>
      exact watch_conducts rfl rfl Liveness.onConnectFailed_moves
  | .told (.reported (.received conn (.request (.heartbeat id)))) =>
      exact watch_announce_conducts rfl rfl Liveness.onHeartbeatRequest_moves
  | .told (.reported (.received conn (.request (.vote ..)))) => exact request_conducts conn nofun
  | .told (.reported (.received conn (.request (.leaderHeartbeat ..)))) =>
      exact request_conducts conn nofun
  | .told (.reported (.received conn (.response .heartbeat))) =>
      exact watch_announce_conducts rfl rfl Liveness.onHeartbeatResponse_moves
  | .told (.reported (.received conn (.response (.vote ..)))) => exact response_conducts conn nofun
  | .told (.reported (.received conn (.response (.leaderHeartbeat ..)))) =>
      exact response_conducts conn nofun
  | .told (.reported (.closed conn)) =>
      refine watch_announce_conducts rfl rfl ?_
      exact (Liveness.onConnectionClosed_ends conn).mono fun _ _ _ => .ended
  | .timer .electionTimeout => exact electing .electionTimeout rfl rfl
  | .timer .leaderHeartbeat => exact electing .leaderHeartbeat rfl rfl
  | .timer (.peerKeepAlive id) => exact watch_conducts rfl rfl Liveness.onKeepalive_moves
  | .timer (.peerTimeout id conn) =>
      exact watch_announce_conducts rfl rfl Liveness.onPeerTimeout_moves
  | .timer (.connectionTimeout conn) =>
      exact watch_conducts rfl rfl Liveness.onConnectionTimeout_moves
  | .timer (.reconnect id) => exact watch_conducts rfl rfl Liveness.onReconnect_moves

theorem impulse_acts (impulse : Impulse) :
    impulse.handler.Ensures stage (fun _ => Acts stage impulse.happening?) fun _ _ => True :=
  (impulse_conducts impulse).mono (fun _ _ => Conducts.acts) fun _ _ => id

/-- Whatever the core is told, it acts upon as far as it means something to the protocol. -/
theorem handler_acts (cue : Cue) :
    cue.handler.Ensures stage (fun _ => Acts stage cue.happening?) fun _ _ => True :=
  impulse_acts (.told cue)

/-- A fired timer belongs to the election or to the protocol. -/
theorem onTimer_acts (event : TimerEvent) :
    (onTimer event).Ensures stage (fun _ => Acts stage (Happening.ofTimer event))
      fun _ _ => True :=
  impulse_acts (.timer event)

end Core

end Quorum
