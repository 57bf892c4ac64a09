import Quorum.Proofs.Peers.Handling
import Quorum.Proofs.Peers.Phases
import Quorum.Proofs.Peers.Tending

/-!
# The watch over the peers

A `Watch` is a run of the liveness protocol together with the timers it uses: the transport and the
node call it, fired timers are received and handled at once, and meanwhile time passes and the
wheels are settled.  Every handler in it answers, so the scheduler has accepted whatever was
scheduled.  The run keeps its history.

If the transport uses every connection only once, each connection is in one phase, and the timers
are just those that the state of the protocol calls for (`Watch.accounted`).
-/

namespace Quorum

open Act Liveness

/-- Something that has happened, with the stage on which it happened. -/
structure Occurrence where
  stage : Stage Liveness
  happening : Happening
  /-- A handler of a timer has run although no timer had fired. -/
  spurious : Bool

/-- What makes the protocol act, and the timers it finds when it does. -/
inductive Prompt (stage : Stage Liveness) : Happening → Bool → Scheduler TimerEvent → Prop where
  /-- The transport or the node has something to tell. -/
  | called
      {happening : Happening}
      (call : happening.isCall = true) :
      Prompt stage happening false stage.outside.timers
  /-- A fired timer is received. -/
  | woken
      {happening : Happening} {task : Task TimerEvent} {timers : Scheduler TimerEvent}
      (delivers : stage.outside.timers.Delivers stage.outside.clockMs task timers)
      (owed : Happening.ofTimer task.payload = some happening) :
      Prompt stage happening false timers
  /-- A handler runs for no reason. -/
  | misled
      {happening : Happening} :
      Prompt stage happening true stage.outside.timers

/-- What goes on while the protocol rests. -/
inductive Rests (stage : Stage Liveness) : Stage Liveness → Prop where
  /-- Every fired timer turns out to be cancelled. -/
  | drained
      {timers : Scheduler TimerEvent}
      (received : stage.outside.timers.receive stage.outside.clockMs = .ok (none, timers)) :
      Rests stage { stage with outside.timers := timers }
  /-- The wheels are brought up to the clock. -/
  | settled :
      Rests stage
        { stage with outside.timers := stage.outside.timers.settle stage.outside.clockMs }
  | elapsed
      {clockMs : Nat}
      (later : stage.outside.clockMs ≤ clockMs) :
      Rests stage { stage with outside.clockMs := clockMs }

/-- A run of the protocol, with its history, the newest occurrence first. -/
inductive Watch (config : NodeConfig) : List Occurrence → Stage Liveness → Prop where
  | begun
      {stage : Stage Liveness}
      (own_eq : stage.own = Liveness.ofConfig config)
      (sound : stage.outside.timers.Sound)
      (silent : stage.outside.timers.live = [])
      (unasked : stage.outside.asked = []) :
      Watch config [] stage
  | handled
      {history : List Occurrence} {stage after : Stage Liveness} {happening : Happening}
      {spurious : Bool} {timers : Scheduler TimerEvent} {answer : Option PeerEvent}
      (watch : Watch config history stage)
      (prompt : Prompt stage happening spurious timers)
      (performed : happening.handler.perform { stage with outside.timers := timers } =
        (.ok answer, after)) :
      Watch config (⟨stage, happening, spurious⟩ :: history) after
  | rested
      {history : List Occurrence} {stage after : Stage Liveness}
      (watch : Watch config history stage)
      (rests : Rests stage after) :
      Watch config history after

/-- What has happened in a history. -/
def happenings (history : List Occurrence) : List Happening :=
  history.map Occurrence.happening

/-- A connection that is opened by this node is new, and one that is handed over was not opened by
this node. -/
def Happening.IsNovel (past : List Happening) : Happening → Prop
  | connected conn _ => ∀ earlier ∈ past, earlier.conn? ≠ some conn
  | accepted conn => ∀ id, connected conn id ∉ past
  | _ => True

/-- The transport uses every connection only once. -/
def Fresh : List Happening → Prop
  | [] => True
  | happening :: past => happening.IsNovel past ∧ Fresh past

section Steps

variable
    {config : NodeConfig}
    {history : List Occurrence}
    {stage after : Stage Liveness}
    {happening : Happening}
    {spurious : Bool}
    {timers : Scheduler TimerEvent}
    {answer : Option PeerEvent}

/-- Whatever makes the protocol act, it makes one of its moves. -/
theorem Prompt.moves
    (performed : happening.handler.perform { stage with outside.timers := timers } =
      (.ok answer, after)) :
    ∃ effect, Outside.Turns { stage.outside with timers := timers } effect after.outside ∧
      stage.own.Moves timers happening answer effect after.own :=
  (happening.handler_moves stage.own _).of_perform performed

theorem Prompt.intact_eq (prompt : Prompt stage happening spurious timers) :
    timers.intact = stage.outside.timers.intact := by
  cases prompt with
  | called _ => rfl
  | woken delivers _ => exact delivers.intact_eq
  | misled => rfl

theorem Rests.own_eq (rests : Rests stage after) : after.own = stage.own := by
  cases rests <;> rfl

theorem Rests.asked_eq (rests : Rests stage after) : after.outside.asked = stage.outside.asked := by
  cases rests <;> rfl

theorem Rests.intact
    (rests : Rests stage after)
    (intact : after.outside.timers.intact = true) :
    stage.outside.timers.intact = true := by
  cases rests with
  | drained received =>
      unfold Scheduler.receive at received
      split at received
      · cases received
        exact intact
      · obtain ⟨_, _, received⟩ := bind_eq_ok_iff.mp received
        cases received
  | settled => exact Scheduler.intact_of_settle intact
  | elapsed _ => exact intact

/-- While the protocol rests, its timers stay, unless the wheels come to their end. -/
theorem Rests.tended
    {strict : Prop}
    (rests : Rests stage after)
    (tended : Tended strict stage.outside.timers stage.own)
    (intact : after.outside.timers.intact = true) :
    Tended strict after.outside.timers after.own := by
  cases rests with
  | drained received => exact tended.drained received
  | settled => exact tended.settled intact
  | elapsed _ => exact tended

/-- When the protocol acts, its timers are those that it calls for afterwards. -/
theorem Prompt.tended
    {strict : Prop}
    {effect : Effect}
    (prompt : Prompt stage happening spurious timers)
    (turns : Outside.Turns { stage.outside with timers := timers } effect after.outside)
    (moves : stage.own.Moves timers happening answer effect after.own)
    (tended : Tended strict stage.outside.timers stage.own)
    (aligned : Aligned stage.own.registry stage.own.links)
    (apart : strict → Apart stage.own.registry stage.own.dialing stage.own.anonymous)
    (admits : strict → stage.own.Admits happening ∧ spurious = false) :
    Tended strict after.outside.timers after.own := by
  cases prompt with
  | called call =>
      refine tended.moved moves turns.works fun exact_ => ?_
      cases happening with
      | connected conn id =>
          have novel := (admits exact_).1
          unfold Admits Holds at novel
          simp only [not_or, Option.not_isSome_iff_eq_none] at novel
          simp [lapses, dialDue, Table.entriesAt, novel.1]
      | connectionTimeout conn | reconnect id => cases call
      | _ => rfl
  | woken delivers owed =>
      exact tended.woken delivers turns.works owed (fun _ _ => aligned.get?_of_link)
        (fun exact_ _ => (apart exact_).quiet) moves
  | misled =>
      refine tended.moved moves turns.works fun exact_ => ?_
      cases (admits exact_).2

end Steps

/-! ## Before the first happening -/

section Beginning

variable {config : NodeConfig} {strict : Prop} {stage : Stage Liveness}

theorem aligned_ofConfig :
    Aligned (Liveness.ofConfig config).registry (Liveness.ofConfig config).links where
  coherent := Registry.coherent_empty
  same := fun _ => rfl
  timed := nofun

theorem tended_ofConfig
    (own_eq : stage.own = Liveness.ofConfig config)
    (sound : stage.outside.timers.Sound)
    (silent : stage.outside.timers.live = []) :
    Tended strict stage.outside.timers stage.own := by
  have none_live : stage.outside.timers.deadlines = [] := by rw [Scheduler.deadlines, silent]; rfl
  refine ⟨[], [], ?_, List.forall_mem_nil _, List.forall_mem_nil _, fun _ => ⟨rfl, rfl⟩⟩
  exact {
    sound := sound
    issued := List.forall_mem_nil _
    distinct := by
      rw [none_live]
      exact List.nodup_nil
    balanced := by
      rw [none_live, own_eq]
      exact List.Perm.refl _ }

end Beginning

/-! ## Connections that are used only once -/

/-- Every connection is in one phase at a time, and has been reported by the transport. -/
structure Phased (history : List Occurrence) (own : Liveness) : Prop where
  aligned : Aligned own.registry own.links
  apart : Apart own.registry own.dialing own.anonymous
  known : ∀ conn, Holds own.registry own.dialing conn →
    ∃ happening ∈ happenings history, happening.conn? = some conn
  dialled : ∀ conn, (own.dialing.get? conn).isSome →
    ∃ id, .connected conn id ∈ happenings history

namespace Phased

variable
    {history : List Occurrence}
    {stage : Stage Liveness}
    {own next : Liveness}
    {timers : Scheduler TimerEvent}
    {happening : Happening}
    {spurious : Bool}
    {event : Option PeerEvent}
    {effect : Effect}

theorem admits
    (phased : Phased history own)
    (novel : happening.IsNovel (happenings history)) :
    own.Admits happening := by
  cases happening with
  | connected conn id =>
      intro held
      obtain ⟨earlier, listed, same⟩ := phased.known conn held
      exact novel earlier listed same
  | accepted conn =>
      refine Option.not_isSome_iff_eq_none.mp fun waiting => ?_
      obtain ⟨id, listed⟩ := phased.dialled conn waiting
      exact novel id listed
  | _ => trivial

theorem moved
    (phased : Phased history own)
    (novel : happening.IsNovel (happenings history))
    (moves : own.Moves timers happening event effect next) :
    Phased (⟨stage, happening, spurious⟩ :: history) next where
  aligned := moves.aligned phased.aligned fun _ => phased.apart.paired
  apart := moves.apart phased.apart (phased.admits novel)
  known := by
    intro conn held
    rcases moves.holds held with old | reported
    · obtain ⟨earlier, listed, same⟩ := phased.known conn old
      exact ⟨earlier, List.mem_cons_of_mem _ listed, same⟩
    · exact ⟨happening, List.mem_cons_self, reported⟩
  dialled := by
    intro conn waiting
    rcases moves.isSome_dialing waiting with old | ⟨id, rfl⟩
    · obtain ⟨id, listed⟩ := phased.dialled conn old
      exact ⟨id, List.mem_cons_of_mem _ listed⟩
    · exact ⟨id, List.mem_cons_self⟩

end Phased

section Runs

variable {config : NodeConfig} {history : List Occurrence} {stage : Stage Liveness}

theorem Watch.phased
    (watch : Watch config history stage)
    (fresh : Fresh (happenings history)) :
    Phased history stage.own := by
  induction watch with
  | begun own_eq _ _ _ =>
      rw [own_eq]
      exact {
        aligned := aligned_ofConfig
        apart := {
          paired := fun _ _ => ⟨nofun, nofun⟩
          unbound := nofun
          unlisted := nofun
          listed := nofun }
        known := by
          rintro conn (waiting | bound | listed)
          · cases waiting
          · cases bound
          · cases listed
        dialled := nofun }
  | handled _ _ performed ih =>
      obtain ⟨effect, _, moves⟩ := Prompt.moves performed
      exact (ih fresh.2).moved fresh.1 moves
  | rested _ rests ih =>
      rw [rests.own_eq]
      exact ih fresh

/-- If no connection is used twice, and no timer is handled that has not fired, then nothing is
missing and nothing is left. -/
theorem Watch.tended_of_fresh
    (watch : Watch config history stage)
    (fresh : Fresh (happenings history))
    (honest : ∀ occurrence ∈ history, occurrence.spurious = false)
    (intact : stage.outside.timers.intact = true) :
    Tended True stage.outside.timers stage.own := by
  induction watch with
  | begun own_eq sound silent _ => exact tended_ofConfig own_eq sound silent
  | handled watch prompt performed ih =>
      obtain ⟨effect, turns, moves⟩ := Prompt.moves performed
      obtain ⟨prompted, past⟩ := List.forall_mem_cons.mp honest
      have phased := watch.phased fresh.2
      rw [turns.works.intact_eq, prompt.intact_eq] at intact
      exact prompt.tended turns moves (ih fresh.2 past intact) phased.aligned
        (fun _ => phased.apart) fun _ => ⟨phased.admits fresh.1, prompted⟩
  | rested _ rests ih =>
      exact rests.tended (ih fresh honest (rests.intact intact)) intact

/-- Until the shutdown every anonymous connection has a timer. -/
theorem Watch.noted
    (watch : Watch config history stage)
    (running : .shutdown ∉ happenings history) :
    ∀ conn ∈ stage.own.registry.anonymous, (stage.own.anonymous.get? conn).isSome := by
  induction watch with
  | begun own_eq _ _ _ =>
      rw [own_eq]
      exact List.forall_mem_nil _
  | handled _ _ performed ih =>
      obtain ⟨effect, _, moves⟩ := Prompt.moves performed
      obtain ⟨calm, past⟩ := not_or.mp (mt List.mem_cons.mpr running)
      exact moves.noted (Ne.symm calm) (ih past)
  | rested _ rests ih =>
      rw [rests.own_eq]
      exact ih running

/-- The bindings, the phases and the timers of the protocol at rest. -/
structure Stage.Accounted (stage : Stage Liveness) : Prop where
  /-- The links and the registry have the same peers, each on the same connection. -/
  linked : ∀ id conn, stage.own.registry.get? id = some conn ↔
    ∃ link, stage.own.links.get? id = some link ∧ link.conn = conn
  /-- Every link has a timeout. -/
  timed : ∀ id link, stage.own.links.get? id = some link → link.timeout.isSome
  /-- A connection that waits for an answer is neither identified nor anonymous. -/
  dialling : ∀ conn, (stage.own.dialing.get? conn).isSome →
    (∀ id, stage.own.registry.get? id ≠ some conn) ∧ conn ∉ stage.own.registry.anonymous
  /-- An anonymous connection is not identified. -/
  unnamed : ∀ conn ∈ stage.own.registry.anonymous, ∀ id, stage.own.registry.get? id ≠ some conn
  /-- A connection with the timer of an anonymous one is anonymous. -/
  listed : ∀ conn, (stage.own.anonymous.get? conn).isSome → conn ∈ stage.own.registry.anonymous
  /-- The timers that could still fire are those that the state calls for. -/
  timers : stage.outside.timers.deadlines.Perm stage.own.deadlines

/-- Every connection has exactly one deadline, and no deadline is left over, as long as the wheels
have not come to the end of their range.  Until the shutdown the anonymous connections of the
registry are those with a timer. -/
theorem Watch.accounted
    (watch : Watch config history stage)
    (fresh : Fresh (happenings history))
    (honest : ∀ occurrence ∈ history, occurrence.spurious = false)
    (intact : stage.outside.timers.intact = true) :
    stage.Accounted ∧
      (.shutdown ∉ happenings history →
        ∀ conn ∈ stage.own.registry.anonymous, (stage.own.anonymous.get? conn).isSome) := by
  have phased := watch.phased fresh
  have coherent := phased.aligned.coherent
  refine ⟨?_, watch.noted⟩
  exact {
    linked := by
      intro id conn
      rw [← phased.aligned.same id]
      exact Option.map_eq_some_iff
    timed := phased.aligned.timed
    dialling := fun conn waiting =>
      ⟨phased.apart.paired.get?_ne_of_unbound (phased.apart.unbound conn waiting),
        phased.apart.unlisted conn waiting⟩
    unnamed := fun conn anonymous =>
      phased.apart.paired.get?_ne_of_unbound (coherent.named conn anonymous)
    listed := phased.apart.listed
    timers := (watch.tended_of_fresh fresh honest intact).deadlines_perm trivial }

end Runs

/-! ## Runs on fixed inputs -/

section Concrete

variable
    {config : NodeConfig}
    {history : List Occurrence}
    {stage : Stage Liveness}

/-- The stage after a happening. -/
def Stage.after (stage : Stage Liveness) (happening : Happening) : Stage Liveness :=
  (happening.handler.perform stage).2

/-- A call that is answered goes on with the run. -/
theorem Watch.call
    (watch : Watch config history stage)
    (happening : Happening)
    (answer : Option PeerEvent)
    (call : happening.isCall = true)
    (answered : (happening.handler.perform stage).1 = .ok answer) :
    Watch config (⟨stage, happening, false⟩ :: history) (stage.after happening) :=
  watch.handled (.called call) (perform_eq answered)

end Concrete

namespace Trio

/-! ### A node that dials two peers

One of them does not answer at first and is dialled again, the other one is linked in the end, and
somebody else waits to say who it is. -/

def config : NodeConfig where
  id := "3"
  peers := [⟨"1", "", 0⟩, ⟨"2", "", 0⟩]
  timer := ⟨1000, 4, 4⟩

def timers : Scheduler TimerEvent := (Scheduler.start config.timer 0).toOption.getD default

def fresh : Stage Liveness where
  own := Liveness.ofConfig config
  outside := { clockMs := 0, timers, draws := fun _ => 0 }

def started : Stage Liveness := fresh.after .start

def failed : Stage Liveness := started.after (.connectFailed "2")

def opened : Stage Liveness := failed.after (.connected ⟨1⟩ "1")

def greeted : Stage Liveness := opened.after (.accepted ⟨2⟩)

def elapsed : Stage Liveness := { greeted with outside.clockMs := 3000 }

def settled : Stage Liveness :=
  { elapsed with outside.timers := elapsed.outside.timers.settle 3000 }

/-- The timer that has fired, and the timers once it has been received. -/
def redial : Task TimerEvent := ⟨⟨0⟩, Delay.ofMs 2000, none, 2000, .reconnect "2"⟩

def emptied : Stage Liveness :=
  { settled with outside.timers := { settled.outside.timers with fired := [] } }

def redialled : Stage Liveness := emptied.after (.reconnect "2")

def linked : Stage Liveness := redialled.after (.response ⟨1⟩)

def history : List Occurrence :=
  [⟨redialled, .response ⟨1⟩, false⟩, ⟨settled, .reconnect "2", false⟩,
    ⟨opened, .accepted ⟨2⟩, false⟩, ⟨failed, .connected ⟨1⟩ "1", false⟩,
    ⟨started, .connectFailed "2", false⟩, ⟨fresh, .start, false⟩]

theorem watch : Watch config history linked := by
  have made : Scheduler.start config.timer 0 = .ok timers := by decide +kernel
  obtain ⟨sound, silent⟩ := Scheduler.start_sound made
  have begun : Watch config [] fresh := .begun rfl sound silent rfl
  have starts := begun.call .start none rfl (by decide +kernel)
  have fails := starts.call (.connectFailed "2") none rfl
    (by decide +kernel)
  have opens := fails.call (.connected ⟨1⟩ "1") none rfl
    (by decide +kernel)
  have greets := opens.call (.accepted ⟨2⟩) none rfl (by decide +kernel)
  have elapses := greets.rested (.elapsed (show greeted.outside.clockMs ≤ 3000 by decide +kernel))
  have settles := elapses.rested .settled
  have delivers : settled.outside.timers.Delivers settled.outside.clockMs redial
      emptied.outside.timers := by
    constructor
    · decide +kernel
    · intro occurrence recurs
      cases recurs
  have answered : ((Happening.reconnect "2").handler.perform emptied).1 = .ok none := by
    decide +kernel
  have redials := settles.handled (.woken delivers rfl) (perform_eq answered)
  exact redials.call (.response ⟨1⟩) (some (.connected "1")) rfl
    (by decide +kernel)

end Trio

/-- The linked peer is timed and kept alive, and the anonymous connection is timed. -/
theorem Watch.accounted_trio :
    Trio.linked.own.deadlines.map Deadline.event =
        [.peerKeepAlive "1", .peerTimeout "1" ⟨1⟩, .connectionTimeout ⟨2⟩] ∧
      Trio.linked.Accounted := by
  refine ⟨by decide +kernel, ?_⟩
  refine (Watch.accounted Trio.watch ?_ (by decide) (by decide +kernel)).1
  simp [Fresh, happenings, Trio.history, Happening.IsNovel, Happening.conn?]

namespace Verge

/-! ### Two ends

A connection is accepted. In one run the node shuts down; in the other one the wheels come to the
end of their range before the connection says who it is. -/

/-- Wheels with very long ticks. -/
def tickMs : Nat := 1152921504606846976

def config : NodeConfig where
  id := "2"
  peers := [⟨"1", "", 0⟩, ⟨"3", "", 0⟩]
  timer := ⟨tickMs, 1, 8⟩

def timers : Scheduler TimerEvent := (Scheduler.start config.timer 0).toOption.getD default

def fresh : Stage Liveness where
  own := Liveness.ofConfig config
  outside :=
    { clockMs := 14 * tickMs, timers := timers.settle (14 * tickMs), draws := fun _ => 0 }

def greeted : Stage Liveness := fresh.after (.accepted ⟨1⟩)

def shut : Stage Liveness := greeted.after .shutdown

def elapsed : Stage Liveness := { greeted with outside.clockMs := 15 * tickMs }

def settled : Stage Liveness :=
  { elapsed with outside.timers := elapsed.outside.timers.settle (15 * tickMs) }

def history : List Occurrence := [⟨fresh, .accepted ⟨1⟩, false⟩]

theorem watch : Watch config history greeted := by
  have made : Scheduler.start config.timer 0 = .ok timers := by decide +kernel
  obtain ⟨sound, _⟩ := Scheduler.start_sound made
  have intact : (timers.settle (14 * tickMs)).intact = true := by decide +kernel
  obtain ⟨sound, _⟩ := sound.settle intact
  have silent : (timers.settle (14 * tickMs)).live = [] := by decide +kernel
  have begun : Watch config [] fresh := .begun rfl sound silent rfl
  exact begun.call (.accepted ⟨1⟩) none rfl (by decide +kernel)

theorem watch_shut : Watch config (⟨greeted, .shutdown, false⟩ :: history) shut :=
  watch.call .shutdown none rfl (by decide +kernel)

theorem watch_settled : Watch config history settled :=
  (watch.rested (.elapsed (show greeted.outside.clockMs ≤ 15 * tickMs by decide +kernel))).rested
    .settled

end Verge

/-- A shutdown leaves an anonymous connection in the registry that has no timer any longer, and
wheels that come to the end of their range lose the timer of an anonymous connection. -/
theorem Watch.loses_deadline :
    Verge.config.validate = .ok () ∧
    (Watch Verge.config (⟨Verge.greeted, .shutdown, false⟩ :: Verge.history) Verge.shut ∧
      Fresh (happenings (⟨Verge.greeted, .shutdown, false⟩ :: Verge.history)) ∧
      Verge.shut.outside.timers.intact = true ∧
      ¬ ∀ conn, conn ∈ Verge.shut.own.registry.anonymous ↔
        (Verge.shut.own.anonymous.get? conn).isSome) ∧
    Watch Verge.config Verge.history Verge.settled ∧
      Fresh (happenings Verge.history) ∧
      ¬ Verge.settled.outside.timers.deadlines.Perm Verge.settled.own.deadlines := by
  refine ⟨by decide +kernel, ⟨Verge.watch_shut, ?_, by decide +kernel, ?_⟩, Verge.watch_settled,
    ?_, ?_⟩
  · simp [Fresh, happenings, Verge.history, Happening.IsNovel]
  · intro same
    have listed : (⟨1⟩ : ConnId) ∈ Verge.shut.own.registry.anonymous := by decide +kernel
    have timed := (same ⟨1⟩).mp listed
    revert timed
    decide +kernel
  · simp [Fresh, happenings, Verge.history, Happening.IsNovel]
  · intro balanced
    have lost : Verge.settled.outside.timers.deadlines.length = 0 := by decide +kernel
    have wanted : Verge.settled.own.deadlines.length = 1 := by decide +kernel
    rw [balanced.length_eq, wanted] at lost
    cases lost

end Quorum
