import Quorum.Proofs.Peers.Bindings

/-!
# Histories of the registry

`Registry.Change` lists what can be done to a registry, with any arguments, and `Registry.after` is
the registry that a list of such changes makes of an empty one.

Nothing stops a caller from binding one connection to two peers.  The table from peers to
connections then keeps an entry that the other table contradicts.  What survives whatever is done is
the other direction: a connection resolves to a peer only if the peer has this connection, and then
it is not anonymous (`Coherent.afterAll`).  The two directions agree along every history in which no
binding takes a connection from another peer (`Paired.afterAll`).
-/

namespace Quorum.Registry

/-- What can be done to a registry. -/
inductive Change where
  | addAnonymous (conn : ConnId)
  | removeAnonymous (conn : ConnId)
  | bind (id : NodeId) (conn : ConnId)
  | removeIfCurrent (id : NodeId) (conn : ConnId)
  | removeConnection (conn : ConnId)
  deriving DecidableEq, Repr

variable {registry : Registry} {change : Change} {changes : List Change}
  {id other : NodeId} {conn another : ConnId}

/-- The registry after one change. -/
def apply (registry : Registry) : Change → Registry
  | .addAnonymous conn => registry.addAnonymous conn
  | .removeAnonymous conn => registry.removeAnonymous conn
  | .bind id conn => registry.bind id conn
  | .removeIfCurrent id conn => registry.removeIfCurrent id conn
  | .removeConnection conn => registry.removeConnection conn

/-- The registry after the changes of a list, in their order. -/
def afterAll (registry : Registry) (changes : List Change) : Registry :=
  changes.foldl apply registry

/-- The registry that the changes of a list make of an empty one. -/
def after (changes : List Change) : Registry :=
  afterAll {} changes

theorem after_append (earlier later : List Change) :
    after (earlier ++ later) = (after earlier).afterAll later :=
  List.foldl_append

/-- The change does not bind a connection that is bound to another peer. -/
def Change.Respects (registry : Registry) : Change → Prop
  | .bind id conn => ∀ other ∈ registry.peerOf? conn, other = id
  | _ => True

/-- No change of a list binds a connection that is bound to another peer at this moment. -/
def Respected (registry : Registry) : List Change → Prop
  | [] => True
  | change :: later => change.Respects registry ∧ Respected (registry.apply change) later

instance (registry : Registry) (change : Change) : Decidable (change.Respects registry) :=
  match change with
  | .bind id conn => inferInstanceAs (Decidable (∀ other ∈ registry.peerOf? conn, other = id))
  | .addAnonymous _ => inferInstanceAs (Decidable True)
  | .removeAnonymous _ => inferInstanceAs (Decidable True)
  | .removeIfCurrent _ _ => inferInstanceAs (Decidable True)
  | .removeConnection _ => inferInstanceAs (Decidable True)

instance decidableRespected : ∀ registry changes, Decidable (Respected registry changes)
  | _, [] => inferInstanceAs (Decidable True)
  | registry, change :: later =>
    have := decidableRespected (registry.apply change) later
    inferInstanceAs (Decidable (_ ∧ _))

/-! ## Connections resolve to peers that have them -/

namespace Coherent

theorem apply (coherent : registry.Coherent) (change : Change) :
    (registry.apply change).Coherent := by
  cases change with
  | addAnonymous conn => exact coherent.addAnonymous
  | removeAnonymous conn => exact coherent.removeAnonymous
  | bind id conn => exact coherent.bind
  | removeIfCurrent id conn => exact coherent.removeIfCurrent
  | removeConnection conn => exact coherent.removeConnection

/-- No list of changes makes a coherent registry incoherent. -/
theorem afterAll (coherent : registry.Coherent) (changes : List Change) :
    (registry.afterAll changes).Coherent := by
  induction changes generalizing registry with
  | nil => exact coherent
  | cons change later ih => exact ih (coherent.apply change)

/-- Two connections never resolve to one peer. -/
theorem peerOf?_injective
    (coherent : registry.Coherent)
    (resolved : registry.peerOf? conn = some id)
    (resolved' : registry.peerOf? another = some id) :
    conn = another := by
  have held := coherent.bound conn id resolved
  rw [coherent.bound another id resolved'] at held
  exact (Option.some.inj held).symm

end Coherent

/-! ## Superseded connections -/

theorem bindingOf_eq_replaced :
    registry.bindingOf id conn = .replaced another ↔
      registry.get? id = some another ∧ another ≠ conn := by
  have known : registry.get? id = registry.connected.get? id := rfl
  rw [known]
  unfold bindingOf
  cases held : registry.connected.get? id with
  | none => simp
  | some previous =>
    by_cases same : previous = conn
    · simp only [if_pos same, reduceCtorEq, Option.some.injEq, false_iff]
      rintro ⟨rfl, apart⟩
      exact apart same
    · simp only [if_neg same, Binding.replaced.injEq, Option.some.injEq]
      constructor
      · rintro rfl
        exact ⟨rfl, same⟩
      · exact And.left

/-- A connection that a binding supersedes resolves to no peer any more. -/
theorem peerOf?_bind_superseded (superseded : registry.bindingOf id conn = .replaced another) :
    (registry.bind id conn).peerOf? another = none := by
  obtain ⟨held, apart⟩ := bindingOf_eq_replaced.mp superseded
  have renewed : registry.get? id ≠ some conn := by
    rw [held]
    exact mt Option.some.inj apart
  rw [peerOf?_bind, if_neg renewed, if_neg apart, if_pos held]

/-- Only a binding makes a connection resolve to a peer. -/
theorem peerOf?_apply_eq_none
    (unbound : registry.peerOf? conn = none)
    (spared : ∀ id, change ≠ .bind id conn) :
    (registry.apply change).peerOf? conn = none := by
  cases change with
  | addAnonymous another =>
    rw [apply, peerOf?_addAnonymous]
    exact unbound
  | removeAnonymous another => exact unbound
  | bind id another =>
    have apart : conn ≠ another := by
      rintro rfl
      exact spared id rfl
    rw [apply, peerOf?_bind, if_neg apart, unbound, ite_self, ite_self]
  | removeIfCurrent id another =>
    by_cases current : registry.get? id = some another
    · rw [apply, peerOf?_removeIfCurrent current, unbound, ite_self]
    · rw [apply, Registry.removeIfCurrent, if_neg (mt isCurrent_iff.mp current)]
      exact unbound
  | removeConnection another => rw [apply, peerOf?_removeConnection, unbound, ite_self]

theorem peerOf?_afterAll_eq_none
    (unbound : registry.peerOf? conn = none)
    (spared : ∀ id, Change.bind id conn ∉ changes) :
    (registry.afterAll changes).peerOf? conn = none := by
  induction changes generalizing registry with
  | nil => exact unbound
  | cons change later ih =>
    apply ih
    · apply peerOf?_apply_eq_none unbound
      rintro id rfl
      exact spared id List.mem_cons_self
    · exact fun id listed => spared id (List.mem_cons_of_mem change listed)

/-! ## The two directions -/

namespace Paired

theorem empty : Paired {} := by
  intro id conn
  constructor <;> nofun

/-- Binding a connection again to the peer that has it changes neither direction. -/
theorem bind_of_current
    (paired : registry.Paired)
    (current : registry.get? id = some conn) :
    (registry.bind id conn).Paired := by
  intro other another
  rw [peerOf?_bind, if_pos current, get?_bind]
  split
  · next same =>
    rw [same, ← current]
    exact paired id another
  · exact paired other another

theorem apply (paired : registry.Paired) (respects : change.Respects registry) :
    (registry.apply change).Paired := by
  cases change with
  | addAnonymous conn =>
    intro other another
    rw [Registry.apply, get?_addAnonymous, peerOf?_addAnonymous]
    exact paired other another
  | removeAnonymous conn => exact paired
  | bind id conn =>
    cases resolved : registry.peerOf? conn with
    | none => exact paired.bind resolved
    | some other =>
      obtain rfl := respects other resolved
      exact paired.bind_of_current ((paired other conn).mpr resolved)
  | removeIfCurrent id conn =>
    by_cases current : registry.get? id = some conn
    · exact paired.removeIfCurrent current
    · rw [Registry.apply, Registry.removeIfCurrent, if_neg (mt isCurrent_iff.mp current)]
      exact paired
  | removeConnection conn => exact paired.removeConnection

/-- The two directions agree as long as no binding takes a connection from another peer. -/
theorem afterAll (paired : registry.Paired) (respected : Respected registry changes) :
    (registry.afterAll changes).Paired := by
  induction changes generalizing registry with
  | nil => exact paired
  | cons change later ih => exact ih (paired.apply respected.1) respected.2

end Paired

/-! ## What a history leaves behind -/

/-- Whatever was done to a registry, a connection resolves only to a peer that has it, no two
connections resolve to one peer, a superseded connection resolves to none until it is bound again,
and no anonymous connection resolves to a peer.  If no binding took a connection from another peer,
then a peer has a connection exactly when the connection resolves to it, and no peer has an
anonymous connection. -/
theorem after_consistent (changes : List Change) :
    (∀ conn id, (after changes).peerOf? conn = some id → (after changes).get? id = some conn) ∧
      (∀ conn another id,
        (after changes).peerOf? conn = some id →
          (after changes).peerOf? another = some id → conn = another) ∧
      (∀ earlier id conn later superseded,
        changes = earlier ++ .bind id conn :: later →
          (after earlier).bindingOf id conn = .replaced superseded →
            (∀ other, Change.bind other superseded ∉ later) →
              (after changes).peerOf? superseded = none) ∧
      (∀ conn, (after changes).isAnonymous conn = true → (after changes).peerOf? conn = none) ∧
      (Respected {} changes →
        (∀ id conn, (after changes).get? id = some conn ↔ (after changes).peerOf? conn = some id) ∧
          ∀ id conn,
            (after changes).isAnonymous conn = true → (after changes).get? id ≠ some conn) := by
  have coherent : (after changes).Coherent := coherent_empty.afterAll changes
  have unnamed (conn : ConnId) (listed : (after changes).isAnonymous conn = true) :
      (after changes).peerOf? conn = none :=
    coherent.named conn (of_decide_eq_true listed)
  refine ⟨coherent.bound, fun _ _ _ => coherent.peerOf?_injective, ?_, unnamed, ?_⟩
  · rintro earlier id conn later superseded rfl replaced spared
    have closed : ((after earlier).apply (.bind id conn)).peerOf? superseded = none :=
      peerOf?_bind_superseded replaced
    have kept := peerOf?_afterAll_eq_none closed spared
    rw [after_append]
    exact kept
  · intro respected
    have paired : (after changes).Paired := Paired.empty.afterAll respected
    exact ⟨paired, fun id conn listed => paired.get?_ne_of_unbound (unnamed conn listed) id⟩

/-- A peer identifies itself on a second connection before the first is closed, and a third
connection stays anonymous. -/
def rejoining : List Change :=
  [.addAnonymous ⟨1⟩, .bind "b" ⟨1⟩, .addAnonymous ⟨2⟩, .bind "b" ⟨2⟩, .bind "b" ⟨2⟩,
    .removeIfCurrent "b" ⟨1⟩, .removeConnection ⟨1⟩, .addAnonymous ⟨3⟩]

theorem rejoining_consistent :
    Respected {} rejoining ∧
      (after rejoining).get? "b" = some ⟨2⟩ ∧
      (after rejoining).peerOf? ⟨2⟩ = some "b" ∧
      (after rejoining).peerOf? ⟨1⟩ = none ∧
      (after rejoining).isAnonymous ⟨3⟩ = true ∧
      (after rejoining).peerOf? ⟨3⟩ = none ∧
      (after rejoining).get? "b" ≠ some ⟨3⟩ := by
  obtain ⟨bound, -, superseded, unnamed, paired⟩ := after_consistent rejoining
  have respected : Respected {} rejoining := by decide +kernel
  have resolved : (after rejoining).peerOf? ⟨2⟩ = some "b" := by decide +kernel
  have listed : (after rejoining).isAnonymous ⟨3⟩ = true := by decide +kernel
  refine ⟨respected, bound ⟨2⟩ "b" resolved, resolved, ?_, listed, unnamed ⟨3⟩ listed,
    (paired respected).2 "b" ⟨3⟩ listed⟩
  apply superseded (rejoining.take 3) "b" ⟨2⟩ (rejoining.drop 4) ⟨1⟩
  · decide +kernel
  · decide +kernel
  · intro other listed
    simp [rejoining] at listed

/-- A connection that two peers are bound to resolves to one of them only, and the other peer keeps
it even when it is anonymous again. -/
example :
    (after [.bind "a" ⟨1⟩, .bind "b" ⟨1⟩]).get? "a" = some ⟨1⟩ ∧
      (after [.bind "a" ⟨1⟩, .bind "b" ⟨1⟩]).peerOf? ⟨1⟩ = some "b" ∧
      (after [.bind "a" ⟨1⟩, .bind "b" ⟨1⟩, .removeConnection ⟨1⟩, .addAnonymous ⟨1⟩]).get? "a" =
        some ⟨1⟩ := by
  decide +kernel

end Quorum.Registry
