import Quorum.Peers.Registry

/-!
# Bindings of the registry

The registry keeps the binding of peers and connections in two tables.  The lemmas here say what
each change of the registry does to the two look-ups, `get?` from peers to connections and `peerOf?`
back, and to the anonymous connections.

`Registry.Coherent` holds of every registry, whatever is done to it: a connection resolves only to a
peer that is bound to it, and a connection that resolves to a peer is not anonymous.  The two
look-ups are inverse to each other (`Registry.Paired`) as long as no connection is given to a second
peer.
-/

namespace Quorum.Registry

variable {registry : Registry} {id other : NodeId} {conn another : ConnId}

/-! ## What the changes do to the look-ups -/

@[simp]
theorem get?_removeAnonymous :
    (registry.removeAnonymous conn).get? other = registry.get? other :=
  rfl

@[simp]
theorem peerOf?_removeAnonymous :
    (registry.removeAnonymous conn).peerOf? another = registry.peerOf? another :=
  rfl

@[simp]
theorem mem_anonymous_removeAnonymous :
    another ∈ (registry.removeAnonymous conn).anonymous ↔
      another ∈ registry.anonymous ∧ another ≠ conn := by
  simp [removeAnonymous]

@[simp]
theorem get?_addAnonymous : (registry.addAnonymous conn).get? other = registry.get? other := by
  unfold addAnonymous
  split <;> rfl

@[simp]
theorem peerOf?_addAnonymous :
    (registry.addAnonymous conn).peerOf? another = registry.peerOf? another := by
  unfold addAnonymous
  split <;> rfl

theorem mem_anonymous_addAnonymous :
    another ∈ (registry.addAnonymous conn).anonymous ↔
      another ∈ registry.anonymous ∨ another = conn ∧ registry.peerOf? conn = none := by
  have bound : registry.byConnection.contains conn = (registry.peerOf? conn).isSome := rfl
  unfold addAnonymous
  rw [bound]
  cases known : registry.peerOf? conn with
  | none => simp [List.mem_insert_iff, or_comm]
  | some id => simp

@[simp]
theorem anonymous_bind :
    (registry.bind id conn).anonymous = (registry.removeAnonymous conn).anonymous := by
  unfold bind
  split <;> rfl

@[simp]
theorem get?_bind :
    (registry.bind id conn).get? other = if other = id then some conn else registry.get? other := by
  have connected :
      (registry.bind id conn).connected = registry.connected.insert id conn := by
    unfold bind
    split <;> rfl
  rw [get?, connected, Table.get?_insert, get?]

/-- A new binding takes the place of the old one, in both directions. -/
theorem peerOf?_bind :
    (registry.bind id conn).peerOf? another =
      if registry.get? id = some conn then registry.peerOf? another
      else if another = conn then some id
      else if registry.get? id = some another then none
      else registry.peerOf? another := by
  have known : registry.get? id = registry.connected.get? id := rfl
  unfold bind bindingOf
  cases held : registry.connected.get? id with
  | none =>
      simp only [known, held, reduceCtorEq, if_false]
      exact Table.get?_insert registry.byConnection conn another id
  | some previous =>
      simp only [known, held, Option.some.injEq]
      by_cases same : previous = conn
      · rw [if_pos same, if_pos same]
        rfl
      · rw [if_neg same, if_neg same]
        have erased := Table.get?_erase registry.byConnection previous another
        have inserted := Table.get?_insert (registry.byConnection.erase previous) conn another id
        rw [erased] at inserted
        simp only [eq_comm (a := previous)]
        exact inserted

@[simp]
theorem anonymous_removeConnection :
    (registry.removeConnection conn).anonymous = (registry.removeAnonymous conn).anonymous := by
  unfold removeConnection
  split <;> rfl

theorem get?_removeConnection :
    (registry.removeConnection conn).get? other =
      if registry.peerOf? conn = some other then none else registry.get? other := by
  unfold removeConnection
  cases known : registry.peerOf? conn with
  | none => rfl
  | some id =>
      simp only [Option.some.injEq, eq_comm (a := id)]
      exact Table.get?_erase registry.connected id other

theorem peerOf?_removeConnection :
    (registry.removeConnection conn).peerOf? another =
      if another = conn then none else registry.peerOf? another := by
  unfold removeConnection
  cases known : registry.peerOf? conn with
  | none =>
      by_cases same : another = conn
      · rw [if_pos same, same]
        exact known
      · rw [if_neg same]
        rfl
  | some id => exact Table.get?_erase registry.byConnection conn another

theorem isCurrent_iff : registry.isCurrent id conn = true ↔ registry.get? id = some conn :=
  decide_eq_true_iff

@[simp]
theorem anonymous_removeIfCurrent :
    (registry.removeIfCurrent id conn).anonymous = registry.anonymous := by
  unfold removeIfCurrent
  split <;> rfl

theorem get?_removeIfCurrent (current : registry.get? id = some conn) :
    (registry.removeIfCurrent id conn).get? other =
      if other = id then none else registry.get? other := by
  unfold removeIfCurrent
  rw [if_pos (isCurrent_iff.mpr current)]
  exact Table.get?_erase registry.connected id other

theorem peerOf?_removeIfCurrent (current : registry.get? id = some conn) :
    (registry.removeIfCurrent id conn).peerOf? another =
      if another = conn then none else registry.peerOf? another := by
  unfold removeIfCurrent
  rw [if_pos (isCurrent_iff.mpr current)]
  exact Table.get?_erase registry.byConnection conn another

/-! ## Registries that hold together -/

/-- A connection resolves only to the peer that is bound to it, and is then not anonymous. -/
structure Coherent (registry : Registry) : Prop where
  bound : ∀ conn id, registry.peerOf? conn = some id → registry.get? id = some conn
  named : ∀ conn ∈ registry.anonymous, registry.peerOf? conn = none

theorem coherent_empty : Coherent {} where
  bound := by
    intro conn id resolved
    cases resolved
  named := List.forall_mem_nil _

namespace Coherent

theorem addAnonymous (coherent : registry.Coherent) : (registry.addAnonymous conn).Coherent where
  bound := by
    intro another other resolved
    rw [peerOf?_addAnonymous] at resolved
    rw [get?_addAnonymous]
    exact coherent.bound another other resolved
  named := by
    intro another listed
    rw [peerOf?_addAnonymous]
    rcases mem_anonymous_addAnonymous.mp listed with old | ⟨rfl, unbound⟩
    · exact coherent.named another old
    · exact unbound

theorem removeAnonymous (coherent : registry.Coherent) :
    (registry.removeAnonymous conn).Coherent where
  bound := coherent.bound
  named := fun another listed => coherent.named another (mem_anonymous_removeAnonymous.mp listed).1

theorem bind (coherent : registry.Coherent) : (registry.bind id conn).Coherent where
  bound := by
    intro another other resolved
    rw [peerOf?_bind] at resolved
    rw [get?_bind]
    split at resolved
    · next current =>
      split
      · next same =>
        rw [← coherent.bound another other resolved, same, current]
      · exact coherent.bound another other resolved
    · split at resolved
      · next same =>
        obtain rfl := Option.some.inj resolved
        rw [if_pos rfl, same]
      · split at resolved
        · cases resolved
        · next replaced =>
          have held := coherent.bound another other resolved
          rw [if_neg (by rintro rfl; exact replaced held)]
          exact held
  named := by
    intro another listed
    rw [anonymous_bind, mem_anonymous_removeAnonymous] at listed
    obtain ⟨listed, apart⟩ := listed
    rw [peerOf?_bind, if_neg apart, coherent.named another listed, ite_self, ite_self]

theorem removeConnection (coherent : registry.Coherent) :
    (registry.removeConnection conn).Coherent where
  bound := by
    intro another other resolved
    rw [peerOf?_removeConnection] at resolved
    rw [get?_removeConnection]
    split at resolved
    · cases resolved
    · next apart =>
      have held := coherent.bound another other resolved
      rw [if_neg, held]
      intro same
      rw [coherent.bound conn other same] at held
      exact apart (Option.some.inj held).symm
  named := by
    intro another listed
    rw [anonymous_removeConnection, mem_anonymous_removeAnonymous] at listed
    rw [peerOf?_removeConnection, if_neg listed.2]
    exact coherent.named another listed.1

theorem removeIfCurrent (coherent : registry.Coherent) :
    (registry.removeIfCurrent id conn).Coherent := by
  by_cases current : registry.get? id = some conn
  · exact {
      bound := by
        intro another other resolved
        rw [peerOf?_removeIfCurrent current] at resolved
        rw [get?_removeIfCurrent current]
        split at resolved
        · cases resolved
        · next apart =>
          have held := coherent.bound another other resolved
          rw [if_neg, held]
          rintro rfl
          rw [current] at held
          exact apart (Option.some.inj held).symm
      named := by
        intro another listed
        rw [anonymous_removeIfCurrent] at listed
        rw [peerOf?_removeIfCurrent current, coherent.named another listed]
        exact ite_self _ }
  · unfold Registry.removeIfCurrent
    rw [if_neg (mt isCurrent_iff.mp current)]
    exact coherent

end Coherent

/-- Peers and connections are bound one to one. -/
def Paired (registry : Registry) : Prop :=
  ∀ id conn, registry.get? id = some conn ↔ registry.peerOf? conn = some id

namespace Paired

/-- No two peers are bound to one connection. -/
theorem unique
    (paired : registry.Paired)
    (held : registry.get? id = some conn)
    (held' : registry.get? other = some conn) :
    id = other := by
  have one := (paired id conn).mp held
  have two := (paired other conn).mp held'
  rw [one] at two
  exact Option.some.inj two

theorem get?_ne_of_unbound
    (paired : registry.Paired)
    (unbound : registry.peerOf? conn = none)
    (id : NodeId) :
    registry.get? id ≠ some conn := by
  intro held
  rw [(paired id conn).mp held] at unbound
  cases unbound

/-- Binding a connection that nobody has keeps the bindings one to one. -/
theorem bind
    (paired : registry.Paired)
    (unbound : registry.peerOf? conn = none) :
    (registry.bind id conn).Paired := by
  have free := paired.get?_ne_of_unbound unbound
  intro other another
  rw [get?_bind, peerOf?_bind, if_neg (free id)]
  by_cases same : another = conn
  · subst same
    by_cases peer : other = id
    · simp [peer]
    · simpa [peer, eq_comm (a := id)] using free other
  · by_cases peer : other = id
    · subst peer
      simpa [same, eq_comm (a := conn)] using mt (paired other another).mpr
    · by_cases old : registry.get? id = some another
      · simpa [peer, same, old] using fun held => peer (paired.unique held old)
      · simpa [peer, same, old] using paired other another

theorem removeConnection (paired : registry.Paired) : (registry.removeConnection conn).Paired := by
  intro other another
  rw [get?_removeConnection, peerOf?_removeConnection]
  by_cases same : another = conn
  · subst same
    by_cases bound : registry.peerOf? another = some other
    · simp [bound]
    · simpa [bound] using mt (paired other another).mp bound
  · by_cases bound : registry.peerOf? conn = some other
    · have only : registry.peerOf? another ≠ some other := by
        intro resolved
        have held := (paired other another).mpr resolved
        rw [(paired other conn).mpr bound] at held
        exact same (Option.some.inj held).symm
      simpa [bound, same] using only
    · simpa [bound, same] using paired other another

theorem removeIfCurrent
    (paired : registry.Paired)
    (current : registry.get? id = some conn) :
    (registry.removeIfCurrent id conn).Paired := by
  have bound := (paired id conn).mp current
  have same : ∀ other another,
      ((registry.removeIfCurrent id conn).get? other =
          (registry.removeConnection conn).get? other) ∧
        ((registry.removeIfCurrent id conn).peerOf? another =
          (registry.removeConnection conn).peerOf? another) := by
    intro other another
    rw [get?_removeIfCurrent current, peerOf?_removeIfCurrent current, get?_removeConnection,
      peerOf?_removeConnection, bound]
    simp [eq_comm (a := id)]
  intro other another
  rw [(same other another).1, (same other another).2]
  exact paired.removeConnection other another

end Paired

end Quorum.Registry
