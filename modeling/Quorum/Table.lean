/-!
# Tables

A table is a finite map whose entries stay in the order in which their keys were first inserted.
No key occurs twice, which is part of the type, so the number of entries is the number of keys.

Main statements: `get?_insert` and `get?_erase` say what the two updates do to every look-up, and
`mem_entries_iff` ties the list of entries to the look-up.
-/

namespace Quorum

variable {κ α : Type}

/-- A finite map in insertion order. -/
structure Table (κ α : Type) where
  entries : List (κ × α)
  distinct : (entries.map Prod.fst).Nodup := by simp

namespace Table

def empty : Table κ α := ⟨[], by simp⟩

instance : EmptyCollection (Table κ α) := ⟨empty⟩

instance : Inhabited (Table κ α) := ⟨empty⟩

def keys (table : Table κ α) : List κ := table.entries.map Prod.fst

def values (table : Table κ α) : List α := table.entries.map Prod.snd

def size (table : Table κ α) : Nat := table.entries.length

@[simp]
theorem entries_empty : (∅ : Table κ α).entries = [] := rfl

theorem nodup_entries (table : Table κ α) : table.entries.Nodup :=
  (List.pairwise_map.mp table.distinct).imp fun apart same => apart (congrArg Prod.fst same)

variable [DecidableEq κ]

/-- Replace the value of a key where it stands, or append a new entry. -/
def putEntry (key : κ) (value : α) : List (κ × α) → List (κ × α)
  | [] => [(key, value)]
  | (other, held) :: rest =>
      if other = key then (key, value) :: rest else (other, held) :: putEntry key value rest

/-- The value of the first entry with the given key. -/
def findEntry (key : κ) : List (κ × α) → Option α
  | [] => none
  | (other, held) :: rest => if other = key then some held else findEntry key rest

theorem mem_keys_putEntry {key other : κ} {value : α} {entries : List (κ × α)} :
    other ∈ (putEntry key value entries).map Prod.fst ↔
      other = key ∨ other ∈ entries.map Prod.fst := by
  induction entries with
  | nil => simp [putEntry]
  | cons entry rest ih =>
    obtain ⟨held, old⟩ := entry
    by_cases same : held = key
    · simp [putEntry, same]
    · simp only [putEntry, if_neg same, List.map_cons, List.mem_cons, ih]
      constructor
      · rintro (h | h | h) <;> simp [h]
      · rintro (h | h | h) <;> simp [h]

theorem nodup_putEntry {key : κ} {value : α} {entries : List (κ × α)}
    (distinct : (entries.map Prod.fst).Nodup) :
    ((putEntry key value entries).map Prod.fst).Nodup := by
  induction entries with
  | nil => simp [putEntry]
  | cons entry rest ih =>
    obtain ⟨held, old⟩ := entry
    simp only [List.map_cons, List.nodup_cons] at distinct
    by_cases same : held = key
    · subst same
      simpa [putEntry] using distinct
    · simp only [putEntry, if_neg same, List.map_cons, List.nodup_cons]
      refine ⟨?_, ih distinct.2⟩
      rw [mem_keys_putEntry]
      rintro (h | h)
      · exact same h
      · exact distinct.1 h

theorem findEntry_putEntry (key other : κ) (value : α) (entries : List (κ × α)) :
    findEntry other (putEntry key value entries) =
      if other = key then some value else findEntry other entries := by
  induction entries with
  | nil => simp [putEntry, findEntry, eq_comm (a := key)]
  | cons entry rest ih =>
    obtain ⟨held, old⟩ := entry
    by_cases same : held = key
    · subst same
      by_cases h : other = held
      · simp [putEntry, findEntry, h]
      · simp [putEntry, findEntry, h, Ne.symm h]
    · by_cases h : held = other
      · subst h
        simp [putEntry, findEntry, same]
      · simp [putEntry, findEntry, same, h, ih]

theorem findEntry_filter (key other : κ) (entries : List (κ × α)) :
    findEntry other (entries.filter fun entry => entry.1 ≠ key) =
      if other = key then none else findEntry other entries := by
  induction entries with
  | nil => simp [findEntry]
  | cons entry rest ih =>
    obtain ⟨held, old⟩ := entry
    by_cases same : held = key
    · subst same
      by_cases h : other = held
      · subst h
        simpa [findEntry] using ih
      · simpa [findEntry, h, Ne.symm h] using ih
    · by_cases h : held = other
      · subst h
        simp [findEntry, same]
      · simpa [findEntry, same, h] using ih

theorem findEntry_eq_some_iff {key : κ} {value : α} {entries : List (κ × α)}
    (distinct : (entries.map Prod.fst).Nodup) :
    findEntry key entries = some value ↔ (key, value) ∈ entries := by
  induction entries with
  | nil => simp [findEntry]
  | cons entry rest ih =>
    obtain ⟨held, old⟩ := entry
    simp only [List.map_cons, List.nodup_cons] at distinct
    by_cases same : held = key
    · subst same
      have absent : (held, value) ∉ rest := fun h =>
        distinct.1 (List.mem_map_of_mem (f := Prod.fst) h)
      simp [findEntry, absent, eq_comm]
    · simp [findEntry, same, ih distinct.2, Ne.symm same]

theorem findEntry_isSome_iff {key : κ} {entries : List (κ × α)} :
    (findEntry key entries).isSome ↔ key ∈ entries.map Prod.fst := by
  induction entries with
  | nil => simp [findEntry]
  | cons entry rest ih =>
    obtain ⟨held, old⟩ := entry
    by_cases same : held = key
    · simp [findEntry, same]
    · simp [findEntry, same, ih, Ne.symm same]

theorem filter_eq_findEntry {key : κ} {entries : List (κ × α)}
    (distinct : (entries.map Prod.fst).Nodup) :
    (entries.filter fun entry => entry.1 = key) =
      (findEntry key entries).toList.map fun value => (key, value) := by
  induction entries with
  | nil => rfl
  | cons entry rest ih =>
    obtain ⟨held, value⟩ := entry
    simp only [List.map_cons, List.nodup_cons] at distinct
    by_cases same : held = key
    · subst same
      have absent : findEntry held rest = none := by
        rw [← Option.not_isSome_iff_eq_none, findEntry_isSome_iff]
        exact distinct.1
      rw [absent] at ih
      simp [findEntry, ih distinct.2]
    · simp [findEntry, same, ih distinct.2]

def get? (table : Table κ α) (key : κ) : Option α := findEntry key table.entries

def contains (table : Table κ α) (key : κ) : Bool := (table.get? key).isSome

/-- Bind a key; an entry that is already there keeps its place. -/
def insert (table : Table κ α) (key : κ) (value : α) : Table κ α :=
  ⟨putEntry key value table.entries, nodup_putEntry table.distinct⟩

def erase (table : Table κ α) (key : κ) : Table κ α :=
  ⟨table.entries.filter fun entry => entry.1 ≠ key,
    table.distinct.sublist (List.filter_sublist.map Prod.fst)⟩

/-- Change the value of a key, if there is one. -/
def modify (table : Table κ α) (key : κ) (change : α → α) : Table κ α :=
  match table.get? key with
  | some value => table.insert key (change value)
  | none => table

@[simp]
theorem get?_empty (key : κ) : (∅ : Table κ α).get? key = none := rfl

theorem get?_insert (table : Table κ α) (key other : κ) (value : α) :
    (table.insert key value).get? other = if other = key then some value else table.get? other :=
  findEntry_putEntry key other value table.entries

@[simp]
theorem get?_insert_self (table : Table κ α) (key : κ) (value : α) :
    (table.insert key value).get? key = some value := by
  simp [get?_insert]

theorem get?_erase (table : Table κ α) (key other : κ) :
    (table.erase key).get? other = if other = key then none else table.get? other :=
  findEntry_filter key other table.entries

@[simp]
theorem get?_erase_self (table : Table κ α) (key : κ) : (table.erase key).get? key = none := by
  simp [get?_erase]

theorem get?_modify (table : Table κ α) (key other : κ) (change : α → α) :
    (table.modify key change).get? other =
      if other = key then (table.get? key).map change else table.get? other := by
  cases held : table.get? key with
  | none =>
    by_cases same : other = key
    · simp [modify, held, same]
    · simp [modify, held, same]
  | some value => simp [modify, held, get?_insert]

/-- The entries are exactly the pairs that a look-up finds. -/
theorem mem_entries_iff {table : Table κ α} {key : κ} {value : α} :
    (key, value) ∈ table.entries ↔ table.get? key = some value :=
  (findEntry_eq_some_iff table.distinct).symm

theorem contains_iff_mem_keys {table : Table κ α} {key : κ} :
    table.contains key = true ↔ key ∈ table.keys :=
  findEntry_isSome_iff

theorem mem_values_iff {table : Table κ α} {value : α} :
    value ∈ table.values ↔ ∃ key, table.get? key = some value := by
  constructor
  · intro listed
    obtain ⟨⟨key, held⟩, entered, rfl⟩ := List.mem_map.mp listed
    exact ⟨key, mem_entries_iff.mp entered⟩
  · rintro ⟨key, held⟩
    exact List.mem_map.mpr ⟨(key, value), mem_entries_iff.mpr held, rfl⟩

theorem erase_eq_self {table : Table κ α} {key : κ} (absent : table.get? key = none) :
    table.erase key = table := by
  have kept : (table.entries.filter fun entry => entry.1 ≠ key) = table.entries := by
    apply List.filter_eq_self.mpr
    rintro ⟨other, value⟩ listed
    apply decide_eq_true
    rintro rfl
    rw [mem_entries_iff.mp listed] at absent
    cases absent
  unfold erase
  simp only [kept]

theorem erase_erase (table : Table κ α) (key : κ) :
    (table.erase key).erase key = table.erase key :=
  erase_eq_self (get?_erase_self table key)

theorem putEntry_putEntry (key : κ) (old new : α) (entries : List (κ × α)) :
    putEntry key new (putEntry key old entries) = putEntry key new entries := by
  induction entries with
  | nil => simp [putEntry]
  | cons entry rest ih =>
    obtain ⟨held, value⟩ := entry
    by_cases same : held = key
    · simp [putEntry, same]
    · simp [putEntry, same, ih]

theorem insert_insert (table : Table κ α) (key : κ) (old new : α) :
    (table.insert key old).insert key new = table.insert key new := by
  unfold insert
  simp only [putEntry_putEntry]

/-- The entry of one key, if there is one. -/
def entriesAt (table : Table κ α) (key : κ) : List (κ × α) :=
  (table.get? key).toList.map fun value => (key, value)

/-- Two tables with the same look-ups have the same entries. -/
theorem entries_perm {table other : Table κ α} (same : ∀ key, table.get? key = other.get? key) :
    table.entries.Perm other.entries := by
  apply (List.perm_ext_iff_of_nodup table.nodup_entries other.nodup_entries).mpr
  rintro ⟨key, value⟩
  rw [mem_entries_iff, mem_entries_iff, same key]

/-- The entries of a table are the one of a key and those of the others. -/
theorem entries_perm_erase (table : Table κ α) (key : κ) :
    table.entries.Perm (table.entriesAt key ++ (table.erase key).entries) := by
  have split := List.filter_append_perm (fun entry => decide (entry.1 = key)) table.entries
  rw [filter_eq_findEntry table.distinct] at split
  simpa [entriesAt, get?, erase] using split.symm

theorem entries_insert_perm (table : Table κ α) (key : κ) (value : α) :
    (table.insert key value).entries.Perm ((key, value) :: (table.erase key).entries) := by
  have split := entries_perm_erase (table.insert key value) key
  rw [entriesAt, get?_insert_self] at split
  refine split.trans (List.Perm.cons _ (entries_perm ?_))
  intro other
  rw [get?_erase, get?_erase, get?_insert]
  by_cases same : other = key
  · simp [same]
  · simp [same]

end Table

end Quorum
