import Mathlib.Data.Fintype.EquivFin
import Rex.Data.HashTable

/-! Tables whose entries are elements of a pool.  A lookup returns a reference to
the element, which can be read and written later on, also when the table has given
up the element in the meantime.  An element that was given up may be taken for
another key. -/

namespace HashTable

variable {Key Value Other : Type} {capacity : Nat}

theorem eq_of_entries {first second : HashTable Key Value capacity}
    (same : first.entries = second.entries) : first = second := by
  obtain ⟨entries, nodup, bounded⟩ := first
  obtain ⟨others, othersNodup, othersBounded⟩ := second
  obtain rfl : entries = others := same
  rfl

def mapValues (change : Value → Other) (table : HashTable Key Value capacity) :
    HashTable Key Other capacity where
  entries := table.entries.map fun entry => (entry.1, change entry.2)
  nodup := by
    rw [List.map_map]
    exact table.nodup
  bounded := by
    rw [List.length_map]
    exact table.bounded

variable {change : Value → Other} {table : HashTable Key Value capacity}

theorem keys_mapValues : (table.mapValues change).keys = table.keys := by
  rw [keys, mapValues, List.map_map]
  rfl

theorem mapValues_congr {other : Value → Other}
    (same : ∀ entry ∈ table.entries, change entry.2 = other entry.2) :
    table.mapValues change = table.mapValues other := by
  apply eq_of_entries
  apply List.map_congr_left
  intro entry member
  rw [same entry member]

variable [DecidableEq Key]

theorem lookup_mapValues (key : Key) :
    (table.mapValues change).lookup key = (table.lookup key).map change := by
  ext value
  rw [lookup_eq_some_iff, Option.map_eq_some_iff, mapValues, List.mem_map]
  constructor
  · rintro ⟨⟨found, stored⟩, member, entry⟩
    obtain ⟨rfl, rfl⟩ := Prod.mk.inj entry
    exact ⟨stored, lookup_eq_some_iff.mpr member, rfl⟩
  · rintro ⟨stored, found, rfl⟩
    exact ⟨_, lookup_eq_some_iff.mp found, rfl⟩

theorem mapValues_remove (key : Key) :
    (table.remove key).mapValues change = (table.mapValues change).remove key := by
  apply eq_of_entries
  show (table.entries.filter _).map _ = (table.entries.map _).filter _
  rw [List.filter_map]
  rfl

theorem mapValues_update (place : Nat) (key : Key) (value : Value) :
    (table.update place key value).map (mapValues change) =
      (table.mapValues change).update place key (change value) := by
  have same : ((table.mapValues change).remove key).entries =
      (table.remove key).entries.map fun entry => (entry.1, change entry.2) := by
    rw [← mapValues_remove]
    rfl
  have length : ((table.mapValues change).remove key).entries.length =
      (table.remove key).entries.length := by
    rw [same, List.length_map]
  by_cases room : (table.remove key).entries.length < capacity
  · rw [update, dif_pos room, update, dif_pos (length.trans_lt room), Option.map_some]
    refine congrArg some (eq_of_entries ?_)
    show List.map _ (_ ++ _ :: _) = _
    rw [List.map_append, List.map_cons, List.map_take, List.map_drop, ← same]
  · rw [update, dif_neg room, update, dif_neg (length.symm ▸ room), Option.map_none]

/-- An update that may be refused, or find the table full. -/
def tryUpdate {Code : Type} (full : Code) (table : HashTable Key Value capacity) (key : Key)
    (value : Value) : Except Code Nat → Except Code Unit × HashTable Key Value capacity
  | .error code => (.error code, table)
  | .ok place =>
      match table.update place key value with
      | none => (.error full, table)
      | some next => (.ok (), next)

theorem keys_sublist_tryUpdate {Code : Type} (full : Code) {key : Key}
    (absent : key ∉ table.keys) (value : Value) (answer : Except Code Nat) :
    table.keys.Sublist (table.tryUpdate full key value answer).2.keys := by
  cases answer with
  | error code => exact .refl _
  | ok place =>
      rw [tryUpdate]
      cases updated : table.update place key value with
      | none => exact .refl _
      | some next => exact keys_sublist_update (lookup_eq_none_iff.mpr absent) updated

end HashTable

structure ElementTable (Key Value : Type) (capacity : Nat) where
  elements : HashTable Key Nat capacity
  values : Nat → Value
  distinct : (elements.entries.map Prod.snd).Nodup

/-- The element under a key, and the key under which it was found. -/
structure Reference (Key : Type) where
  key : Key
  element : Nat
deriving DecidableEq

namespace ElementTable

variable {Key Value : Type} {capacity : Nat}

def empty (values : Nat → Value) : ElementTable Key Value capacity :=
  ⟨.empty, values, List.nodup_nil⟩

/-- What the table holds, whichever elements it uses. -/
def contents (table : ElementTable Key Value capacity) :
    HashTable Key Value capacity :=
  table.elements.mapValues table.values

def Unused (table : ElementTable Key Value capacity) (element : Nat) : Prop :=
  element ∉ table.elements.entries.map Prod.snd

instance (table : ElementTable Key Value capacity) (element : Nat) :
    Decidable (table.Unused element) :=
  inferInstanceAs (Decidable (¬ _))

theorem exists_unused (table : ElementTable Key Value capacity) :
    ∃ element, table.Unused element := by
  obtain ⟨element, fresh⟩ := Infinite.exists_notMem_finset
    (table.elements.entries.map Prod.snd).toFinset
  exact ⟨element, fun used => fresh (List.mem_toFinset.mpr used)⟩

def keys (table : ElementTable Key Value capacity) : List Key :=
  table.elements.keys

theorem keys_contents (table : ElementTable Key Value capacity) :
    table.contents.keys = table.keys :=
  HashTable.keys_mapValues

/-! Reading and writing through a reference. -/

def read (table : ElementTable Key Value capacity) (reference : Reference Key) : Value :=
  table.values reference.element

def write (table : ElementTable Key Value capacity) (reference : Reference Key)
    (value : Value) : ElementTable Key Value capacity :=
  { table with values := Function.update table.values reference.element value }

theorem keys_write (table : ElementTable Key Value capacity)
    (reference : Reference Key) (value : Value) :
    (table.write reference value).keys = table.keys :=
  rfl

/-- A write to an element that the table does not use is not seen in the table. -/
theorem contents_write_of_unused {table : ElementTable Key Value capacity}
    {reference : Reference Key} (unused : table.Unused reference.element)
    (value : Value) : (table.write reference value).contents = table.contents := by
  refine HashTable.mapValues_congr fun entry member => ?_
  refine Function.update_of_ne ?_ ..
  rintro same
  exact unused (List.mem_map.mpr ⟨entry, member, same⟩)

variable [DecidableEq Key]

def find (table : ElementTable Key Value capacity) (key : Key) : Option (Reference Key) :=
  (table.elements.lookup key).map (Reference.mk key)

/-- The reference is the one that a lookup of its key would return now. -/
def Current (table : ElementTable Key Value capacity) (reference : Reference Key) : Prop :=
  table.elements.lookup reference.key = some reference.element

instance (table : ElementTable Key Value capacity) (reference : Reference Key) :
    Decidable (table.Current reference) :=
  inferInstanceAs (Decidable (_ = _))

section Reference

variable {table : ElementTable Key Value capacity} {key : Key}
  {reference : Reference Key}

theorem find_eq_some (found : table.find key = some reference) :
    reference.key = key ∧ table.Current reference := by
  obtain ⟨element, stored, rfl⟩ := Option.map_eq_some_iff.mp found
  exact ⟨rfl, stored⟩

theorem lookup_contents (key : Key) :
    table.contents.lookup key = (table.elements.lookup key).map table.values :=
  HashTable.lookup_mapValues key

theorem lookup_of_current (current : table.Current reference) :
    table.contents.lookup reference.key = some (table.read reference) := by
  rw [lookup_contents, current]
  rfl

theorem lookup_eq_none_of_find (absent : table.find key = none) :
    table.contents.lookup key = none := by
  rw [lookup_contents, Option.map_eq_none_iff.mp absent]
  rfl

theorem not_current_of_unused (unused : table.Unused reference.element) :
    ¬ table.Current reference :=
  fun current => unused
    (List.mem_map.mpr ⟨_, HashTable.lookup_eq_some_iff.mp current, rfl⟩)

/-- An element is in use under one key. -/
theorem element_eq_iff (current : table.Current reference) {entry : Key × Nat}
    (member : entry ∈ table.elements.entries) :
    entry.2 = reference.element ↔ entry.1 = reference.key := by
  have own : (reference.key, reference.element) ∈ table.elements.entries :=
    HashTable.lookup_eq_some_iff.mp current
  constructor
  · intro same
    have whole := List.inj_on_of_nodup_map table.distinct member own same
    rw [whole]
  · intro same
    have whole := List.inj_on_of_nodup_map table.elements.nodup member own same
    rw [whole]

theorem contents_write (current : table.Current reference) (change : Value → Value) :
    (table.write reference (change (table.read reference))).contents =
      table.contents.modify reference.key change := by
  apply HashTable.eq_of_entries
  show table.elements.entries.map _ = (table.elements.entries.map _).map _
  rw [List.map_map]
  apply List.map_congr_left
  intro entry member
  show (entry.1, Function.update table.values reference.element _ entry.2) =
    (entry.1, if entry.1 = reference.key then change (table.values entry.2)
      else table.values entry.2)
  rw [Function.update_apply]
  by_cases own : entry.2 = reference.element
  · rw [if_pos own, if_pos ((element_eq_iff current member).mp own), own]
    rfl
  · rw [if_neg own, if_neg fun same => own ((element_eq_iff current member).mpr same)]

end Reference

/-! Taking elements and giving them up. -/

def remove (table : ElementTable Key Value capacity) (key : Key) :
    ElementTable Key Value capacity where
  elements := table.elements.remove key
  values := table.values
  distinct := table.distinct.sublist (List.filter_sublist.map _)

theorem contents_remove (table : ElementTable Key Value capacity) (key : Key) :
    (table.remove key).contents = table.contents.remove key :=
  HashTable.mapValues_remove key

theorem distinct_update {table : ElementTable Key Value capacity} {place element : Nat}
    {key : Key} {elements : HashTable Key Nat capacity} (unused : table.Unused element)
    (updated : table.elements.update place key element = some elements) :
    (elements.entries.map Prod.snd).Nodup := by
  have perm := (HashTable.perm_splice (table.elements.remove key).entries place
    (key, element)).map Prod.snd
  rw [HashTable.update_eq_some updated, perm.nodup_iff]
  have kept : ((table.elements.remove key).entries.map Prod.snd).Sublist
      (table.elements.entries.map Prod.snd) := List.filter_sublist.map _
  exact List.nodup_cons.mpr
    ⟨fun used => unused (kept.subset used), table.distinct.sublist kept⟩

/-- An entry gets an element that was not in use, also when it takes the place of
another one with the same key. -/
def update (table : ElementTable Key Value capacity) (place element : Nat)
    (unused : table.Unused element) (key : Key) (value : Value) :
    Option (ElementTable Key Value capacity) :=
  match updated : table.elements.update place key element with
  | none => none
  | some elements =>
      some ⟨elements, Function.update table.values element value,
        distinct_update unused updated⟩

theorem contents_update (table : ElementTable Key Value capacity) (place element : Nat)
    (unused : table.Unused element) (key : Key) (value : Value) :
    (table.update place element unused key value).map contents =
      table.contents.update place key value := by
  -- the elements that the table uses keep their values
  have kept : table.elements.mapValues (Function.update table.values element value) =
      table.contents := by
    refine HashTable.mapValues_congr fun entry member => ?_
    refine Function.update_of_ne ?_ ..
    rintro rfl
    exact unused (List.mem_map_of_mem member)
  have updated := @HashTable.mapValues_update _ _ _ _
    (Function.update table.values element value) table.elements _ place key element
  rw [kept, Function.update_self] at updated
  rw [← updated, update]
  split
  · rename_i full
    exact (congrArg (Option.map _) full).symm
  · rename_i elements taken
    exact (congrArg (Option.map _) taken).symm

section TryUpdate

variable {Code : Type} (full : Code)

/-- `element` is the one that is taken, if one is. -/
def tryUpdate (table : ElementTable Key Value capacity) (element : Nat) (key : Key)
    (value : Value) :
    Except Code Nat → Option (Except Code Unit × ElementTable Key Value capacity)
  | .error code => some (.error code, table)
  | .ok place =>
      if unused : table.Unused element then
        match table.update place element unused key value with
        | none => some (.error full, table)
        | some next => some (.ok (), next)
      else
        none

variable {full} {table next : ElementTable Key Value capacity} {element : Nat} {key : Key}
  {value : Value} {answer : Except Code Nat} {result : Except Code Unit}

theorem contents_tryUpdate
    (tried : table.tryUpdate full element key value answer = some (result, next)) :
    table.contents.tryUpdate full key value answer = (result, next.contents) := by
  cases answer with
  | error code =>
      obtain ⟨rfl, rfl⟩ := Prod.mk.inj (Option.some.inj tried)
      rfl
  | ok place =>
      rw [tryUpdate] at tried
      split at tried
      · rename_i unused
        rw [HashTable.tryUpdate, ← table.contents_update place element unused key value]
        split at tried
        · rename_i updated
          obtain ⟨rfl, rfl⟩ := Prod.mk.inj (Option.some.inj tried)
          rw [updated]
          rfl
        · rename_i table updated
          obtain ⟨rfl, rfl⟩ := Prod.mk.inj (Option.some.inj tried)
          rw [updated]
          rfl
      · cases tried

theorem exists_tryUpdate (full : Code) (table : ElementTable Key Value capacity)
    (key : Key) (value : Value) (answer : Except Code Nat) :
    ∃ element next, table.tryUpdate full element key value answer =
      some ((table.contents.tryUpdate full key value answer).1, next) ∧
      next.contents = (table.contents.tryUpdate full key value answer).2 := by
  obtain ⟨element, unused⟩ := table.exists_unused
  suffices tries : ∃ result next,
      table.tryUpdate full element key value answer = some (result, next) by
    obtain ⟨result, next, tried⟩ := tries
    rw [contents_tryUpdate tried]
    exact ⟨element, next, tried, rfl⟩
  cases answer with
  | error code => exact ⟨_, _, rfl⟩
  | ok place =>
      cases updated : table.update place element unused key value with
      | none => exact ⟨.error full, table, by simp [tryUpdate, unused, updated]⟩
      | some next => exact ⟨.ok (), next, by simp [tryUpdate, unused, updated]⟩

theorem keys_sublist_tryUpdate (absent : key ∉ table.keys)
    (tried : table.tryUpdate full element key value answer = some (result, next)) :
    table.keys.Sublist next.keys := by
  rw [← keys_contents] at absent
  have grown := HashTable.keys_sublist_tryUpdate full absent value answer
  rwa [contents_tryUpdate tried, keys_contents, keys_contents] at grown

end TryUpdate

end ElementTable
