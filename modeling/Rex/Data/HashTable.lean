import Mathlib.Data.List.Nodup
import Mathlib.Data.List.TakeWhile
import Mathlib.Logic.Function.Basic

/-! Tables with a bounded number of entries.  The entries stand in the order in
which a traversal meets them; where a new entry goes is up to the table. -/

structure HashTable (Key Value : Type) (capacity : Nat) where
  entries : List (Key × Value)
  nodup : (entries.map Prod.fst).Nodup
  bounded : entries.length ≤ capacity

namespace HashTable

variable {Key Value : Type} {capacity : Nat}

def keys (table : HashTable Key Value capacity) : List Key :=
  table.entries.map Prod.fst

def empty : HashTable Key Value capacity :=
  ⟨[], List.nodup_nil, Nat.zero_le _⟩

theorem length_keys (table : HashTable Key Value capacity) :
    table.keys.length ≤ capacity := by
  rw [keys, List.length_map]
  exact table.bounded

theorem sublist_of_cons_sublist {key : Key} {later before after : List Key}
    (fresh : key ∉ before) (met : (key :: later).Sublist (before ++ key :: after)) :
    later.Sublist after := by
  induction before with
  | nil => exact List.cons_sublist_cons.mp met
  | cons other rest induction =>
      rw [List.mem_cons, not_or] at fresh
      exact induction fresh.2 (met.of_cons_of_ne fresh.1)

theorem sublist_of_concat_sublist {key : Key} {earlier before after : List Key}
    (fresh : key ∉ after) (met : (earlier ++ [key]).Sublist (before ++ key :: after)) :
    earlier.Sublist before := by
  have reversed := met.reverse
  rw [List.reverse_concat, List.reverse_append, List.reverse_cons, List.append_assoc]
    at reversed
  have later : key ∉ after.reverse := fun member => fresh (List.mem_reverse.mp member)
  exact List.reverse_sublist.mp (sublist_of_cons_sublist later reversed)

variable [DecidableEq Key]

def lookup (table : HashTable Key Value capacity) (key : Key) : Option Value :=
  table.entries.lookup key

/-- A write through the reference that a lookup has returned. -/
def modify (table : HashTable Key Value capacity) (key : Key)
    (change : Value → Value) : HashTable Key Value capacity where
  entries := table.entries.map fun entry =>
    (entry.1, if entry.1 = key then change entry.2 else entry.2)
  nodup := by
    rw [List.map_map]
    exact table.nodup
  bounded := by
    rw [List.length_map]
    exact table.bounded

def remove (table : HashTable Key Value capacity) (key : Key) :
    HashTable Key Value capacity where
  entries := table.entries.filter fun entry => entry.1 ≠ key
  nodup := table.nodup.sublist (List.filter_sublist.map _)
  bounded := Nat.le_trans (List.length_filter_le _ _) table.bounded

theorem perm_splice {Entry : Type} (entries : List Entry) (place : Nat) (entry : Entry) :
    (entries.take place ++ entry :: entries.drop place).Perm (entry :: entries) := by
  refine List.perm_middle.trans ?_
  rw [List.take_append_drop]

theorem mem_remove {table : HashTable Key Value capacity} {key : Key}
    {entry : Key × Value} :
    entry ∈ (table.remove key).entries ↔ entry ∈ table.entries ∧ entry.1 ≠ key := by
  simp only [remove, List.mem_filter, decide_eq_true_eq]

theorem notMem_keys_remove (table : HashTable Key Value capacity) (key : Key) :
    key ∉ (table.remove key).keys := by
  intro member
  obtain ⟨entry, kept, rfl⟩ := List.mem_map.mp member
  exact (mem_remove.mp kept).2 rfl

/-- An entry takes the place of the one with the same key, if there is one, and
needs room otherwise. -/
def update (table : HashTable Key Value capacity) (place : Nat) (key : Key)
    (value : Value) : Option (HashTable Key Value capacity) :=
  if room : (table.remove key).entries.length < capacity then
    some {
      entries := (table.remove key).entries.take place ++
        (key, value) :: (table.remove key).entries.drop place
      nodup := by
        rw [((perm_splice _ place (key, value)).map Prod.fst).nodup_iff]
        exact List.nodup_cons.mpr ⟨notMem_keys_remove table key, (table.remove key).nodup⟩
      bounded := by
        rw [(perm_splice _ place (key, value)).length_eq]
        exact room }
  else
    none

section Lookup

variable {table next : HashTable Key Value capacity} {key : Key} {value : Value}

theorem lookup_eq_some_iff : table.lookup key = some value ↔
    (key, value) ∈ table.entries := by
  obtain ⟨entries, nodup, bounded⟩ := table
  show entries.lookup key = some value ↔ (key, value) ∈ entries
  clear bounded
  induction entries with
  | nil => simp
  | cons entry rest induction =>
      obtain ⟨first, stored⟩ := entry
      obtain ⟨fresh, restNodup⟩ := List.nodup_cons.mp nodup
      by_cases same : key = first
      · subst same
        have absent : (key, value) ∉ rest := fun member =>
          fresh (List.mem_map.mpr ⟨_, member, rfl⟩)
        simp [absent, eq_comm]
      · rw [List.lookup_cons, beq_false_of_ne same, List.mem_cons, induction restNodup]
        simp [same]

theorem isSome_lookup_iff : (table.lookup key).isSome ↔ key ∈ table.keys := by
  simp [Option.isSome_iff_exists, lookup_eq_some_iff, keys]

theorem lookup_eq_none_iff : table.lookup key = none ↔ key ∉ table.keys := by
  rw [← isSome_lookup_iff, Option.not_isSome_iff_eq_none]

theorem lookup_modify (table : HashTable Key Value capacity) (key : Key)
    (change : Value → Value) :
    (table.modify key change).lookup =
      Function.update table.lookup key ((table.lookup key).map change) := by
  funext other
  ext value
  rw [lookup_eq_some_iff]
  by_cases same : other = key
  · subst same
    simp only [modify, List.mem_map, Function.update_self,
      Option.map_eq_some_iff, lookup_eq_some_iff]
    constructor
    · rintro ⟨⟨found, stored⟩, member, entry⟩
      obtain ⟨rfl, rfl⟩ := Prod.mk.inj entry
      exact ⟨stored, member, (if_pos rfl).symm⟩
    · rintro ⟨stored, member, rfl⟩
      exact ⟨_, member, by rw [if_pos rfl]⟩
  · rw [Function.update_of_ne same, lookup_eq_some_iff, modify, List.mem_map]
    constructor
    · rintro ⟨⟨found, stored⟩, member, entry⟩
      obtain ⟨rfl, rfl⟩ := Prod.mk.inj entry
      rwa [if_neg same]
    · exact fun member => ⟨_, member, by rw [if_neg same]⟩

theorem lookup_remove (table : HashTable Key Value capacity) (key : Key) :
    (table.remove key).lookup = Function.update table.lookup key none := by
  funext other
  ext value
  rw [lookup_eq_some_iff, mem_remove]
  by_cases same : other = key
  · subst same
    simp
  · simp [same, lookup_eq_some_iff]

theorem perm_remove (found : table.lookup key = some value) :
    ((key, value) :: (table.remove key).entries).Perm table.entries := by
  obtain ⟨before, after, split⟩ := List.append_of_mem (lookup_eq_some_iff.mp found)
  have fresh : ∀ entry ∈ before ++ after, entry.1 ≠ key := by
    have nodup := table.nodup
    rw [split, (List.perm_middle.map Prod.fst).nodup_iff] at nodup
    intro entry member same
    exact (List.nodup_cons.mp nodup).1 (List.mem_map.mpr ⟨entry, member, same⟩)
  have kept : (table.remove key).entries = before ++ after := by
    show table.entries.filter _ = _
    rw [split, List.filter_append, List.filter_cons_of_neg (by simp),
      ← List.filter_append]
    exact List.filter_eq_self.mpr fun entry member => decide_eq_true (fresh entry member)
  rw [kept, split]
  exact List.perm_middle.symm

theorem length_keys_remove (found : table.lookup key = some value) :
    (table.remove key).keys.length + 1 = table.keys.length := by
  rw [keys, keys, List.length_map, List.length_map]
  exact (perm_remove found).length_eq

theorem update_eq_some {place : Nat} (updated : table.update place key value = some next) :
    next.entries = (table.remove key).entries.take place ++
      (key, value) :: (table.remove key).entries.drop place := by
  rw [update] at updated
  split at updated
  · rw [← Option.some.inj updated]
  · cases updated

theorem lookup_update {place : Nat}
    (updated : table.update place key value = some next) :
    next.lookup = Function.update table.lookup key (some value) := by
  have entries := perm_splice (table.remove key).entries place (key, value)
  rw [← update_eq_some updated] at entries
  funext other
  ext found
  rw [lookup_eq_some_iff, entries.mem_iff, List.mem_cons, mem_remove]
  by_cases same : other = key
  · subst same
    simp [eq_comm]
  · simp [same, lookup_eq_some_iff]

theorem remove_of_absent (absent : key ∉ table.keys) :
    (table.remove key).entries = table.entries := by
  refine List.filter_eq_self.mpr ?_
  intro entry member
  refine decide_eq_true ?_
  rintro rfl
  exact absent (List.mem_map_of_mem member)

/-- Only a new key may be refused, when there are as many as the table can
hold. -/
theorem update_eq_none_iff {place : Nat} : table.update place key value = none ↔
    table.lookup key = none ∧ table.keys.length = capacity := by
  have size := table.length_keys
  rw [update, lookup_eq_none_iff]
  split
  · rename_i room
    refine ⟨fun updated => (nomatch updated), ?_⟩
    rintro ⟨absent, full⟩
    rw [remove_of_absent absent] at room
    rw [keys, List.length_map] at full
    omega
  · rename_i full
    refine ⟨fun _ => ?_, fun _ => rfl⟩
    have absent : key ∉ table.keys := by
      intro member
      obtain ⟨entry, stored, rfl⟩ := List.mem_map.mp member
      have fewer : (table.remove entry.1).entries.length < table.entries.length :=
        List.length_filter_lt_length_iff_exists.mpr ⟨entry, stored, by simp⟩
      exact full (Nat.lt_of_lt_of_le fewer table.bounded)
    rw [remove_of_absent absent] at full
    refine ⟨absent, ?_⟩
    rw [keys, List.length_map] at size ⊢
    omega

end Lookup

/-! The traversal: each call names a key and is told the one that follows.  A
key that is not in the table is followed by the first. -/

section Traversal

variable {table next : HashTable Key Value capacity} {key : Key}

def keysAfter (table : HashTable Key Value capacity) (key : Key) : List Key :=
  match table.keys.dropWhile (fun other => other ≠ key) with
  | [] => table.keys
  | _ :: rest => rest

def nextKey (table : HashTable Key Value capacity) (key : Key) : Option Key :=
  (table.keysAfter key).head?

omit [DecidableEq Key] in
theorem fresh_of_split {before after : List Key}
    (split : table.keys = before ++ key :: after) : key ∉ before ∧ key ∉ after := by
  have nodup := table.nodup
  rw [← keys, split] at nodup
  refine ⟨fun member => ?_, (List.nodup_cons.mp nodup.of_append_right).1⟩
  exact List.disjoint_of_nodup_append nodup member List.mem_cons_self

theorem keysAfter_of_absent (absent : key ∉ table.keys) :
    table.keysAfter key = table.keys := by
  have dropped : table.keys.dropWhile (fun other => other ≠ key) = [] := by
    rw [List.dropWhile_eq_nil_iff]
    intro other member
    refine decide_eq_true ?_
    rintro rfl
    exact absent member
  rw [keysAfter, dropped]

theorem keysAfter_of_split {before after : List Key}
    (split : table.keys = before ++ key :: after) : table.keysAfter key = after := by
  have dropped : table.keys.dropWhile (fun other => other ≠ key) = key :: after := by
    rw [split, List.dropWhile_append_of_pos]
    · simp
    · intro other member
      refine decide_eq_true ?_
      rintro rfl
      exact (fresh_of_split split).1 member
  rw [keysAfter, dropped]

theorem keysAfter_suffix (table : HashTable Key Value capacity) (key : Key) :
    table.keysAfter key <:+ table.keys := by
  by_cases member : key ∈ table.keys
  · obtain ⟨before, after, split⟩ := List.append_of_mem member
    rw [keysAfter_of_split split, split]
    exact ⟨before ++ [key], by simp⟩
  · exact ⟨[], keysAfter_of_absent member⟩

theorem keysAfter_next {first : Key} {rest : List Key}
    (after : table.keysAfter key = first :: rest) : table.keysAfter first = rest := by
  obtain ⟨before, split⟩ := table.keysAfter_suffix key
  rw [after] at split
  exact keysAfter_of_split split.symm

end Traversal

/-! Traversals during which the table grows. -/

section Growth

variable {table next : HashTable Key Value capacity} {key : Key} {value : Value}

theorem keys_modify (change : Value → Value) :
    (table.modify key change).keys = table.keys := by
  rw [keys, modify, List.map_map]
  rfl

theorem keys_sublist_update {place : Nat} (absent : table.lookup key = none)
    (updated : table.update place key value = some next) :
    table.keys.Sublist next.keys := by
  have entries := update_eq_some updated
  rw [remove_of_absent (lookup_eq_none_iff.mp absent)] at entries
  have grown : table.entries.Sublist next.entries := by
    rw [entries]
    refine List.Sublist.trans ?_ ((List.sublist_cons_self _ _).append_left _)
    rw [List.take_append_drop]
  exact grown.map _

theorem visited_sublist {visited : List Key} {last : Key}
    (met : (visited ++ [key]).Sublist table.keys)
    (follows : table.nextKey key = some last) :
    (visited ++ [key] ++ [last]).Sublist table.keys := by
  have member : key ∈ table.keys := met.subset (List.mem_append_right _ List.mem_cons_self)
  obtain ⟨before, after, split⟩ := List.append_of_mem member
  rw [nextKey, keysAfter_of_split split] at follows
  have front : visited.Sublist before :=
    sublist_of_concat_sublist (fresh_of_split split).2 (split ▸ met)
  rw [split]
  cases after with
  | nil => cases follows
  | cons first rest =>
      obtain rfl := Option.some.inj follows
      rw [List.append_assoc]
      exact front.append (.cons_cons _ (.cons_cons _ (List.nil_sublist _)))

/-- What follows a key goes on to follow it when others are added. -/
theorem keysAfter_sublist (grown : table.keys.Sublist next.keys) (member : key ∈ table.keys) :
    (table.keysAfter key).Sublist (next.keysAfter key) := by
  obtain ⟨before, after, split⟩ := List.append_of_mem member
  obtain ⟨nextBefore, nextAfter, nextSplit⟩ := List.append_of_mem (grown.subset member)
  rw [keysAfter_of_split split, keysAfter_of_split nextSplit]
  rw [split, nextSplit] at grown
  exact sublist_of_cons_sublist (fresh_of_split nextSplit).1
    ((List.sublist_append_right _ _).trans grown)

end Growth

end HashTable
