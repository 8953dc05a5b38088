import Rex.Data.Calls
import Rex.Data.ElementTable
import Rex.TraceEvent.Sample

namespace Rex.TraceEvent

open Calls

/-! `rex_prog1` once more, cut at its accesses to the table.  The event is opened on
all processors, and nothing keeps the accesses of one sample from coming between
those of another. -/

abbrev CountTable : Type := ElementTable KeyT UInt64 10000

inductive Access
  | find (key : KeyT)
  | load (reference : Reference KeyT)
  | store (reference : Reference KeyT) (value : UInt64)
  | insert (key : KeyT) (place : Except Int32 Nat)

abbrev Access.Answer : Access → Type
  | .find _ => Option (Reference KeyT)
  | .load _ => UInt64
  | .store .. => Unit
  | .insert .. => Except Int32 Unit

/-- The key has been added by another one. -/
def overtaken : Int32 := -17

/-- An access by itself is not interrupted.  A new entry takes `element` out of the
pool of the table. -/
def serve (element : Nat) :
    (access : Access) → CountTable → Option (access.Answer × CountTable)
  | .find key, counts => some (counts.find key, counts)
  | .load reference, counts => some (counts.read reference, counts)
  | .store reference value, counts => some ((), counts.write reference value)
  | .insert key place, counts =>
      if key ∈ counts.keys then
        some (.error overtaken, counts)
      else
        counts.tryUpdate e2big element key 1 place

abbrev Code (Value : Type) : Type := Calls Access Access.Answer Stop Value

namespace Code

def count (key : KeyT) (place : Except Int32 Nat) : Code Int32 := do
  match ← request (Access.find key) with
  | none =>
      let inserted ← request (Access.insert key place)
      ofExcept (inserted.mapError Stop.code)
      pure 0
  | some reference =>
      let value ← request (Access.load reference)
      request (Access.store reference (value + 1))
      pure 0

def rexProg1 (sample : Sample) : Code Int32 :=
  match sampleKey sample with
  | .error stop => .halt stop
  | .ok none => pure 0
  | .ok (some key) => count key sample.place

end Code

/-! A sample that nothing interrupts. -/

theorem run_insert (counts : CountMap) (key : KeyT) (place : Except Int32 Nat) :
    (insert key place).run counts =
      ((counts.tryUpdate e2big key 1 place).1.mapError Stop.code,
        (counts.tryUpdate e2big key 1 place).2) := by
  cases place with
  | error code => rfl
  | ok place =>
      rw [insert, Effect.run_get_bind, HashTable.tryUpdate]
      cases counts.update place key 1 with
      | none => rfl
      | some table => rfl

theorem ends_count (counts : CountTable) (key : KeyT) (place : Except Int32 Nat) :
    Ends serve ElementTable.contents counts (Code.count key place)
      ((count key place).run counts.contents) := by
  rw [Code.count, request_bind, count, Effect.run_get_bind]
  have found : serve 0 (.find key) counts = some (counts.find key, counts) := rfl
  refine .call found ?_
  cases known : counts.find key with
  | none =>
      have absent := ElementTable.lookup_eq_none_of_find known
      have fresh : key ∉ counts.keys := by
        rw [← counts.keys_contents]
        exact HashTable.lookup_eq_none_iff.mp absent
      obtain ⟨element, table, tried, contents⟩ :=
        counts.exists_tryUpdate e2big key 1 place
      have served : serve element (.insert key place) counts =
          some ((counts.contents.tryUpdate e2big key 1 place).1, table) := by
        rw [serve, if_neg fresh, tried]
      rw [absent]
      refine .call served ?_
      rw [Effect.run_bind, run_insert, ← contents]
      cases (counts.contents.tryUpdate e2big key 1 place).1 with
      | ok value => exact ⟨[], table, rfl, rfl⟩
      | error code => exact ⟨[], table, rfl, rfl⟩
  | some reference =>
      obtain ⟨rfl, current⟩ := ElementTable.find_eq_some known
      rw [ElementTable.lookup_of_current current]
      have loaded : serve 0 (.load reference) counts =
        some (counts.read reference, counts) := rfl
      have written : serve 0 (.store reference (counts.read reference + 1)) counts =
        some ((), counts.write reference (counts.read reference + 1)) := rfl
      refine .call loaded (.call written ⟨[], _, rfl, ?_⟩)
      exact ElementTable.contents_write current (· + 1)

theorem ends_rexProg1 (counts : CountTable) (sample : Sample) :
    Ends serve ElementTable.contents counts (Code.rexProg1 sample)
      ((rexProg1 sample).run counts.contents) := by
  rw [Code.rexProg1, rexProg1]
  cases sampleKey sample with
  | error stop => exact ends_ofExcept (.error stop)
  | ok taken =>
      cases taken with
      | none => exact ends_ofExcept (.ok 0)
      | some key => exact ends_count counts key sample.place

/-! What an access does to the counts. -/

structure Adds (key : KeyT) (counts next : CountMap) : Prop where
  lookup : next.lookup = Function.update counts.lookup key
    (some ((counts.lookup key).getD 0 + 1))
  keys : counts.keys.Sublist next.keys

def Access.counted (counts : CountTable) (element : Nat) : Access → Option KeyT
  | .find _ | .load _ => none
  | .store reference _ => some reference.key
  | .insert key place =>
      match serve element (.insert key place) counts with
      | some (.ok (), _) => some key
      | _ => none

/-- A store through a reference to an element that its key has lost does not reach
the key. -/
def Access.lands (counts : CountTable) : Access → Bool
  | .store reference _ => counts.Current reference
  | .find _ | .load _ | .insert .. => true

/-- A store finds the value as it was loaded, in an element that is still the one of
its key; or the element has been given up, and nothing sees the store. -/
def Access.Undisturbed (counts : CountTable) : Access → Prop
  | .store reference value =>
      (counts.Current reference ∧ value = counts.read reference + 1) ∨
        counts.Unused reference.element
  | .find _ | .load _ | .insert .. => True

theorem adds_store {counts : CountTable} {reference : Reference KeyT}
    (current : counts.Current reference) :
    Adds reference.key counts.contents
      (counts.write reference (counts.read reference + 1)).contents := by
  rw [ElementTable.contents_write current (· + 1)]
  refine ⟨?_, ?_⟩
  · rw [HashTable.lookup_modify, ElementTable.lookup_of_current current]
    rfl
  · rw [HashTable.keys_modify]

theorem serve_insert_cases {counts next : CountTable} {element : Nat} {key : KeyT}
    {place : Except Int32 Nat} {answer : Except Int32 Unit}
    (served : serve element (.insert key place) counts = some (answer, next)) :
    (answer = .ok () ∧ Adds key counts.contents next.contents) ∨
      (∃ code, answer = .error code) ∧ next.contents = counts.contents := by
  rw [serve] at served
  split at served
  · obtain ⟨rfl, rfl⟩ := Prod.mk.inj (Option.some.inj served)
    exact .inr ⟨⟨_, rfl⟩, rfl⟩
  · rename_i fresh
    have absent : counts.contents.lookup key = none := by
      rwa [HashTable.lookup_eq_none_iff, counts.keys_contents]
    have tried := ElementTable.contents_tryUpdate served
    cases place with
    | error code =>
        obtain ⟨rfl, same⟩ := Prod.mk.inj tried
        exact .inr ⟨⟨_, rfl⟩, same.symm⟩
    | ok place =>
        rw [HashTable.tryUpdate] at tried
        cases updated : counts.contents.update place key 1 with
        | none =>
            rw [updated] at tried
            obtain ⟨rfl, same⟩ := Prod.mk.inj tried
            exact .inr ⟨⟨_, rfl⟩, same.symm⟩
        | some table =>
            rw [updated] at tried
            obtain ⟨rfl, rfl⟩ := Prod.mk.inj tried
            refine .inl ⟨rfl, ?_, HashTable.keys_sublist_update absent updated⟩
            rw [HashTable.lookup_update updated, absent, Option.getD_none,
              UInt64.zero_add]

/-- An undisturbed access counts one sample, or leaves the counts as they are. -/
theorem serve_cases {counts next : CountTable} {element : Nat} {access : Access}
    {answer : access.Answer} (undisturbed : access.Undisturbed counts)
    (served : serve element access counts = some (answer, next)) :
    (access.counted counts element = none ∧ next.contents = counts.contents) ∨
      ∃ key, access.counted counts element = some key ∧
        ((access.lands counts = true ∧ Adds key counts.contents next.contents) ∨
          access.lands counts = false ∧ next.contents = counts.contents) := by
  cases access with
  | find key =>
      obtain ⟨_, rfl⟩ := Prod.mk.inj (Option.some.inj served)
      exact .inl ⟨rfl, rfl⟩
  | load reference =>
      obtain ⟨_, rfl⟩ := Prod.mk.inj (Option.some.inj served)
      exact .inl ⟨rfl, rfl⟩
  | store reference value =>
      obtain ⟨_, rfl⟩ := Prod.mk.inj (Option.some.inj served)
      refine .inr ⟨reference.key, rfl, ?_⟩
      rcases undisturbed with ⟨current, rfl⟩ | unused
      · exact .inl ⟨decide_eq_true current, adds_store current⟩
      · exact .inr ⟨decide_eq_false (ElementTable.not_current_of_unused unused),
          ElementTable.contents_write_of_unused unused value⟩
  | insert key place =>
      rw [Access.counted, served]
      rcases serve_insert_cases served with ⟨rfl, adds⟩ | ⟨⟨code, rfl⟩, same⟩
      · exact .inr ⟨key, rfl, .inl ⟨rfl, adds⟩⟩
      · exact .inl ⟨rfl, same⟩

/-! The keys of a sample. -/

def Access.Inserts (Fine : KeyT → Prop) : Access → Prop
  | .insert key _ => Fine key
  | .find _ | .load _ | .store .. => True

theorem uses_rexProg1 {Fine : KeyT → Prop} {sample : Sample}
    (fine : ∀ key, sampleKey sample = .ok (some key) → Fine key) :
    (Code.rexProg1 sample).Uses (Access.Inserts Fine) := by
  rw [Code.rexProg1]
  cases taken : sampleKey sample with
  | error stop => trivial
  | ok found =>
      cases found with
      | none => trivial
      | some key =>
          refine .bind (uses_request trivial) fun known => ?_
          cases known with
          | none =>
              refine .bind (uses_request (fine key taken)) fun inserted => ?_
              exact .bind (uses_ofExcept _ _) fun _ => trivial
          | some reference =>
              refine .bind (uses_request trivial) fun value => ?_
              exact .bind (uses_request trivial) fun _ => trivial

theorem mem_keys_serve {Fine : KeyT → Prop} {counts next : CountTable} {element : Nat}
    {access : Access} {answer : access.Answer} (inserts : access.Inserts Fine)
    (served : serve element access counts = some (answer, next)) {key : KeyT}
    (member : key ∈ next.contents.keys) : key ∈ counts.contents.keys ∨ Fine key := by
  cases access with
  | find other =>
      obtain ⟨_, rfl⟩ := Prod.mk.inj (Option.some.inj served)
      exact .inl member
  | load reference =>
      obtain ⟨_, rfl⟩ := Prod.mk.inj (Option.some.inj served)
      exact .inl member
  | store reference value =>
      obtain ⟨_, rfl⟩ := Prod.mk.inj (Option.some.inj served)
      left
      rwa [ElementTable.keys_contents, ElementTable.keys_write,
        ← ElementTable.keys_contents] at member
  | insert other place =>
      rcases serve_insert_cases served with ⟨_, adds⟩ | ⟨_, same⟩
      · rw [← HashTable.isSome_lookup_iff, adds.lookup] at member
        by_cases own : key = other
        · subst own
          exact .inr inserts
        · rw [Function.update_of_ne own, HashTable.isSome_lookup_iff] at member
          exact .inl member
      · exact .inl (same ▸ member)

end Rex.TraceEvent
