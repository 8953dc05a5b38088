import Rex.Syscount.Accesses
import Rex.Syscount.Report

namespace Rex.Syscount

open Calls Machine

/-! The loader walks over the counts while the programs go on.  Each of its
calls into the kernel is a step of its own, and so is each access of a program:
between two of them, those of the others may come. -/

inductive Phase
  | nextKey
  | count (id : UInt32)
  | errors (id : UInt32) (count : UInt64)
  | latency (id : UInt32) (count errors : UInt64)

def Phase.row : Phase → Option UInt32
  | .nextKey | .count _ => none
  | .errors id _ | .latency id _ _ => some id

/-- The key that was met last, as long as the walk is about it. -/
def Phase.met : Phase → Option UInt32
  | .nextKey => none
  | .count id | .errors id _ | .latency id _ _ => some id

structure Walk where
  host : Host Tables (Code Int32)
  key : UInt32
  phase : Phase
  stats : List Stat

inductive Action
  | trace (cpu : Nat) (event : Event)
  | advance (cpu element : Nat)
  | look

namespace Walk

def tables (walk : Walk) : Tables :=
  walk.host.shared

def start (host : Host Tables (Code Int32)) : Walk :=
  ⟨host, 0, .nextKey, []⟩

def look (opened : Opened) (walk : Walk) : Option Walk :=
  match walk.phase with
  | .nextKey =>
      ((walk.tables.maps.totals .counts).nextKey walk.key).map fun id =>
        { walk with phase := .count id }
  | .count id =>
      match (walk.tables.maps.totals .counts).lookup id with
      | some count => some { walk with phase := .errors id count }
      | none => some { walk with key := id, phase := .nextKey }
  | .errors id count =>
      some { walk with
        phase := .latency id count (readTotal walk.tables.maps opened.errors .errors id) }
  | .latency id count errors =>
      let latency := readTotal walk.tables.maps opened.latency .latency id
      some { walk with
        key := id
        phase := .nextKey
        stats := walk.stats ++ [⟨id, count, errors, latency⟩] }

def step (opened : Opened) (walk : Walk) : Action → Option Walk
  | .trace cpu event =>
      (walk.host.launch cpu event.code).map fun host => { walk with host }
  | .advance cpu element =>
      (walk.host.advance serve cpu element).map fun host => { walk with host }
  | .look => walk.look opened

def Done (walk : Walk) : Prop :=
  walk.phase = .nextKey ∧ (walk.tables.maps.totals .counts).nextKey walk.key = none

end Walk

/-! The programs add keys to the counts.  But for an update of a key that has been
added since it was looked up, the keys stay, and stay in order: such an update puts
the key in another place. -/

def Access.Overtaken (tables : Tables) : Access → Prop
  | .update .counts id _ _ => id ∈ (tables.totals .counts).keys
  | _ => False

theorem keys_setTotal {tables : Tables} {total : Total}
    {table : ElementTable UInt32 UInt64 512}
    (grown : total = .counts → (tables.totals .counts).keys.Sublist table.keys) :
    (tables.totals .counts).keys.Sublist
      ((tables.setTotal total table).totals .counts).keys := by
  by_cases same : Total.counts = total
  · subst same
    rw [Tables.totals_setTotal_self]
    exact grown rfl
  · rw [Tables.totals_setTotal_of_ne _ _ same]

theorem keys_serve {element : Nat} {access : Access} {tables next : Tables}
    {answer : access.Answer} (first : ¬ access.Overtaken tables)
    (served : serve element access tables = some (answer, next)) :
    (tables.totals .counts).keys.Sublist (next.totals .counts).keys := by
  cases access with
  | find total id =>
      obtain ⟨_, rfl⟩ := Prod.mk.inj (Option.some.inj served)
      exact .refl _
  | load total reference =>
      obtain ⟨_, rfl⟩ := Prod.mk.inj (Option.some.inj served)
      exact .refl _
  | store total reference value =>
      obtain ⟨_, rfl⟩ := Prod.mk.inj (Option.some.inj served)
      refine keys_setTotal fun same => ?_
      subst same
      rw [ElementTable.keys_write]
  | update total id value answer =>
      obtain ⟨⟨result, table⟩, tried, same⟩ := Option.map_eq_some_iff.mp served
      obtain ⟨_, rfl⟩ := Prod.mk.inj same
      refine keys_setTotal fun same => ?_
      subst same
      exact ElementTable.keys_sublist_tryUpdate first tried
  | findStart key =>
      obtain ⟨_, rfl⟩ := Prod.mk.inj (Option.some.inj served)
      exact .refl _
  | loadStart reference =>
      obtain ⟨_, rfl⟩ := Prod.mk.inj (Option.some.inj served)
      exact .refl _
  | updateStart key time answer =>
      obtain ⟨⟨result, table⟩, tried, same⟩ := Option.map_eq_some_iff.mp served
      obtain ⟨_, rfl⟩ := Prod.mk.inj same
      exact .refl _
  | deleteStart key permitted =>
      cases permitted with
      | error code =>
          obtain ⟨_, rfl⟩ := Prod.mk.inj (Option.some.inj served)
          exact .refl _
      | ok granted =>
          obtain ⟨_, rfl⟩ := Prod.mk.inj (Option.some.inj served)
          exact .refl _

namespace Walk

def counts (walk : Walk) : TotalMap :=
  walk.tables.maps.totals .counts

def reached (walk : Walk) : List UInt32 :=
  walk.stats.map Stat.id ++ walk.phase.met.toList

def current (walk : Walk) : UInt32 :=
  walk.phase.met.getD walk.key

structure Sound (wanted : List UInt32) (walk : Walk) : Prop where
  last : ∃ front, walk.reached = front ++ [walk.current]
  ordered : walk.reached.Sublist walk.counts.keys
  covered : ∀ id ∈ wanted, id ∈ walk.reached ∨ id ∈ walk.counts.keysAfter walk.current

variable {wanted : List UInt32} {walk next : Walk} {opened : Opened}

theorem Sound.member (sound : Sound wanted walk) : walk.current ∈ walk.counts.keys := by
  obtain ⟨front, split⟩ := sound.last
  apply sound.ordered.subset
  rw [split]
  exact List.mem_append_right _ List.mem_cons_self

/-- The next access of a processor, if it is in a program, is not overtaken. -/
def First (walk : Walk) : Action → Prop
  | .advance cpu _ =>
      match walk.host.running cpu with
      | .call access _ => ¬ access.Overtaken walk.tables
      | .done _ | .halt _ => True
  | .trace .. | .look => True

theorem Sound.of_grown {host : Host Tables (Code Int32)} (sound : Sound wanted walk)
    (grown : walk.counts.keys.Sublist (host.shared.maps.totals .counts).keys) :
    Sound wanted { walk with host } := by
  refine ⟨sound.last, sound.ordered.trans grown, fun id member => ?_⟩
  refine (sound.covered id member).imp_right fun follows => ?_
  exact (HashTable.keysAfter_sublist grown sound.member).subset follows

theorem mem_keysAfter_next {table : TotalMap} {key id other : UInt32}
    (follows : table.nextKey key = some id) (behind : other ∈ table.keysAfter key) :
    other = id ∨ other ∈ table.keysAfter id := by
  rw [HashTable.nextKey] at follows
  cases after : table.keysAfter key with
  | nil =>
      rw [after] at behind
      cases behind
  | cons first rest =>
      rw [after] at follows behind
      obtain rfl := Option.some.inj follows
      rw [HashTable.keysAfter_next after]
      exact List.mem_cons.mp behind

theorem Sound.of_same (sound : Sound wanted walk) (counts : next.counts = walk.counts)
    (reached : next.reached = walk.reached) (current : next.current = walk.current) :
    Sound wanted next := by
  refine ⟨?_, ?_, ?_⟩
  · rw [reached, current]
    exact sound.last
  · rw [reached, counts]
    exact sound.ordered
  · rw [reached, counts, current]
    exact sound.covered

theorem sound_next {host : Host Tables (Code Int32)} {key id : UInt32} {stats : List Stat}
    (sound : Sound wanted ⟨host, key, .nextKey, stats⟩)
    (follows : (host.shared.maps.totals .counts).nextKey key = some id) :
    Sound wanted ⟨host, key, .count id, stats⟩ := by
  obtain ⟨⟨front, split⟩, ordered, covered⟩ := sound
  simp only [reached, current, Phase.met, Option.toList_none, List.append_nil,
    Option.getD_none] at split ordered covered
  refine ⟨⟨_, rfl⟩, ?_, fun other wants => ?_⟩
  · show (stats.map Stat.id ++ [id]).Sublist _
    rw [split] at ordered ⊢
    exact HashTable.visited_sublist ordered follows
  · show other ∈ stats.map Stat.id ++ [id] ∨ _
    rw [List.mem_append, or_assoc]
    refine (covered other wants).imp_right fun behind => ?_
    exact (mem_keysAfter_next follows behind).imp_left List.mem_singleton.mpr

theorem sound_look (sound : Sound wanted walk) (looked : walk.look opened = some next) :
    Sound wanted next := by
  obtain ⟨host, key, phase, stats⟩ := walk
  cases phase with
  | nextKey =>
      obtain ⟨id, follows, rfl⟩ := Option.map_eq_some_iff.mp looked
      exact sound_next sound follows
  | count id =>
      -- the key has not left the table since it was met
      obtain ⟨count, found⟩ := Option.isSome_iff_exists.mp
        (HashTable.isSome_lookup_iff.mpr sound.member)
      have known : (host.shared.maps.totals .counts).lookup id = some count := found
      rw [look] at looked
      simp only [tables, known] at looked
      obtain rfl := Option.some.inj looked
      exact sound.of_same rfl rfl rfl
  | errors id count =>
      obtain rfl := Option.some.inj looked
      exact sound.of_same rfl rfl rfl
  | latency id count errors =>
      obtain rfl := Option.some.inj looked
      refine sound.of_same rfl ?_ rfl
      simp [reached, Phase.met]

theorem sound_step {action : Action} (sound : Sound wanted walk)
    (first : walk.First action) (taken : walk.step opened action = some next) :
    Sound wanted next := by
  cases action with
  | trace cpu event =>
      obtain ⟨host, launched, rfl⟩ := Option.map_eq_some_iff.mp taken
      obtain rfl := Host.launch_eq_some launched
      exact sound.of_grown (.refl _)
  | advance cpu element =>
      obtain ⟨host, advanced, rfl⟩ := Option.map_eq_some_iff.mp taken
      obtain ⟨access, rest, answer, tables, running, served, rfl⟩ :=
        Host.advance_eq_some advanced
      simp only [First, running] at first
      apply sound.of_grown
      have grown := keys_serve first served
      rwa [← ElementTable.keys_contents, ← ElementTable.keys_contents] at grown
  | look => exact sound_look sound taken

theorem sound_run {host : Host Tables (Code Int32)} {schedule : List Action}
    (first : EveryStep (step opened) First (start host) (.look :: schedule))
    (run : exec (step opened) (start host) (.look :: schedule) = some walk) :
    Sound ((host.shared.maps.totals .counts).keysAfter 0) walk := by
  obtain ⟨begun, looked, remaining⟩ := exec_cons_eq_some.mp run
  simp only [EveryStep, looked] at first
  obtain ⟨id, follows, rfl⟩ := Option.map_eq_some_iff.mp looked
  refine exec_invariant_of_everyStep (Sound _) sound_step
    ⟨⟨[], rfl⟩, ?_, fun other wants => ?_⟩ first.2 remaining
  · have member : id ∈ (host.shared.maps.totals .counts).keys :=
      ((host.shared.maps.totals .counts).keysAfter_suffix 0).subset
        (List.mem_of_head? follows)
    exact List.singleton_sublist.mpr member
  · exact (mem_keysAfter_next follows wants).imp_left List.mem_singleton.mpr

end Walk

/-! A program that nothing interrupts is the whole one, and a walk that nothing
interrupts is the loop of the report. -/

theorem Walk.trace_alone (opened : Opened) (walk : Walk) {cpu : Nat}
    (idle : (walk.host.running cpu).finished = true) (event : Event) :
    ∃ (elements : List Nat) (tables : Tables),
      exec (step opened) walk (.trace cpu event :: elements.map (.advance cpu)) =
        some { walk with
          host := walk.host.put cpu (ofExcept (event.program.run walk.tables.maps).1)
            tables } ∧
      tables.maps = (event.program.run walk.tables.maps).2 := by
  obtain ⟨elements, tables, run, ended⟩ := ends_program walk.tables event
  refine ⟨elements, tables, ?_, ended⟩
  refine exec_cons_eq_some.mpr ⟨{ walk with
    host := walk.host.put cpu event.code walk.tables }, ?_, ?_⟩
  · rw [step, Host.launch, if_pos idle]
    rfl
  · refine Host.exec_alone (fun host => { walk with host }) ?_ run
    exact fun _ _ => rfl

theorem Walk.look_key {opened : Opened} {host : Host Tables (Code Int32)}
    {key next : UInt32} {rest : List UInt32} {stats : List Stat} (actions : List Action)
    (after : (host.shared.maps.totals .counts).keysAfter key = next :: rest) :
    exec (step opened) ⟨host, key, .nextKey, stats⟩
        (.look :: .look :: .look :: .look :: actions) =
      exec (step opened)
        ⟨host, next, .nextKey, stats ++ [rowOf host.shared.maps opened next]⟩ actions := by
  have follows : (host.shared.maps.totals .counts).nextKey key = some next := by
    rw [HashTable.nextKey, after]
    rfl
  have member : next ∈ (host.shared.maps.totals .counts).keys :=
    ((host.shared.maps.totals .counts).keysAfter_suffix key).subset
      (after ▸ List.mem_cons_self)
  obtain ⟨count, found⟩ := Option.isSome_iff_exists.mp
    (HashTable.isSome_lookup_iff.mpr member)
  simp only [exec, step, look, tables, follows, found, Option.map_some, Option.bind_some,
    rowOf, statOf, Option.getD_some]

theorem walk_alone (opened : Opened) (host : Host Tables (Code Int32)) :
    ∃ looks walk,
      exec (Walk.step opened) (.start host) (List.replicate looks .look) = some walk ∧
        walk.Done ∧ walk.stats = collect host.shared.maps opened (512 + 1) 0 := by
  rw [collect_zero]
  suffices goes : ∀ rest key stats,
      (host.shared.maps.totals .counts).keysAfter key = rest →
      ∃ looks walk, exec (Walk.step opened) ⟨host, key, .nextKey, stats⟩
          (List.replicate looks .look) = some walk ∧
        walk.Done ∧ walk.stats = stats ++ rest.map (rowOf host.shared.maps opened) by
    exact goes _ 0 [] rfl
  intro rest
  induction rest with
  | nil =>
      intro key stats after
      refine ⟨0, _, rfl, ⟨rfl, ?_⟩, (List.append_nil _).symm⟩
      show (host.shared.maps.totals .counts).nextKey key = none
      rw [HashTable.nextKey, after]
      rfl
  | cons next rest induction =>
      intro key stats after
      obtain ⟨looks, walk, ran, done, rows⟩ := induction next
        (stats ++ [rowOf host.shared.maps opened next]) (HashTable.keysAfter_next after)
      refine ⟨looks + 4, walk, ?_, done, ?_⟩
      · exact (Walk.look_key _ after).trans ran
      · rw [rows, List.append_assoc]
        rfl

/-- Whatever the processors are at when the loader begins, and whatever they trace
while it walks: as long as no update of the counts is overtaken, it never writes
behind the 512 rows of its array, no system call gets two rows, and when the walk is
over every system call has one that stood behind 0 in the table when the walk
began. -/
theorem walk_under_tracing {opened : Opened} {host : Host Tables (Code Int32)}
    {schedule : List Action} {walk : Walk}
    (first : EveryStep (Walk.step opened) Walk.First (.start host) (.look :: schedule))
    (run : exec (Walk.step opened) (.start host) (.look :: schedule) = some walk) :
    (∀ id, walk.phase.row = some id → walk.stats.length < 512) ∧
    walk.stats.length ≤ 512 ∧ (walk.stats.map Stat.id).Nodup ∧
    (walk.Done → ∀ id ∈ (host.shared.maps.totals .counts).keysAfter 0,
      id ∈ walk.stats.map Stat.id) := by
  have sound := Walk.sound_run first run
  have fits := sound.ordered.length_le.trans walk.counts.length_keys
  rw [Walk.reached, List.length_append, List.length_map] at fits
  refine ⟨fun id row => ?_, by omega, ?_, ?_⟩
  · have met : walk.phase.met = some id := by
      cases phase : walk.phase with
      | nextKey => rw [phase] at row; cases row
      | count other => rw [phase] at row; cases row
      | errors other count => rw [phase] at row; exact row
      | latency other count errors => rw [phase] at row; exact row
    rw [met] at fits
    exact fits
  · exact walk.counts.nodup.sublist ((List.sublist_append_left _ _).trans sound.ordered)
  · rintro ⟨phase, ended⟩ id wants
    have met : walk.phase.met = none := by rw [phase]; rfl
    have here : walk.current = walk.key := by rw [Walk.current, met]; rfl
    have nothing : walk.counts.keysAfter walk.current = [] := by
      rw [here]
      exact List.head?_eq_none_iff.mp ended
    rcases sound.covered id wants with reached | behind
    · rw [Walk.reached, met] at reached
      exact (List.append_nil (walk.stats.map Stat.id)) ▸ reached
    · rw [nothing] at behind
      cases behind

def idleHost : Host Tables (Code Int32) :=
  ⟨.empty, fun _ => .done 0⟩

def traced (cpu : Nat) (event : Event) : List Action :=
  [.trace cpu event, .advance cpu 0, .advance cpu 0, .advance cpu 0]

/-- A second system call is traced for the first time in the middle of a row. -/
def interrupted : List Action :=
  [.look, .trace 1 (.enter 2 (.at 8 12)), .advance 1 0, .look, .advance 1 5, .look,
    .advance 1 5, .look]

theorem walk_under_tracing_interrupted :
    ∃ before walk,
      exec (Walk.step ⟨true, true⟩) (.start idleHost) (traced 0 (.enter 1 (.at 7 10))) =
        some before ∧
      exec (Walk.step ⟨true, true⟩) (.start before.host) interrupted = some walk ∧
      walk.Done ∧ (walk.tables.maps.totals .counts).lookup 2 = some 1 ∧
      1 ∈ walk.stats.map Stat.id ∧ walk.stats.length ≤ 512 := by
  obtain ⟨before, ran, begins, first, walk, looked, done, added⟩ : ∃ before,
      exec (Walk.step ⟨true, true⟩) (.start idleHost) (traced 0 (.enter 1 (.at 7 10))) =
        some before ∧
      1 ∈ (before.host.shared.maps.totals .counts).keysAfter 0 ∧
      EveryStep (Walk.step ⟨true, true⟩) Walk.First (.start before.host) interrupted ∧
      ∃ walk, exec (Walk.step ⟨true, true⟩) (.start before.host) interrupted = some walk ∧
        walk.Done ∧ (walk.tables.maps.totals .counts).lookup 2 = some 1 :=
    ⟨_, rfl, by decide +kernel,
      ⟨trivial, trivial, id, trivial, (show ¬ (2 : UInt32) ∈ [1] by decide), trivial, id,
        trivial, trivial⟩,
      _, rfl, ⟨rfl, by decide +kernel⟩, by decide +kernel⟩
  obtain ⟨_, fits, _, all⟩ := walk_under_tracing first looked
  exact ⟨before, walk, ran, looked, done, added, all done 1 begins, fits⟩

-- Without the condition a system call may be met twice: two processors trace it for the
-- first time, and the second update puts it behind what the loader has met in between.
example :
    (exec (Walk.step ⟨false, false⟩) (.start idleHost)
      (traced 0 (.enter 2 (.at 7 10)) ++
        [.trace 0 (.enter 1 (.at 7 11)),
          .trace 1 (.enter 1 { Kernel.at 8 12 with onTotal := fun _ => .ok 1 }),
          .advance 0 0, .advance 1 0, .advance 0 1] ++
        List.replicate 8 .look ++ .advance 1 2 :: List.replicate 4 .look)).map
      (fun walk => walk.stats.map Stat.id) = some [1, 2, 1] := by
  decide +kernel

end Rex.Syscount
