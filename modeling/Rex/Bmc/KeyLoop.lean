import Mathlib.Data.Nat.Find
import Rex.Bmc.Freshness

namespace Rex.Bmc

open Bytes Effect Program Rex.Frame Machine

/-! How long the key loop runs.  Every iteration looks at the first key again:
`read_pkt_offset` moves on, but only the length of the window depends on it. -/

def firstKey (frame : Frame) : List UInt8 :=
  (frame.drop (keyOffset frame)).takeWhile isKeyByte

def SpaceFollows (frame : Frame) : Prop :=
  firstKey frame ≠ [] ∧
    (frame.drop (keyOffset frame))[(firstKey frame).length]? = some space

/-- `read_pkt_offset` in the given iteration: a byte. -/
def readOffset (frame : Frame) (turn : Nat) : Nat :=
  (keyOffset frame + turn * ((firstKey frame).length + 1)) % 256

/-- In the given iteration, the window is in range and has the byte after the
key. -/
def ReadsAt (frame : Frame) (turn : Nat) : Prop :=
  readOffset frame turn ≤ frame.length ∧
    (firstKey frame).length <
      min (maxKeyLength + 1) (frame.length - readOffset frame turn) ∧
    min (maxKeyLength + 1) (frame.length - readOffset frame turn) ≤
      frame.length - keyOffset frame

/-- The given iteration is followed by another one. -/
def GoesOn (cache : MapKcache) (frame : Frame) (turn : Nat) : Prop :=
  SpaceFollows frame ∧ ReadsAt frame turn ∧
    (cache.Matches (firstKey frame) → turn < maxKeyInPacket)

instance (frame : Frame) : Decidable (SpaceFollows frame) :=
  inferInstanceAs (Decidable (_ ∧ _))

instance (frame : Frame) (turn : Nat) : Decidable (ReadsAt frame turn) :=
  inferInstanceAs (Decidable (_ ∧ _ ∧ _))

instance (cache : MapKcache) (frame : Frame) (turn : Nat) :
    Decidable (GoesOn cache frame turn) :=
  inferInstanceAs (Decidable (_ ∧ _ ∧ (_ → _)))

/-- The context with which the given iteration starts. -/
def turnContext (cache : MapKcache) (frame : Frame) (turn : Nat) :
    ParsingContext :=
  ⟨if cache.Matches (firstKey frame) then turn else 0, 0,
    UInt8.ofNat (keyOffset frame + turn * ((firstKey frame).length + 1))⟩

theorem turnContext_zero (cache : MapKcache) (frame : Frame) :
    turnContext cache frame 0 = ⟨0, 0, UInt8.ofNat (keyOffset frame)⟩ := by
  simp [turnContext]

theorem turnContext_succ (cache : MapKcache) (frame : Frame) (turn : Nat) :
    turnContext cache frame (turn + 1) =
      { turnContext cache frame turn with
        keyCount := if cache.Matches (firstKey frame) then
          (turnContext cache frame turn).keyCount + 1
        else (turnContext cache frame turn).keyCount
        readPktOffset := (turnContext cache frame turn).readPktOffset +
          (UInt8.ofNat (firstKey frame).length + 1) } := by
  have offset : UInt8.ofNat
        (keyOffset frame + (turn + 1) * ((firstKey frame).length + 1)) =
      UInt8.ofNat (keyOffset frame + turn * ((firstKey frame).length + 1)) +
        (UInt8.ofNat (firstKey frame).length + 1) := by
    rw [Nat.succ_mul, ← Nat.add_assoc, UInt8.ofNat_add,
      UInt8.ofNat_add (firstKey frame).length]
    rfl
  simp only [turnContext, offset]
  split
  · rfl
  · rfl

theorem readOffset_turnContext (cache : MapKcache) (frame : Frame) (turn : Nat) :
    (turnContext cache frame turn).readPktOffset.toNat = readOffset frame turn :=
  rfl

theorem windowLen_of_le {dataLength : Nat} {readPktOffset : UInt8}
    (inFrame : readPktOffset.toNat ≤ dataLength) :
    windowLen dataLength readPktOffset =
      min (maxKeyLength + 1) (dataLength - readPktOffset.toNat) := by
  rw [windowLen, wrappingSub, if_pos inFrame]

/-- The subtraction that gives the window's length has wrapped around. -/
theorem windowLen_of_lt {dataLength : Nat} {readPktOffset : UInt8}
    (beyond : dataLength < readPktOffset.toNat) :
    windowLen dataLength readPktOffset = maxKeyLength + 1 := by
  have byte := readPktOffset.toNat_lt
  have limit : maxKeyLength = 230 := rfl
  rw [windowLen, wrappingSub, if_neg (by omega), limit]
  omega

theorem IsGet.readsAt_iff {frame : Frame} (get : IsGet frame) (cache : MapKcache)
    (turn : Nat) :
    ReadsAt frame turn ↔
      windowLen frame.length (turnContext cache frame turn).readPktOffset ≤
          (frame.drop (keyOffset frame)).length ∧
        (firstKey frame).length <
          windowLen frame.length (turnContext cache frame turn).readPktOffset := by
  obtain ⟨lower, upper⟩ := get.keyOffset_bounds
  have offset := readOffset_turnContext cache frame turn
  have byte : readOffset frame turn < 256 := Nat.mod_lt _ (by decide)
  have header : udpHeaderLen = 50 := rfl
  have limit : maxKeyLength = 230 := rfl
  rw [List.length_drop, ReadsAt]
  by_cases inFrame : readOffset frame turn ≤ frame.length
  · rw [windowLen_of_le (offset ▸ inFrame), offset]
    exact ⟨fun reads => ⟨reads.2.2, reads.2.1⟩,
      fun reads => ⟨inFrame, reads.2, reads.1⟩⟩
  · -- a window of full length is longer than what such a frame has left
    rw [windowLen_of_lt (offset ▸ Nat.lt_of_not_le inFrame)]
    omega

theorem scan_eq_none_iff {dataLength : Nat} {payload : List UInt8}
    {readPktOffset : UInt8} :
    scan dataLength payload readPktOffset = none ↔
      ¬ (windowLen dataLength readPktOffset ≤ payload.length ∧
        (payload.takeWhile isKeyByte).length <
          windowLen dataLength readPktOffset) := by
  cases scanned : scan dataLength payload readPktOffset with
  | none =>
      refine iff_of_true rfl ?_
      rintro ⟨inRange, reaches⟩
      have found := List.getElem?_eq_getElem (reaches.trans_le inRange)
      rw [scan_of_token (Token.of_takeWhile found) reaches inRange] at scanned
      cases scanned
  | some found =>
      obtain ⟨name, delimiter⟩ := found
      refine iff_of_false (Option.some_ne_none _) (not_not_intro ?_)
      rw [(scan_eq_some scanned).1.takeWhile_eq]
      simp only [scan, slice, Option.bind_eq_bind, Option.bind_eq_some_iff,
        Option.ite_none_right_eq_some, Option.some.injEq, Prod.mk.injEq] at scanned
      obtain ⟨_, ⟨⟨_, inRange⟩, rfl⟩, byte, found, rfl, rfl⟩ := scanned
      obtain ⟨inWindow, _⟩ := List.getElem?_eq_some_iff.mp found
      refine ⟨inRange, inWindow.trans_le ?_⟩
      rw [field, List.length_take]
      omega

def State.iterations (state : State) : Nat :=
  state.notes.count .iteration

theorem iterations_note_iteration (state : State) :
    (state.note .iteration).iterations = state.iterations + 1 := by
  simp [State.iterations]

theorem iterations_note (state : State) {entry : Note}
    (other : entry ≠ .iteration) :
    (state.note entry).iterations = state.iterations := by
  simp [State.iterations, other]

theorem iterations_parsed (state : State) (name : List UInt8)
    (keyRef : Fin maxKeyInPacket) (stats : Fin 1) :
    (state.parsed name keyRef stats).iterations = state.iterations + 1 := by
  simp [State.iterations]

theorem apart_iterations : Apart State.iterations :=
  ⟨fun _ _ => rfl, fun _ _ _ => rfl,
    fun state _ _ => iterations_note state Note.noConfusion⟩

theorem contained_reply (kernel : Kernel) (payloadIndex : Nat)
    (pctx : ParsingContext) (stats : Fin 1) :
    Contained Ends State.iterations
      (if 0 < pctx.keyCount then do
        swapHeaders
        writePktReply kernel payloadIndex pctx stats
      else
        pure xdpPass) := by
  apply Contained.ite
  · apply apart_iterations.swapHeaders.bind
    intro _
    exact apart_iterations.writePktReply
      (fun state _ other => iterations_note state other) kernel payloadIndex pctx
      stats
  · exact contained_pure _

structure AtTurn (start : State) (turn : Nat) (state : State) : Prop where
  frame : state.dataSlice = start.dataSlice
  cache : state.mapKcache = start.mapKcache
  iterations : state.iterations = start.iterations + turn

section Turns

variable (kernel : Kernel) (stats : Fin 1) {start state : State} {turn : Nat}

def loopFrom (kernel : Kernel) (stats : Fin 1) (start : State) (fuel turn : Nat) :
    Program Int32 :=
  keyLoop kernel (start.dataSlice.drop (keyOffset start.dataSlice))
    (keyOffset start.dataSlice) stats fuel
    (turnContext start.mapKcache start.dataSlice turn)

theorem SpaceFollows.token {frame : Frame} (follows : SpaceFollows frame) :
    Token isKeyByte (frame.drop (keyOffset frame)) (firstKey frame) space :=
  Token.of_takeWhile follows.2

theorem AtTurn.scan_eq_none_iff (atTurn : AtTurn start turn state)
    (get : IsGet start.dataSlice) :
    scan state.dataSlice.length
        (start.dataSlice.drop (keyOffset start.dataSlice))
        (turnContext start.mapKcache start.dataSlice turn).readPktOffset = none ↔
      ¬ ReadsAt start.dataSlice turn := by
  rw [atTurn.frame, Bmc.scan_eq_none_iff,
    get.readsAt_iff start.mapKcache turn]
  rfl

theorem keyCount_turnContext_lt {cache : MapKcache} {frame : Frame} :
    (turnContext cache frame turn).keyCount < maxKeyInPacket ↔
      (cache.Matches (firstKey frame) → turn < maxKeyInPacket) := by
  have first : 0 < maxKeyInPacket := by decide
  by_cases present : cache.Matches (firstKey frame)
  · simp only [turnContext, if_pos present]
    exact ⟨fun room _ => room, fun room => room present⟩
  · simp only [turnContext, if_neg present]
    exact ⟨fun _ found => absurd found present, fun _ => first⟩

theorem AtTurn.next (atTurn : AtTurn start turn state)
    (get : IsGet start.dataSlice)
    (goesOn : GoesOn start.mapKcache start.dataSlice turn) (fuel : Nat) :
    ∃ later, (loopFrom kernel stats start (fuel + 1) turn).run state =
        (loopFrom kernel stats start fuel (turn + 1)).run later ∧
      AtTurn start (turn + 1) later := by
  obtain ⟨follows, reads, room⟩ := goesOn
  have room := keyCount_turnContext_lt.mpr room
  cases scanned : scan state.dataSlice.length
      (start.dataSlice.drop (keyOffset start.dataSlice))
      (turnContext start.mapKcache start.dataSlice turn).readPktOffset with
  | none => exact absurd reads ((atTurn.scan_eq_none_iff get).mp scanned)
  | some found =>
      obtain ⟨name, delimiter⟩ := found
      obtain ⟨rfl, rfl⟩ := follows.token.unique (scan_eq_some scanned).1
      refine ⟨state.parsed (firstKey start.dataSlice) ⟨_, room⟩ stats, ?_, ?_⟩
      · rw [loopFrom, run_keyLoop_name _ _ _ _ room scanned follows.1]
        simp only [if_neg (show space ≠ carriageReturn by decide)]
        rw [loopFrom, turnContext_succ, atTurn.cache]
      · refine ⟨?_, ?_, ?_⟩
        · rw [State.dataSlice_parsed, atTurn.frame]
        · rw [State.mapKcache_parsed, atTurn.cache]
        · rw [iterations_parsed, atTurn.iterations, Nat.add_assoc]

theorem run_turns (get : IsGet start.dataSlice) {turns : Nat}
    (goesOn : ∀ turn < turns, GoesOn start.mapKcache start.dataSlice turn)
    (fuel : Nat) :
    ∃ later, (loopFrom kernel stats start (fuel + turns) 0).run start =
        (loopFrom kernel stats start fuel turns).run later ∧
      AtTurn start turns later := by
  induction turns generalizing fuel with
  | zero => exact ⟨start, rfl, rfl, rfl, rfl⟩
  | succ turns induction =>
      obtain ⟨middle, ran, atTurn⟩ := induction
        (fun turn before => goesOn turn (Nat.lt_succ_of_lt before)) (fuel + 1)
      obtain ⟨later, next, atNext⟩ := atTurn.next kernel stats get
        (goesOn turns (Nat.lt_succ_self turns)) fuel
      refine ⟨later, ?_, atNext⟩
      rw [← Nat.add_assoc, Nat.add_right_comm, ran, next]

theorem AtTurn.stop (atTurn : AtTurn start turn state)
    (get : IsGet start.dataSlice)
    (stops : ¬ GoesOn start.mapKcache start.dataSlice turn) (fuel : Nat) :
    let ran := (loopFrom kernel stats start (fuel + 1) turn).run state
    ran.1 ≠ .error .unfinished ∧
      ran.2.iterations = start.iterations + (turn + 1) := by
  have count : state.iterations + 1 = start.iterations + (turn + 1) := by
    rw [atTurn.iterations, Nat.add_assoc]
  rw [loopFrom]
  by_cases room : (turnContext start.mapKcache start.dataSlice turn).keyCount <
      maxKeyInPacket
  · cases scanned : scan state.dataSlice.length
        (start.dataSlice.drop (keyOffset start.dataSlice))
        (turnContext start.mapKcache start.dataSlice turn).readPktOffset with
    | none =>
        obtain ⟨key, ran⟩ := run_keyLoop_panic kernel
          (keyOffset start.dataSlice) stats fuel room scanned
        rw [ran]
        exact ⟨nofun, (iterations_note_iteration state).trans count⟩
    | some found =>
        obtain ⟨name, delimiter⟩ := found
        have token := (scan_eq_some scanned).1
        by_cases nonempty : name = []
        · subst nonempty
          obtain ⟨key, ran⟩ := run_keyLoop_empty kernel
            (keyOffset start.dataSlice) stats fuel room scanned
          rw [ran]
          exact ⟨nofun, (iterations_note_iteration state).trans count⟩
        · rw [run_keyLoop_name _ _ _ _ room scanned nonempty]
          rcases delimiter_cases token with rfl | rfl
          · have reply := contained_reply kernel (keyOffset start.dataSlice)
              { turnContext start.mapKcache start.dataSlice turn with
                keyCount := if state.mapKcache.Matches name then
                  (turnContext start.mapKcache start.dataSlice turn).keyCount + 1
                else (turnContext start.mapKcache start.dataSlice turn).keyCount }
              stats
            simp only [if_true]
            refine ⟨fun cut => reply.stops _ _ cut rfl, ?_⟩
            rw [reply.keeps, iterations_parsed, count]
          · -- the loop would go on
            have key : firstKey start.dataSlice = name := token.takeWhile_eq
            refine absurd ⟨⟨?_, ?_⟩, ?_, ?_⟩ stops
            · rwa [key]
            · rw [key, token.getElem?_eq]
            · by_contra unread
              rw [(atTurn.scan_eq_none_iff get).mpr unread] at scanned
              cases scanned
            · exact keyCount_turnContext_lt.mp room
  · rw [run_keyLoop_full _ _ _ _ (Nat.le_of_not_lt room)]
    exact ⟨nofun, (iterations_note_iteration state).trans count⟩

end Turns

theorem first_stop {cache : MapKcache} {frame : Frame} {bound : Nat}
    (stops : ∃ turn < bound, ¬ GoesOn cache frame turn) :
    ∃ last < bound, ¬ GoesOn cache frame last ∧
      ∀ turn < last, GoesOn cache frame turn := by
  obtain ⟨below, stop⟩ := Nat.find_spec stops
  refine ⟨Nat.find stops, below, stop, ?_⟩
  intro turn before
  by_contra stopped
  exact Nat.find_min stops before ⟨before.trans below, stopped⟩

section Filter

variable (kernel : Kernel) {state : State}

def State.asked (state : State) : State :=
  state.bump ⟨0, Nat.one_pos⟩ fun stats =>
    { stats with getRecvCount := stats.getRecvCount + 1 }

theorem IsGet.run_eq (get : IsGet state.dataSlice) (fuel : Nat) :
    (xdpRxFilter kernel fuel).run state =
      (loopFrom kernel 0 state.asked fuel 0).run state.asked := by
  rw [run_xdpRxFilter_get kernel fuel get, loopFrom, turnContext_zero]
  rfl

theorem IsGet.unfinished (get : IsGet state.dataSlice) {fuel : Nat}
    (goesOn : ∀ turn < fuel, GoesOn state.mapKcache state.dataSlice turn) :
    ((xdpRxFilter kernel fuel).run state).1 = .error .unfinished := by
  have asked : IsGet state.asked.dataSlice := get
  obtain ⟨later, ran, _⟩ := run_turns kernel 0 asked goesOn 0
  rw [Nat.zero_add] at ran
  rw [get.run_eq, ran]
  rfl

theorem IsGet.finished (get : IsGet state.dataSlice) {fuel last : Nat}
    (goesOn : ∀ turn < last, GoesOn state.mapKcache state.dataSlice turn)
    (stops : ¬ GoesOn state.mapKcache state.dataSlice last) (enough : last < fuel) :
    ((xdpRxFilter kernel fuel).run state).1 ≠ .error .unfinished ∧
      ((xdpRxFilter kernel fuel).run state).2.iterations =
        state.iterations + (last + 1) := by
  obtain ⟨rest, rfl⟩ : ∃ rest, fuel = rest + 1 + last := ⟨fuel - 1 - last, by omega⟩
  have asked : IsGet state.asked.dataSlice := get
  obtain ⟨later, ran, atTurn⟩ := run_turns kernel 0 asked goesOn (rest + 1)
  rw [get.run_eq, ran]
  exact atTurn.stop kernel 0 asked stops rest

def EndsWithin (kernel : Kernel) (state : State) (bound : Nat) : Prop :=
  ∃ fuel, ((xdpRxFilter kernel fuel).run state).1 ≠ .error .unfinished ∧
    ((xdpRxFilter kernel fuel).run state).2.iterations ≤ state.iterations + bound

theorem IsGet.endsWithin_iff (get : IsGet state.dataSlice) (bound : Nat) :
    EndsWithin kernel state bound ↔
      ∃ turn < bound, ¬ GoesOn state.mapKcache state.dataSlice turn := by
  constructor
  · rintro ⟨fuel, ended, few⟩
    by_cases stops : ∃ turn < fuel, ¬ GoesOn state.mapKcache state.dataSlice turn
    · obtain ⟨last, enough, stop, least⟩ := first_stop stops
      have count := (get.finished kernel least stop enough).2
      exact ⟨last, by omega, stop⟩
    · simp only [not_exists, not_and, not_not] at stops
      exact absurd (get.unfinished kernel stops) ended
  · intro stops
    obtain ⟨last, below, stop, least⟩ := first_stop stops
    obtain ⟨ended, count⟩ :=
      get.finished kernel least stop (Nat.lt_add_one last)
    exact ⟨last + 1, ended, by omega⟩

end Filter

def requestLine (frame : Frame) : List UInt8 :=
  (frame.drop (keyOffset frame)).takeWhile (· != carriageReturn)

def requestKeys (frame : Frame) : List (List UInt8) :=
  ((requestLine frame).splitOn space).filter (· ≠ [])

theorem key_loop_ends_iff (kernel : Kernel) {state : State}
    (get : IsGet state.dataSlice) :
    EndsWithin kernel state (requestKeys state.dataSlice).length ↔
      ∃ turn < (requestKeys state.dataSlice).length,
        ¬ GoesOn state.mapKcache state.dataSlice turn :=
  get.endsWithin_iff kernel _

/-- A request for `aaaa` and `b`.  The second window is too short for a key of four
bytes. -/
def shortSecondFrame : Frame :=
  getFrame [97, 97, 97, 97, 32, 98, 13, 10]

theorem key_loop_ends_iff_two :
    (requestKeys shortSecondFrame).length = 2 ∧
      GoesOn World.zero.mapKcache shortSecondFrame 0 ∧
      EndsWithin willing (World.zero.start 0 shortSecondFrame)
        (requestKeys shortSecondFrame).length :=
  ⟨by decide +kernel, by decide +kernel, (key_loop_ends_iff willing
    ⟨by decide +kernel, by decide +kernel, by decide +kernel⟩).mpr
    ⟨1, by decide +kernel, by decide +kernel⟩⟩

def twoKeyFrame : Frame :=
  getFrame ([97, 32, 98, 13, 10] ++ List.replicate 453 0)

theorem goesOn_twoKeyFrame (turn : Nat) :
    GoesOn (fun _ => .zero) twoKeyFrame turn := by
  have offset : keyOffset twoKeyFrame = 54 := by decide +kernel
  have key : (firstKey twoKeyFrame).length = 1 := by decide +kernel
  have length : twoKeyFrame.length = 512 := by decide +kernel
  have byte : readOffset twoKeyFrame turn < 256 := Nat.mod_lt _ (by decide)
  have limit : maxKeyLength = 230 := rfl
  refine ⟨by decide +kernel, ⟨?_, ?_, ?_⟩, fun present => ?_⟩
  · omega
  · omega
  · omega
  · exact absurd present (by decide +kernel)

/-- With an empty cache, that request keeps the loop running for ever. -/
theorem key_loop_never_ends :
    ∃ state : State, IsGet state.dataSlice ∧
      requestKeys state.dataSlice = [[97], [98]] ∧
      ∀ kernel bound, ¬ EndsWithin kernel state bound := by
  have get : IsGet twoKeyFrame :=
    ⟨by decide +kernel, by decide +kernel, by decide +kernel⟩
  refine ⟨World.zero.start 0 twoKeyFrame, get, by decide +kernel, ?_⟩
  intro kernel bound ends
  obtain ⟨turn, _, stops⟩ := (IsGet.endsWithin_iff kernel get bound).mp ends
  exact stops (goesOn_twoKeyFrame turn)

/-! What the loop reads out of range.  A panic is always one of the loop's own:
the reply does not panic with the entries that the cache can have. -/

def Unpanicked (result : Except Stop Int32) : Prop :=
  ∀ reason, result ≠ .error (.panic reason)

theorem unpanicked_ok (code : Int32) : Unpanicked (.ok code) := by
  intro reason same
  cases same

theorem unpanicked_err (code : Int32) : Unpanicked (.error (.err code)) := by
  intro reason same
  cases same

section Panic

variable (kernel : Kernel) (stats : Fin 1) {start state : State} {turn : Nat}

theorem unpanicked_copyCacheData {payloadIndex : Nat} {slot : Slot}
    (inPayload : headersLen + 4 ≤ payloadIndex)
    (fits : (state.mapKcache slot).len ≤ maxPacketLength) :
    Unpanicked ((copyCacheData kernel payloadIndex slot).run state).1 := by
  cases refuses : kernel.refusesTail with
  | false =>
      obtain ⟨final, _, ran, _⟩ := run_copyCacheData kernel refuses inPayload fits
      rw [ran]
      exact unpanicked_ok _
  | true =>
      have none : ∀ offset, state.dataSlice.adjustTail true kernel.fill offset =
          none := fun offset => if_pos (.inl rfl)
      simp only [copyCacheData, lookupStats, bpfMapLookupElem_eq_some Nat.one_pos,
        demand_some, run_pure_bind, bump, run_modify_bind, run_get_bind,
        State.dataSlice_bump, refuses, none]
      cases kernel.printk with
      | ok printed => exact unpanicked_ok _
      | error code => exact unpanicked_err _

theorem AtTurn.panics (atTurn : AtTurn start turn state)
    (get : IsGet start.dataSlice) (unread : ¬ ReadsAt start.dataSlice turn)
    (room : start.mapKcache.Matches (firstKey start.dataSlice) →
      turn < maxKeyInPacket) (fuel : Nat) :
    ((loopFrom kernel stats start (fuel + 1) turn).run state).1 =
      .error (.panic .slice) := by
  obtain ⟨key, ran⟩ := run_keyLoop_panic kernel (keyOffset start.dataSlice) stats
    fuel (keyCount_turnContext_lt.mpr room) ((atTurn.scan_eq_none_iff get).mpr unread)
  rw [loopFrom, ran]

theorem AtTurn.unpanicked (atTurn : AtTurn start turn state)
    (get : IsGet start.dataSlice)
    (fits : ∀ slot, (start.mapKcache slot).len ≤ maxPacketLength)
    (stops : ¬ GoesOn start.mapKcache start.dataSlice turn)
    (reads : (start.mapKcache.Matches (firstKey start.dataSlice) →
      turn < maxKeyInPacket) → ReadsAt start.dataSlice turn)
    (first : ¬ SpaceFollows start.dataSlice → turn = 0) (fuel : Nat) :
    Unpanicked ((loopFrom kernel stats start (fuel + 1) turn).run state).1 := by
  have header : udpHeaderLen = 50 := rfl
  have headers : headersLen = 42 := rfl
  have long := get.length
  obtain ⟨lower, _⟩ := get.keyOffset_bounds
  rw [loopFrom]
  by_cases room : (turnContext start.mapKcache start.dataSlice turn).keyCount <
      maxKeyInPacket
  · have read := reads (keyCount_turnContext_lt.mp room)
    have single : ¬ SpaceFollows start.dataSlice := fun follows =>
      stops ⟨follows, read, keyCount_turnContext_lt.mp room⟩
    obtain rfl := first single
    rw [turnContext_zero]
    cases scanned : scan state.dataSlice.length
        (start.dataSlice.drop (keyOffset start.dataSlice))
        (UInt8.ofNat (keyOffset start.dataSlice)) with
    | none =>
        have unread := (atTurn.scan_eq_none_iff get).mp
          (by rw [turnContext_zero]; exact scanned)
        exact absurd read unread
    | some found =>
        obtain ⟨name, delimiter⟩ := found
        obtain ⟨token, short⟩ := scan_eq_some scanned
        have room : (⟨0, 0, UInt8.ofNat (keyOffset start.dataSlice)⟩ :
            ParsingContext).keyCount < maxKeyInPacket :=
          show 0 < maxKeyInPacket by decide
        by_cases nonempty : name = []
        · subst nonempty
          obtain ⟨key, ran⟩ := run_keyLoop_empty kernel
            (keyOffset start.dataSlice) stats fuel room scanned
          rw [ran]
          exact unpanicked_ok _
        · rcases delimiter_cases token with rfl | rfl
          · rw [run_keyLoop_name _ _ _ _ room scanned nonempty]
            simp only [if_true]
            by_cases present : state.mapKcache.Matches name
            · simp only [if_pos present, Nat.zero_add, Nat.one_pos, if_true]
              rw [run_reply kernel (keyOffset start.dataSlice) stats
                (atTurn.frame ▸ by omega) short present]
              simp only
              split
              · apply unpanicked_copyCacheData kernel (by omega)
                rw [State.mapKcache_locked, atTurn.cache]
                exact fits _
              · exact unpanicked_ok _
            · simp only [if_neg present, lt_irrefl, if_false]
              exact unpanicked_ok _
          · have key : firstKey start.dataSlice = name := token.takeWhile_eq
            refine absurd ⟨?_, ?_⟩ single
            · rwa [key]
            · rw [key, token.getElem?_eq]
  · rw [run_keyLoop_full _ _ _ _ (Nat.le_of_not_lt room)]
    exact unpanicked_err _

def ScansAt (cache : MapKcache) (frame : Frame) (turn : Nat) : Prop :=
  (∀ earlier < turn, GoesOn cache frame earlier) ∧
    (cache.Matches (firstKey frame) → turn < maxKeyInPacket)

def Readable (cache : MapKcache) (frame : Frame) : Prop :=
  ReadsAt frame 0 ∧ (SpaceFollows frame → ∀ turn,
    (cache.Matches (firstKey frame) → turn < maxKeyInPacket) → ReadsAt frame turn)

theorem scansAt_zero (cache : MapKcache) (frame : Frame) : ScansAt cache frame 0 :=
  ⟨fun _ before => absurd before (Nat.not_lt_zero _), fun _ => by decide⟩

theorem Readable.readsAt {cache : MapKcache} {frame : Frame}
    (readable : Readable cache frame) (scans : ScansAt cache frame turn) :
    ReadsAt frame turn := by
  cases turn with
  | zero => exact readable.1
  | succ turn =>
      have follows := (scans.1 0 (Nat.succ_pos turn)).1
      exact readable.2 follows (turn + 1) scans.2

theorem IsGet.unpanicked_iff (get : IsGet state.dataSlice)
    (fits : ∀ slot, (state.mapKcache slot).len ≤ maxPacketLength) :
    (∀ fuel, Unpanicked ((xdpRxFilter kernel fuel).run state).1) ↔
      Readable state.mapKcache state.dataSlice := by
  have asked : IsGet state.asked.dataSlice := get
  constructor
  · intro unpanicked
    -- an iteration that is reached and asks for its window can read it
    have reads (turn : Nat)
        (scans : ScansAt state.mapKcache state.dataSlice turn) :
        ReadsAt state.dataSlice turn := by
      obtain ⟨goesOn, room⟩ := scans
      by_contra unread
      obtain ⟨later, ran, atTurn⟩ := run_turns kernel 0 asked goesOn (0 + 1)
      apply unpanicked (0 + 1 + turn) .slice
      rw [get.run_eq, ran]
      exact atTurn.panics kernel 0 asked unread room 0
    refine ⟨reads 0 (scansAt_zero _ _), ?_⟩
    intro follows turn
    induction turn using Nat.strong_induction_on with
    | _ turn induction =>
        intro room
        refine reads turn ⟨?_, room⟩
        intro earlier before
        have roomBefore : state.mapKcache.Matches (firstKey state.dataSlice) →
            earlier < maxKeyInPacket := fun present => before.trans (room present)
        exact ⟨follows, induction earlier before roomBefore, roomBefore⟩
  · intro readable fuel
    by_cases stops : ∃ turn < fuel, ¬ GoesOn state.mapKcache state.dataSlice turn
    · obtain ⟨last, enough, stop, goesOn⟩ := first_stop stops
      obtain ⟨rest, rfl⟩ : ∃ rest, fuel = rest + 1 + last :=
        ⟨fuel - 1 - last, by omega⟩
      obtain ⟨later, ran, atTurn⟩ := run_turns kernel 0 asked goesOn (rest + 1)
      rw [get.run_eq, ran]
      refine atTurn.unpanicked kernel 0 asked fits stop ?_ ?_ rest
      · exact fun room => readable.readsAt ⟨goesOn, room⟩
      · intro single
        by_contra later
        exact single (goesOn 0 (Nat.pos_of_ne_zero later)).1
    · simp only [not_exists, not_and, not_not] at stops
      intro reason same
      rw [get.unfinished kernel stops] at same
      cases same

end Panic

theorem parser_in_range_iff {history : List Event} {world : World}
    (run : exec step .zero history = some world) {frame : Frame}
    (long : tcpHeaderLen ≤ frame.length) (cpu : Nat) (kernel : Kernel) :
    ((∀ fuel, Unpanicked (world.handle (.rx cpu frame kernel fuel)).1) ∧
        (IsGet frame → ∀ turn, ScansAt world.mapKcache frame turn →
          (turnContext world.mapKcache frame turn).readPktOffset.toNat ≤
            frame.length)) ↔
      (IsGet frame → Readable world.mapKcache frame) := by
  constructor
  · rintro ⟨unpanicked, _⟩ get
    have asks : IsGet (world.start cpu frame).dataSlice := get
    exact (asks.unpanicked_iff kernel (reachable_fits run)).mp unpanicked
  · intro readable
    refine ⟨fun fuel => ?_, fun get turn scans => ((readable get).readsAt scans).1⟩
    by_cases get : IsGet (world.start cpu frame).dataSlice
    · exact (get.unpanicked_iff kernel (reachable_fits run)).mpr (readable get) fuel
    · by_cases segment : IsSegment (world.start cpu frame).dataSlice
      · obtain ⟨final, ran, _⟩ := run_xdpRxFilter_segment kernel fuel segment
        rw [World.handle, ran]
        exact unpanicked_ok _
      · obtain ⟨result, ran, passed⟩ :=
          run_xdpRxFilter_other kernel fuel get segment
        rw [World.handle, ran, passed long]
        exact unpanicked_ok _

theorem parser_in_range_iff_two :
    requestKeys twoKeyFrame = [[97], [98]] ∧
      (∀ fuel, Unpanicked (World.zero.handle (.rx 0 twoKeyFrame willing fuel)).1) ∧
      (IsGet twoKeyFrame → ∀ turn, ScansAt World.zero.mapKcache twoKeyFrame turn →
        (turnContext World.zero.mapKcache twoKeyFrame turn).readPktOffset.toNat ≤
          twoKeyFrame.length) := by
  have run : exec step .zero [] = some World.zero := rfl
  refine ⟨by decide +kernel, ?_⟩
  refine (parser_in_range_iff run (by decide +kernel) 0 willing).mpr ?_
  intro _
  refine ⟨by decide +kernel, fun _ turn _ => ?_⟩
  exact (goesOn_twoKeyFrame turn).2.1

/-- A request that the frame cuts off after its key. -/
theorem cut_request_panics :
    ¬ ∀ (history : List Event) (world : World) (frame : Frame) (cpu : Nat)
      (kernel : Kernel) (fuel : Nat),
      exec step .zero history = some world → tcpHeaderLen ≤ frame.length →
      Unpanicked (world.handle (.rx cpu frame kernel fuel)).1 := by
  intro always
  exact always [] World.zero (getFrame [107]) 0 willing 1 rfl (by decide +kernel)
    .slice rfl

end Rex.Bmc
