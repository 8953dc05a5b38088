import Rex.Bmc.KeyLoop

namespace Rex.Bmc

open Bytes Effect Program Rex.Frame Machine

/-! The frame that a client gets back when its request is answered from the
cache. -/

section Copied

variable (kernel : Kernel) {state : State} {slot : Slot} {payloadIndex : Nat}

theorem keeps_halt_bind {Value Next View : Type} {observe : State → View}
    (stop : Stop) (next : Value → Program Next) :
    Keeps observe (halt stop >>= next) :=
  fun _ => rfl

theorem notes_copyCacheData_unfit
    (unfit : ¬ (state.mapKcache slot).len ≤ maxPacketLength) :
    ((copyCacheData kernel payloadIndex slot).run state).2.notes = state.notes := by
  set entry := state.mapKcache slot with entryEq
  have outside : slice entry.data 0 entry.len = none :=
    if_neg fun inside => unfit (entry.sized ▸ inside.2)
  have edited (start : Nat) (header : Header) (edit : Frame → Frame) :
      Keeps State.notes (editHeader start header edit) := by
    apply keeps_get.bind
    intro state
    apply Keeps.ite
    · exact fun _ => rfl
    · exact keeps_halt _
  have unwritten : Keeps State.notes (writeRecord payloadIndex slot entry) := by
    apply keeps_get.bind
    intro state
    apply (keeps_demand _ _).bind
    intro payload
    rw [sliceOf, outside]
    exact keeps_halt_bind _ _
  simp only [copyCacheData, lookupStats, bpfMapLookupElem_eq_some Nat.one_pos,
    demand_some, run_pure_bind, bump, run_modify_bind, run_get_bind,
    State.mapKcache_bump, ← entryEq, editFrame]
  split
  · split
    · rfl
    · rfl
  · rw [run_modify_bind]
    exact ((edited _ _ _).bind fun _ => (edited _ _ _).bind fun _ =>
      unwritten.bind fun _ => keeps_pure _) _

theorem copyCacheData_copied {copiedSlot : Slot} {record : List UInt8}
    (inPayload : headersLen + 4 ≤ payloadIndex)
    (fresh : .copied copiedSlot record ∉ state.notes)
    (copied : .copied copiedSlot record ∈
      ((copyCacheData kernel payloadIndex slot).run state).2.notes) :
    kernel.refusesTail = false ∧ (state.mapKcache slot).len ≤ maxPacketLength ∧
      copiedSlot = slot ∧ record = (state.mapKcache slot).record := by
  have fits : (state.mapKcache slot).len ≤ maxPacketLength := by
    by_contra unfit
    rw [notes_copyCacheData_unfit kernel unfit] at copied
    exact fresh copied
  cases refuses : kernel.refusesTail with
  | true =>
      obtain ⟨later, noted, none⟩ := (idle_copyCacheData_refused kernel payloadIndex
        slot state refuses).silent
      rw [noted, List.mem_append] at copied
      exact absurd copied (not_or.mpr ⟨fresh, none _ _⟩)
  | false =>
      obtain ⟨final, _, ran, _, noted, _⟩ :=
        run_copyCacheData kernel refuses inPayload fits
      rw [ran, noted, List.mem_append, List.mem_singleton, Note.copied.injEq] at copied
      exact ⟨rfl, fits, copied.resolve_left fresh⟩

end Copied

/-- The request is answered from the cache with the given record. -/
structure Answers (kernel : Kernel) (state final : State) (record : List UInt8)
    (name : List UInt8) : Prop where
  token : Token isKeyByte
    (state.dataSlice.drop (keyOffset state.dataSlice)) name carriageReturn
  nonempty : name ≠ []
  short : record.length ≤ maxPacketLength
  carried : final.dataSlice.drop (keyOffset state.dataSlice - 4) =
    record ++ endOfReply
  frame : ∃ adjusted,
    let padding : Int := (record.length : Int) -
      (state.dataSlice.length - keyOffset state.dataSlice) + 1
    (swapped state.dataSlice).adjustTail false kernel.fill padding = some adjusted ∧
      final.dataSlice = put (resized adjusted padding)
        (keyOffset state.dataSlice - 4) (record ++ endOfReply)

theorem IsGet.idle_or_replies (kernel : Kernel) {state : State}
    (get : IsGet state.dataSlice) (fuel : Nat) :
    Idle state.asked ((xdpRxFilter kernel fuel).run state).2 ∨
    ∃ name readPktOffset,
      Token isKeyByte (state.dataSlice.drop (keyOffset state.dataSlice)) name
        carriageReturn ∧
      name ≠ [] ∧ name.length ≤ maxKeyLength ∧ state.mapKcache.Matches name ∧
      (xdpRxFilter kernel fuel).run state =
        (do swapHeaders
            writePktReply kernel (keyOffset state.dataSlice)
              ⟨1, 0, readPktOffset⟩ 0).run
          (state.asked.parsed name ⟨0, by decide⟩ 0) := by
  rw [get.run_eq, loopFrom, turnContext_zero]
  rcases keyLoop_cases kernel (keyOffset state.asked.dataSlice) 0 state.asked fuel
      (UInt8.ofNat (keyOffset state.asked.dataSlice)) with
    ⟨name, token, nonempty, short, present, replies⟩ | ⟨idle, _⟩
  · exact .inr ⟨name, _, token, nonempty, short, present, replies⟩
  · exact .inl idle

theorem IsGet.long {frame : Frame} (get : IsGet frame) : headersLen ≤ frame.length :=
  (show headersLen ≤ udpHeaderLen + 4 by decide).trans get.length

theorem IsGet.inPayload {frame : Frame} (get : IsGet frame) : headersLen + 4 ≤ keyOffset frame :=
  (show headersLen + 4 ≤ udpHeaderLen + 4 by decide).trans get.keyOffset_bounds.1

theorem IsGet.answers_of_verified (kernel : Kernel) {state : State}
    {name : List UInt8} (get : IsGet state.dataSlice)
    (token : Token isKeyByte (state.dataSlice.drop (keyOffset state.dataSlice)) name
      carriageReturn)
    (nonempty : name ≠ []) (short : name.length ≤ maxKeyLength)
    (present : state.mapKcache.Matches name)
    (verified : (state.mapKcache (slotOf (fnv1a name))).Verifies name)
    (accepted : kernel.refusesTail = false)
    (fits : (state.mapKcache (slotOf (fnv1a name))).len ≤ maxPacketLength)
    (readPktOffset : UInt8) :
    ∃ final, (do swapHeaders
                 writePktReply kernel (keyOffset state.dataSlice)
                   ⟨1, 0, readPktOffset⟩ 0).run
          (state.asked.parsed name ⟨0, by decide⟩ 0) = (.ok xdpTx, final) ∧
      Answers kernel state final (state.mapKcache (slotOf (fnv1a name))).record
        name := by
  have long : headersLen ≤ state.asked.dataSlice.length := get.long
  have cached : (state.asked.locked name 0).mapKcache = state.mapKcache :=
    State.mapKcache_locked 0
  obtain ⟨final, adjusted, ran, carried, _, done, frame⟩ :=
    run_copyCacheData kernel accepted get.inPayload (cached ▸ fits)
  have size := BmcCacheEntry.length_record fits
  rw [cached] at carried
  rw [cached, ← size, State.dataSlice_locked, (headerEdit_swapped long).length]
    at done frame
  refine ⟨final.note (.unlock (slotOf (fnv1a name))), ?_, token, nonempty,
    size.trans_le fits, carried, adjusted, done, frame⟩
  rw [run_reply kernel _ 0 long short present]
  simp only
  rw [if_pos (show (state.asked.mapKcache _).Verifies name from verified), ran]

theorem IsGet.answers (kernel : Kernel) {state : State}
    (get : IsGet state.dataSlice) (fresh : state.notes = []) {fuel : Nat}
    {slot : Slot} {record : List UInt8}
    (copied : .copied slot record ∈
      ((xdpRxFilter kernel fuel).run state).2.notes) :
    ∃ name, Answers kernel state ((xdpRxFilter kernel fuel).run state).2 record
      name := by
  have quiet {final : State} (silent : Silent state.asked final) :
      Note.copied slot record ∉ final.notes :=
    silent.not_copied fresh slot record
  rcases get.idle_or_replies kernel fuel with
    idle | ⟨name, readPktOffset, token, nonempty, short, present, replies⟩
  · exact absurd copied (quiet idle.silent)
  · have ran := run_reply kernel (keyOffset state.dataSlice) 0
      (show headersLen ≤ state.asked.dataSlice.length from get.long) short present
      readPktOffset
    simp only at ran
    have silent : Silent state.asked (state.asked.locked name 0) := silent_locked 0
    by_cases verified : (state.mapKcache (slotOf (fnv1a name))).Verifies name
    · rw [if_pos (show (state.asked.mapKcache _).Verifies name from verified)] at ran
      rw [replies, ran, State.notes_note, List.mem_append] at copied
      obtain ⟨accepted, fits, _, recordEq⟩ := copyCacheData_copied kernel
        get.inPayload (quiet silent) (copied.resolve_right (by simp))
      rw [State.mapKcache_locked] at fits recordEq
      obtain ⟨final, answered, answers⟩ := get.answers_of_verified kernel token nonempty
        short present verified accepted fits readPktOffset
      rw [replies, answered, recordEq]
      exact ⟨name, answers⟩
    · rw [if_neg (show ¬ (state.asked.mapKcache _).Verifies name from verified)] at ran
      rw [replies, ran] at copied
      refine absurd copied (quiet (silent.trans ?_))
      split
      · exact silent_note rfl
      · exact silent_note rfl

/-! The lengths in the headers of the reply. -/

section Lengths

variable {frame : Frame}

theorem length_moved (off width : Nat) (inHeaders : off + 2 * width ≤ headersLen)
    (long : headersLen ≤ frame.length) :
    (field frame (off + width) width ++ field frame off width).length =
      2 * width := by
  rw [List.length_append, length_field (by omega), length_field (by omega)]
  omega

theorem totLen_swapped (long : headersLen ≤ frame.length) :
    totLen (swapped frame) = frame.totLen := by
  have longMacs := (headerEdit_swapMacs long).long long
  have longAddrs := (headerEdit_swapAddrs longMacs).long longMacs
  have moved := length_moved 0 6 (by decide) long
  have inFrame : 2 * 6 ≤ frame.length :=
    (show 2 * 6 ≤ headersLen by decide).trans long
  rw [swapped, swapPorts, exchange, totLen_put (by decide) (by decide) longAddrs,
    swapAddrs, exchange, totLen_put (by decide) (by decide) longMacs, totLen,
    swapMacs, exchange, field_put_of_beyond (by omega), ← totLen]
  rw [moved]
  decide

theorem udpLen_swapped (long : headersLen ≤ frame.length) :
    udpLen (swapped frame) = frame.udpLen := by
  have longMacs := (headerEdit_swapMacs long).long long
  have longAddrs := (headerEdit_swapAddrs longMacs).long longMacs
  rw [swapped, swapPorts, exchange, udpLen_put _ longAddrs, swapAddrs, exchange,
    udpLen_put _ longMacs, swapMacs, exchange, udpLen_put _ long]
  · rw [length_moved 0 6 (by decide) long]
    decide
  · rw [length_moved (ipStart + 12) 4 (by decide) longMacs]
    decide
  · rw [length_moved transportStart 2 (by decide) longAddrs]

end Lengths

theorem Answers.lengths {kernel : Kernel} {state final : State}
    {record name : List UInt8}
    (answers : Answers kernel state final record name)
    (get : IsGet state.dataSlice) :
    let padding : Int := (record.length : Int) -
      (state.dataSlice.length - keyOffset state.dataSlice) + 1
    final.dataSlice.length = keyOffset state.dataSlice + record.length + 1 ∧
      final.dataSlice.totLen =
        ((state.dataSlice.totLen + padding) % 2 ^ 16).toNat ∧
      final.dataSlice.udpLen =
        ((state.dataSlice.udpLen + padding) % 2 ^ 16).toNat := by
  have header : udpHeaderLen = 50 := rfl
  have headers : headersLen = 42 := rfl
  have long : headersLen ≤ state.dataSlice.length := by
    have := get.length
    omega
  have lower := get.keyOffset_bounds.1
  have mark : endOfReply.length = 5 := rfl
  obtain ⟨adjusted, done, frame⟩ := answers.frame
  set padding : Int := (record.length : Int) -
    (state.dataSlice.length - keyOffset state.dataSlice) + 1 with paddingEq
  have grown := length_adjustTail done
  have longSwapped := (headerEdit_swapped long).long long
  rw [(headerEdit_swapped long).length] at grown
  have longAdjusted : headersLen ≤ adjusted.length := by omega
  have size := (headerEdit_resized longAdjusted padding).length
  have within : transportStart + 4 + 2 ≤ headersLen := by decide
  have inside : ipStart + 2 + 2 ≤ headersLen := by decide
  rw [frame]
  refine ⟨?_, ?_, ?_⟩
  · rw [length_put, size]
    · omega
    · rw [List.length_append, size]
      omega
  · rw [totLen, field_put_of_before (by omega) (by omega), ← totLen,
      totLen_resized longAdjusted, totLen, field_adjustTail done
        (inside.trans longSwapped) (inside.trans longAdjusted), ← totLen,
      totLen_swapped long]
  · rw [udpLen, field_put_of_before (by omega) (by omega), ← udpLen,
      udpLen_resized longAdjusted, udpLen, field_adjustTail done
        (within.trans longSwapped) (within.trans longAdjusted), ← udpLen,
      udpLen_swapped long]

/-! Requests for one key. -/

def minFrameLen : Nat := 60

def requestEnd (key : List UInt8) (spaces : Nat) : Nat :=
  udpHeaderLen + 3 + spaces + key.length + 2

/-- A GET for one key, described by the lengths in its headers; what follows is
padding up to the least length of a frame. -/
structure RequestsOne (key : List UInt8) (spaces : Nat) (frame : Frame) : Prop where
  protocol : frame.protocol = ipprotoUdp
  port : frame.destPort = memcachedPort
  payload : [103, 101, 116] ++ List.replicate spaces space ++ key ++
    [carriageReturn, newline] <+: frame.drop udpHeaderLen
  spaced : 0 < spaces
  nonempty : key ≠ []
  isKey : ∀ byte ∈ key, isKeyByte byte = true
  totLen : frame.totLen = requestEnd key spaces - ipStart
  udpLen : frame.udpLen = requestEnd key spaces - transportStart
  padded : frame.length ≤ max minFrameLen (requestEnd key spaces)

/-- The record starts after the UDP header of memcached, the end mark ends the
frame, and the headers have its lengths. -/
structure WellFormedReply (frame : Frame) (record : List UInt8) : Prop where
  carried : frame.drop udpHeaderLen = record ++ endOfReply
  totLen : frame.totLen = frame.length - ipStart
  udpLen : frame.udpLen = frame.length - transportStart

namespace RequestsOne

variable {key : List UInt8} {spaces : Nat} {frame : Frame}

theorem line (asks : RequestsOne key spaces frame) :
    ∃ more rest, spaces = more + 1 ∧ frame.drop udpHeaderLen =
      getCommand ++ List.replicate more space ++
        (key ++ carriageReturn :: newline :: rest) := by
  obtain ⟨more, shape⟩ := Nat.exists_eq_succ_of_ne_zero asks.spaced.ne'
  obtain ⟨rest, split⟩ := asks.payload
  refine ⟨more, rest, shape, ?_⟩
  rw [← split, shape, List.replicate_succ]
  simp [getCommand, space]

theorem isGet (asks : RequestsOne key spaces frame) : IsGet frame := by
  obtain ⟨more, rest, _, line⟩ := asks.line
  refine ⟨asks.protocol, asks.port, ?_⟩
  rw [line, List.append_assoc]
  exact List.prefix_append ..

theorem keyOffset_eq (asks : RequestsOne key spaces frame)
    {name : List UInt8} {delimiter : UInt8}
    (token : Token isKeyByte (frame.drop (keyOffset frame)) name delimiter)
    (nonempty : name ≠ []) :
    keyOffset frame = udpHeaderLen + 3 + spaces ∧ spaces ≤ maxPacketLength := by
  obtain ⟨more, rest, rfl, line⟩ := asks.line
  have few := spaces_le_of_token line asks.nonempty asks.isKey token nonempty
  have limit : maxPacketLength = 1500 := rfl
  rw [keyOffset_of_line line asks.nonempty asks.isKey]
  omega

theorem length_ge (asks : RequestsOne key spaces frame) :
    requestEnd key spaces ≤ frame.length := by
  have shorter := asks.payload.length_le
  have long := asks.isGet.length
  simp only [List.length_append, List.length_cons, List.length_nil,
    List.length_replicate, List.length_drop] at shorter
  rw [requestEnd]
  omega

end RequestsOne

/-- The reply's headers leave out the padding of the request. -/
theorem RequestsOne.described {kernel : Kernel} {key : List UInt8} {spaces : Nat}
    {state final : State} {record name : List UInt8}
    (asks : RequestsOne key spaces state.dataSlice)
    (answers : Answers kernel state final record name) :
    let padding := state.dataSlice.length - requestEnd key spaces
    final.dataSlice.totLen + padding = final.dataSlice.length - ipStart ∧
      final.dataSlice.udpLen + padding =
        final.dataSlice.length - transportStart := by
  obtain ⟨size, totLen, udpLen⟩ := answers.lengths asks.isGet
  obtain ⟨offset, near⟩ := asks.keyOffset_eq answers.token answers.nonempty
  have long := asks.length_ge
  have padded := asks.padded
  have short := answers.short
  have header : udpHeaderLen = 50 := rfl
  have ip : ipStart = 14 := rfl
  have transport : transportStart = 34 := rfl
  have least : minFrameLen = 60 := rfl
  have limit : maxPacketLength = 1500 := rfl
  have ends : requestEnd key spaces =
      udpHeaderLen + 3 + spaces + key.length + 2 := rfl
  rw [asks.totLen, Int.emod_eq_of_lt (by omega) (by omega)] at totLen
  rw [asks.udpLen, Int.emod_eq_of_lt (by omega) (by omega)] at udpLen
  constructor
  · omega
  · omega

theorem reply_wellFormed_iff (kernel : Kernel) {key : List UInt8} {spaces : Nat}
    {state : State} (asks : RequestsOne key spaces state.dataSlice)
    (fresh : state.notes = []) {fuel : Nat} {slot : Slot} {record : List UInt8}
    (copied : .copied slot record ∈
      ((xdpRxFilter kernel fuel).run state).2.notes) :
    WellFormedReply ((xdpRxFilter kernel fuel).run state).2.dataSlice record ↔
      spaces = 1 ∧ state.dataSlice.length = requestEnd key spaces := by
  obtain ⟨name, answers⟩ := asks.isGet.answers kernel fresh copied
  generalize ((xdpRxFilter kernel fuel).run state).2 = final at answers ⊢
  have offset := (asks.keyOffset_eq answers.token answers.nonempty).1
  have size := (answers.lengths asks.isGet).1
  have long := asks.length_ge
  have header : udpHeaderLen = 50 := rfl
  have ip : ipStart = 14 := rfl
  have transport : transportStart = 34 := rfl
  have mark : endOfReply.length = 5 := rfl
  obtain ⟨totLen, udpLen⟩ := asks.described answers
  constructor
  · intro wellFormed
    have start := congrArg List.length wellFormed.carried
    rw [List.length_drop, List.length_append] at start
    have described := wellFormed.totLen
    constructor
    · omega
    · omega
  · rintro ⟨rfl, whole⟩
    have carried := answers.carried
    rw [offset] at carried
    exact ⟨carried, by omega, by omega⟩

def requestForK (padding : Nat) : Frame :=
  ((getFrame [107, 13, 10]).setTotLen 43).setUdpLen 23 ++ List.replicate padding 0

def cachedK : World :=
  World.zero.after (.tx 0 (responseFrame [107, 32, 48, 32, 49, 13, 10, 120, 13, 10]) 0)

theorem reply_wellFormed_iff_one :
    WellFormedReply
      ((xdpRxFilter willing 1).run (cachedK.start 0 (requestForK 0))).2.dataSlice
      (valueMark ++ [107, 32, 48, 32, 49, 13, 10, 120, 13, 10]) := by
  have asks : RequestsOne [107] 1 (requestForK 0) :=
    ⟨by decide +kernel, by decide +kernel, by decide +kernel, by decide, by decide,
      List.all_eq_true.mp rfl, by decide +kernel, by decide +kernel,
      by decide +kernel⟩
  have copied : .copied (slotOf (fnv1a [107]))
        (valueMark ++ [107, 32, 48, 32, 49, 13, 10, 120, 13, 10]) ∈
      ((xdpRxFilter willing 1).run (cachedK.start 0 (requestForK 0))).2.notes := by
    decide +kernel
  exact (reply_wellFormed_iff willing asks rfl copied).mpr ⟨rfl, by decide +kernel⟩

/-- Padded to 60 bytes, the same request gets a reply that is longer than its
headers say. -/
theorem padded_request_misdescribed :
    ¬ ∀ (kernel : Kernel) (key : List UInt8) (spaces : Nat) (state : State)
      (fuel : Nat) (slot : Slot) (record : List UInt8),
      RequestsOne key spaces state.dataSlice → state.notes = [] →
      .copied slot record ∈ ((xdpRxFilter kernel fuel).run state).2.notes →
      WellFormedReply ((xdpRxFilter kernel fuel).run state).2.dataSlice record := by
  intro always
  have asks : RequestsOne [107] 1 (requestForK 3) :=
    ⟨by decide +kernel, by decide +kernel, by decide +kernel, by decide, by decide,
      List.all_eq_true.mp rfl, by decide +kernel, by decide +kernel,
      by decide +kernel⟩
  have wellFormed := always willing [107] 1 (cachedK.start 0 (requestForK 3)) 1
    (slotOf (fnv1a [107])) (valueMark ++ [107, 32, 48, 32, 49, 13, 10, 120, 13, 10])
    asks rfl (by decide +kernel)
  exact absurd wellFormed.totLen (by decide +kernel)

/-! The hit branch, in every cache that a run can have filled. -/

def State.hitCount (state : State) : UInt32 :=
  (state.cpu.mapStats ⟨0, Nat.one_pos⟩).hitCount

theorem State.hitCount_note (state : State) (entry : Note) :
    (state.note entry).hitCount = state.hitCount :=
  rfl

theorem State.hitCount_bump (state : State) (stats : Fin 1)
    {count : BmcStats → BmcStats}
    (same : ∀ stats, (count stats).hitCount = stats.hitCount) :
    (state.bump stats count).hitCount = state.hitCount := by
  obtain rfl : stats = ⟨0, Nat.one_pos⟩ := Subsingleton.elim ..
  have counted : (state.bump ⟨0, Nat.one_pos⟩ count).cpu.mapStats ⟨0, Nat.one_pos⟩ =
      count (state.cpu.mapStats ⟨0, Nat.one_pos⟩) :=
    Function.update_self (⟨0, Nat.one_pos⟩ : Fin 1) _ state.cpu.mapStats
  rw [State.hitCount, counted, same, State.hitCount]

theorem State.hitCount_locked {state : State} {name : List UInt8}
    (present : state.mapKcache.Matches name) :
    (state.locked name 0).hitCount = state.hitCount := by
  have found : ((state.note .iteration).setKey ⟨0, by decide⟩
      { state.cpu.mapKeys ⟨0, by decide⟩ with hash := fnv1a name }).mapKcache.Matches
        name := present
  rw [State.locked, State.parsed, State.probed, if_pos found]
  rfl

/-- The run calls `write_pkt_reply`, which counts a hit. -/
def HitBranch (world : World) (cpu : Nat) (frame : Frame) (kernel : Kernel)
    (fuel : Nat) : Prop :=
  let ran := world.handle (.rx cpu frame kernel fuel)
  .reply ∈ ran.2.notes ∧
    ran.2.hitCount = (world.start cpu frame).hitCount + 1

instance (world : World) (cpu : Nat) (frame : Frame) (kernel : Kernel) (fuel : Nat) :
    Decidable (HitBranch world cpu frame kernel fuel) :=
  inferInstanceAs (Decidable (_ ∧ _))

theorem Idle.not_reply {state final : State} (idle : Idle state final)
    (fresh : state.notes = []) : Note.reply ∉ final.notes := by
  obtain ⟨later, noted, quiet⟩ := idle.quiet
  rw [noted, fresh, List.nil_append]
  intro member
  exact absurd (List.all_eq_true.mp quiet _ member) Bool.false_ne_true

theorem isGet_of_reply (kernel : Kernel) {fuel : Nat} {state : State}
    (fresh : state.notes = [])
    (replied : .reply ∈ ((xdpRxFilter kernel fuel).run state).2.notes) :
    IsGet state.dataSlice := by
  by_contra notGet
  by_cases segment : IsSegment state.dataSlice
  · obtain ⟨final, ran, idle, _⟩ := run_xdpRxFilter_segment kernel fuel segment
    rw [ran] at replied
    exact idle.not_reply fresh replied
  · obtain ⟨result, ran, _⟩ := run_xdpRxFilter_other kernel fuel notGet segment
    rw [ran, fresh] at replied
    cases replied

theorem hitCount_unverified (kernel : Kernel) (payloadIndex : Nat) {state : State}
    {name : List UInt8} (long : headersLen ≤ state.dataSlice.length)
    (short : name.length ≤ maxKeyLength) (present : state.mapKcache.Matches name)
    (unverified : ¬ (state.mapKcache (slotOf (fnv1a name))).Verifies name)
    (readPktOffset : UInt8) :
    ((do swapHeaders
         writePktReply kernel payloadIndex ⟨1, 0, readPktOffset⟩ 0).run
      (state.parsed name ⟨0, by decide⟩ 0)).2.hitCount = state.hitCount := by
  rw [run_reply kernel payloadIndex 0 long short present]
  simp only [if_neg unverified]
  rw [State.hitCount_note, State.hitCount_bump _ _ (by intro stats; rfl)]
  split
  · exact State.hitCount_locked present
  · rw [State.hitCount_bump _ _ (by intro stats; rfl), State.hitCount_locked present]

/-! The padding, in the arithmetic of the source. -/

def checkedI32 (value : Int) : Option Int :=
  if -2 ^ 31 ≤ value ∧ value < 2 ^ 31 then some value else none

/-- `(entry.len as i32 - (ctx.data_length() - payload_index) as i32) + 1`, if no
operation in it overflows. -/
def paddingI32 (len dataLength payloadIndex : Nat) : Option Int :=
  if dataLength < payloadIndex then
    none
  else do
    let difference ← checkedI32
      (Int.bmod len (2 ^ 32) - Int.bmod ((dataLength - payloadIndex : Nat) : Int) (2 ^ 32))
    checkedI32 (difference + 1)

theorem paddingI32_eq {len dataLength payloadIndex : Nat}
    (fits : len ≤ maxPacketLength) (inside : payloadIndex ≤ dataLength)
    (linear : dataLength - payloadIndex < 2 ^ 31) :
    paddingI32 len dataLength payloadIndex =
      some ((len : Int) - (dataLength - payloadIndex) + 1) := by
  have limit : maxPacketLength = 1500 := rfl
  have lenI32 : Int.bmod len (2 ^ 32) = len :=
    Int.bmod_eq_of_le (by omega) (by omega)
  have restI32 : Int.bmod ((dataLength - payloadIndex : Nat) : Int) (2 ^ 32) =
      (dataLength : Int) - payloadIndex := by
    rw [Int.bmod_eq_of_le (by omega) (by omega)]
    omega
  have difference : checkedI32 ((len : Int) - (dataLength - payloadIndex)) =
      some ((len : Int) - (dataLength - payloadIndex)) :=
    if_pos (by omega)
  rw [paddingI32, if_neg (by omega), lenI32, restI32, difference]
  exact if_pos (by omega)

theorem HitBranch.answers {world : World} {cpu : Nat} {frame : Frame}
    {kernel : Kernel} {fuel : Nat} (hit : HitBranch world cpu frame kernel fuel)
    (accepted : kernel.refusesTail = false)
    (fits : ∀ slot, (world.mapKcache slot).len ≤ maxPacketLength) :
    IsGet frame ∧
      ∃ final, world.handle (.rx cpu frame kernel fuel) = (.ok xdpTx, final) ∧
        Answers kernel (world.start cpu frame) final
          (world.mapKcache (slotOf (fnv1a (firstKey frame)))).record
          (firstKey frame) := by
  obtain ⟨replied, counted⟩ := hit
  have get : IsGet (world.start cpu frame).dataSlice := isGet_of_reply kernel rfl replied
  refine ⟨get, ?_⟩
  rcases get.idle_or_replies kernel fuel with
    idle | ⟨name, readPktOffset, token, nonempty, short, present, replies⟩
  · exact absurd replied (idle.not_reply rfl)
  · obtain rfl : firstKey frame = name := token.takeWhile_eq
    have verified : (world.mapKcache (slotOf (fnv1a (firstKey frame)))).Verifies
        (firstKey frame) := by
      by_contra unverified
      have same := hitCount_unverified kernel
        (keyOffset (world.start cpu frame).dataSlice)
        (show headersLen ≤ (world.start cpu frame).asked.dataSlice.length from get.long)
        short present unverified readPktOffset
      rw [← replies, State.asked, State.hitCount_bump _ _ (by intro stats; rfl)] at same
      rw [World.handle, same] at counted
      exact absurd counted (by simp)
    obtain ⟨final, answered, answers⟩ := get.answers_of_verified kernel token nonempty
      short present verified accepted (fits _) readPktOffset
    exact ⟨final, replies.trans answered, answers⟩

/-- A reply is built within its bounds: the entry and the end mark fill the frame
from four bytes before the key to its end. -/
theorem reply_in_range {history : List Event} {world : World}
    (run : exec step .zero history = some world) {cpu : Nat} {frame : Frame}
    {kernel : Kernel} {fuel : Nat} (accepted : kernel.refusesTail = false)
    (hit : HitBranch world cpu frame kernel fuel) :
    let ran := world.handle (.rx cpu frame kernel fuel)
    let entry := world.mapKcache (slotOf (fnv1a (firstKey frame)))
    ran.1 = .ok xdpTx ∧
      ran.2.dataSlice.length = keyOffset frame + entry.len + 1 ∧
      entry.record.length = entry.len ∧
      ran.2.dataSlice.drop (keyOffset frame - 4) = entry.record ++ endOfReply ∧
      (frame.length - keyOffset frame < 2 ^ 31 →
        paddingI32 entry.len frame.length (keyOffset frame) =
          some ((ran.2.dataSlice.length : Int) - frame.length)) := by
  intro ran entry
  have fits : entry.len ≤ maxPacketLength := reachable_fits run _
  obtain ⟨get, final, handled, answers⟩ := hit.answers accepted (reachable_fits run)
  have ranEq : ran = (.ok xdpTx, final) := handled
  have inside : keyOffset frame ≤ frame.length := get.keyOffset_bounds.2
  have size : entry.record.length = entry.len := BmcCacheEntry.length_record fits
  have length : final.dataSlice.length = keyOffset frame + entry.len + 1 := by
    rw [(answers.lengths get).1]
    exact congrArg (fun len => keyOffset frame + len + 1) size
  rw [ranEq]
  refine ⟨rfl, length, size, answers.carried, fun linear => ?_⟩
  rw [paddingI32_eq fits inside linear, length]
  congr 1
  omega

theorem reply_in_range_k :
    let ran := cachedK.handle (.rx 0 (requestForK 0) willing 1)
    HitBranch cachedK 0 (requestForK 0) willing 1 ∧ ran.1 = .ok xdpTx ∧
      ran.2.dataSlice.drop udpHeaderLen =
        valueMark ++ [107, 32, 48, 32, 49, 13, 10, 120, 13, 10] ++ endOfReply := by
  have reached : exec step .zero [.tx 0 (responseFrame
      [107, 32, 48, 32, 49, 13, 10, 120, 13, 10]) 0] = some cachedK := rfl
  have hit : HitBranch cachedK 0 (requestForK 0) willing 1 := by decide +kernel
  have record : (cachedK.mapKcache
      (slotOf (fnv1a (firstKey (requestForK 0))))).record =
        valueMark ++ [107, 32, 48, 32, 49, 13, 10, 120, 13, 10] := by
    decide +kernel
  obtain ⟨sent, _, _, filled, _⟩ := reply_in_range reached
    (rfl : willing.refusesTail = false) hit
  rw [record] at filled
  exact ⟨hit, sent, filled⟩

end Rex.Bmc
