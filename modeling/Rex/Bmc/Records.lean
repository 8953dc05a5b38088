import Rex.Bmc.Freshness

namespace Rex.Bmc

open Bytes Effect Program Rex.Frame Machine

/-! What the entries hold when the server answers as memcached does. -/

def isPlain (byte : UInt8) : Bool :=
  byte != space && byte != carriageReturn && byte != newline

def decimal (n : Nat) : List UInt8 :=
  (Nat.toDigits 10 n).map fun digit => UInt8.ofNat digit.toNat

theorem newline_notMem_decimal (n : Nat) : newline ∉ decimal n := by
  intro member
  obtain ⟨digit, among, same⟩ := List.mem_map.mp member
  have isDigit := Nat.isDigit_of_mem_toDigits (by decide) (by decide) among
  simp only [Char.isDigit, Bool.and_eq_true, decide_eq_true_eq, ge_iff_le,
    UInt32.le_iff_toNat_le] at isDigit
  have lower : 48 ≤ digit.toNat := isDigit.1
  have upper : digit.toNat ≤ 57 := isDigit.2
  have value := congrArg UInt8.toNat same
  rw [UInt8.toNat_ofNat'] at value
  have ten : newline.toNat = 10 := rfl
  omega

/-- One value of a response: `VALUE <key> <flags> <n>`, a line end, `n` bytes of
data and a line end. -/
structure Response where
  key : List UInt8
  flags : List UInt8
  data : List UInt8
  keySize : 1 ≤ key.length ∧ key.length ≤ 250
  keyPlain : ∀ byte ∈ key, isPlain byte = true
  flagsPlain : ∀ byte ∈ flags, isPlain byte = true

namespace Response

def keyPart (response : Response) : List UInt8 :=
  valueMark ++ response.key ++ [space]

def headLine (response : Response) : List UInt8 :=
  response.keyPart ++ response.flags ++ [space] ++
    decimal response.data.length ++ [carriageReturn]

def record (response : Response) : List UInt8 :=
  response.headLine ++ [newline] ++ response.data ++ [carriageReturn, newline]

theorem newline_notMem_plain {bytes : List UInt8}
    (plain : ∀ byte ∈ bytes, isPlain byte = true) : newline ∉ bytes :=
  fun member => absurd (plain newline member) (by decide)

theorem newline_notMem_keyPart (response : Response) :
    newline ∉ response.keyPart := by
  simp only [keyPart, List.mem_append, not_or]
  exact ⟨⟨by decide, newline_notMem_plain response.keyPlain⟩, by decide⟩

theorem newline_notMem_headLine (response : Response) :
    newline ∉ response.headLine := by
  simp only [headLine, List.mem_append, not_or]
  exact ⟨⟨⟨⟨response.newline_notMem_keyPart,
    newline_notMem_plain response.flagsPlain⟩, by decide⟩,
    newline_notMem_decimal _⟩, by decide⟩

theorem keyPart_isPrefix (response : Response) :
    response.keyPart <+: response.record := by
  simp only [record, headLine, List.append_assoc]
  exact List.prefix_append ..

theorem count_record (response : Response) :
    response.record.count newline = response.data.count newline + 2 := by
  simp only [record, List.count_append,
    List.count_eq_zero.mpr response.newline_notMem_headLine]
  simp only [show [newline].count newline = 1 from rfl,
    show [carriageReturn, newline].count newline = 1 from rfl]
  omega

theorem getLast_record (response : Response) :
    response.record.getLast? = some newline := by
  simp only [record, List.getLast?_append]
  rfl

end Response

def CutOff (frame : Frame) (response : Response) : Prop :=
  ∃ rest, frame.drop udpHeaderLen <+: response.record ++ rest

/-- The frame with the `pagedLen` bytes outside its linear data is a response and
what follows it. -/
def Carries (frame : Frame) (pagedLen : Nat) (response : Response) : Prop :=
  ∃ paged rest, paged.length = pagedLen ∧
    frame.drop udpHeaderLen ++ paged = response.record ++ rest

theorem Carries.cutOff {frame : Frame} {pagedLen : Nat} {response : Response}
    (carries : Carries frame pagedLen response) : CutOff frame response := by
  obtain ⟨paged, rest, _, whole⟩ := carries
  exact ⟨rest, ⟨paged, whole⟩⟩

/-- An entry that is served as it is. -/
structure BmcCacheEntry.WellFormed (entry : BmcCacheEntry) (slot : Slot) :
    Prop where
  fits : entry.len ≤ maxCacheDataSize
  starts : valueMark <+: entry.record
  lines : entry.record.count newline = 2
  ended : entry.data[entry.len - 1]? = some newline
  hashed : entry.hash = fnv1a (responseKey entry.data)
  slotEq : entry.hash.toNat % cacheEntryCount = slot.val

theorem eq_of_same_lines (whole : List UInt8) {first second : List UInt8}
    (firstStarts : first <+: whole) (secondStarts : second <+: whole)
    (lines : first.count newline = second.count newline)
    (firstEnds : first.getLast? = some newline)
    (secondEnds : second.getLast? = some newline) : first = second := by
  have shorter : ∀ {short long : List UInt8}, short <+: long →
      short.count newline = long.count newline → long.getLast? = some newline →
      short = long := by
    rintro short _ ⟨tail, rfl⟩ same ends
    rw [List.count_append] at same
    cases tail using List.reverseRecOn with
    | nil => simp
    | append_singleton tail last =>
        rw [← List.append_assoc, List.getLast?_concat, Option.some.injEq] at ends
        rw [ends, List.count_append] at same
        have one : [newline].count newline = 1 := rfl
        omega
  rcases List.prefix_or_prefix_of_prefix firstStarts secondStarts with before | after
  · exact shorter before lines secondEnds
  · exact (shorter after lines.symm firstEnds).symm

/-- What is copied up to the second newline has the whole key, and the space
after it. -/
theorem keyPart_isPrefix_copied {frame : Frame} {response : Response}
    {copied : List UInt8} (cutOff : CutOff frame response)
    (start : copied <+: frame.drop udpHeaderLen)
    (lines : 0 < copied.count newline) : response.keyPart <+: copied := by
  obtain ⟨rest, inside⟩ := cutOff
  have inRecord : response.keyPart <+: response.record ++ rest :=
    response.keyPart_isPrefix.trans (List.prefix_append ..)
  rcases List.prefix_or_prefix_of_prefix inRecord (start.trans inside) with
    before | after
  · exact before
  · have none := List.count_eq_zero.mpr fun member =>
      response.newline_notMem_keyPart (after.subset member)
    omega

theorem Response.token {response : Response} {bytes : List UInt8}
    (starts : response.keyPart <+: bytes) :
    Token (· != space) (bytes.drop 6) response.key space := by
  obtain ⟨rest, rfl⟩ := starts
  refine ⟨⟨rest, ?_⟩, ?_, by decide⟩
  · simp only [Response.keyPart, List.append_assoc,
      show 6 = valueMark.length from rfl, List.drop_left]
    rfl
  · intro byte member
    have plain := response.keyPlain byte member
    simp only [isPlain, Bool.and_eq_true] at plain
    exact plain.1.1

theorem Response.responseKey_eq {response : Response} {bytes : List UInt8}
    (starts : response.keyPart <+: bytes) :
    responseKey bytes = response.key.take (maxKeyLength - 6) := by
  have token := response.token starts
  rcases Nat.lt_or_ge response.key.length (maxKeyLength - 6) with short | long
  · rw [List.take_of_length_le short.le]
    exact (token.take short).takeWhile_eq
  · obtain ⟨⟨rest, shape⟩, inside, _⟩ := token
    rw [responseKey, shape, List.take_append_of_le_length long,
      List.takeWhile_eq_self_iff]
    exact fun byte member => inside byte (List.mem_of_mem_take member)

/-! The steps that keep every entry well formed. -/

/-- What the server sends that starts like a response is one, and may be cut
off. -/
def Event.Served : Event → Prop
  | .rx _ _ _ _ => True
  | .tx _ frame _ => IsResponse frame → ∃ response, CutOff frame response

/-- A response that refills a valid entry reaches its second newline within the
bytes that are copied. -/
def Event.Completes (world : World) : Event → Prop
  | .rx _ _ _ _ => True
  | .tx _ frame pagedLen => ∀ slot, Bmc.Refills world.mapKcache frame pagedLen slot →
      (world.mapKcache slot).valid = 1 →
      2 ≤ ((frame.drop udpHeaderLen).take maxCacheDataSize).count newline

theorem IsResponse.copied_lines {frame : Frame} (response : IsResponse frame)
    (pagedLen : Nat)
    (lines : 2 ≤ ((frame.drop udpHeaderLen).take maxCacheDataSize).count newline) :
    (copyPayload (frame.length + pagedLen) (frame.drop udpHeaderLen)).2 = 2 := by
  have copies := response.copies pagedLen
  have counted := copies.counted
  have atMost := copies.atMost
  by_contra other
  rw [copies.whole (by omega)] at counted
  omega

theorem refilled_wellFormed {cache : MapKcache} {frame : Frame} {pagedLen : Nat}
    {slot : Slot} (refills : Refills cache frame pagedLen slot)
    {response : Response} (cutOff : CutOff frame response)
    (lines : (copyPayload (frame.length + pagedLen)
      (frame.drop udpHeaderLen)).2 = 2) :
    (refilled cache frame pagedLen slot).WellFormed slot := by
  have copies := refills.response.copies pagedLen
  have record : (refilled cache frame pagedLen slot).record =
      (copyPayload (frame.length + pagedLen) (frame.drop udpHeaderLen)).1 :=
    BmcCacheEntry.record_refill ..
  have hash : (refilled cache frame pagedLen slot).hash =
      fnv1a (responseKey (frame.drop udpHeaderLen)) :=
    if_pos lines
  set entry := refilled cache frame pagedLen slot
  rw [← record, lines] at copies
  have counted : entry.record.count newline = 2 := by
    have := copies.counted
    omega
  have payload : entry.record <+: frame.drop udpHeaderLen :=
    copies.start.trans (List.take_prefix _ _)
  have keyPart := keyPart_isPrefix_copied cutOff payload (by omega)
  have stored : entry.record <+: entry.data := List.take_prefix _ _
  refine ⟨length_copyPayload_le _ _,
    copies.valueMark_isPrefix refills.response.2.2, counted, ?_, ?_, ?_⟩
  · have last : entry.record.getLast? = some newline :=
      (copies.ended rfl).resolve_left (by decide)
    have inData : entry.len ≤ maxPacketLength :=
      (length_copyPayload_le _ _).trans (by decide)
    have nonempty : 0 < entry.record.length := by
      rw [List.length_pos_iff]
      intro none
      rw [none] at last
      cases last
    rw [BmcCacheEntry.length_record inData] at nonempty
    rw [List.getLast?_eq_getElem?, BmcCacheEntry.length_record inData,
      BmcCacheEntry.record, List.getElem?_take_of_lt (by omega)] at last
    exact last
  · rw [hash, Response.responseKey_eq (keyPart.trans payload),
      Response.responseKey_eq (keyPart.trans stored)]
  · rw [hash, refills.slotEq]
    rfl

theorem valid_refilled {cache : MapKcache} {frame : Frame} {pagedLen : Nat}
    {slot : Slot}
    (cut : (copyPayload (frame.length + pagedLen)
      (frame.drop udpHeaderLen)).2 ≠ 2) :
    (refilled cache frame pagedLen slot).valid = (cache slot).valid :=
  if_neg cut

def WellFormed (world : World) : Prop :=
  ∀ slot, (world.mapKcache slot).valid = 1 →
    (world.mapKcache slot).WellFormed slot

theorem WellFormed.zero : WellFormed .zero :=
  fun _ valid => absurd valid (by decide : (0 : UInt8) ≠ 1)

theorem Refills.copied_lines {world : World} {cpu : Nat} {frame : Frame} {pagedLen : Nat}
    {slot : Slot} (completes : (Event.tx cpu frame pagedLen).Completes world)
    (refills : Refills world.mapKcache frame pagedLen slot)
    (valid : (refilled world.mapKcache frame pagedLen slot).valid = 1) :
    (copyPayload (frame.length + pagedLen) (frame.drop udpHeaderLen)).2 = 2 := by
  by_contra cut
  rw [valid_refilled cut] at valid
  exact cut (refills.response.copied_lines pagedLen (completes slot refills valid))

theorem WellFormed.after {world : World} (wellFormed : WellFormed world)
    {event : Event} (served : event.Served) (completes : event.Completes world) :
    WellFormed (world.after event) := by
  intro slot valid
  rcases world.after_cases event slot with
    ⟨cpu, frame, pagedLen, rfl, refills, entry⟩ | ⟨_, entry⟩ | ⟨_, _, entry⟩
  · rw [entry] at valid ⊢
    obtain ⟨response, cutOff⟩ := served refills.response
    exact refilled_wellFormed refills cutOff (refills.copied_lines completes valid)
  · rw [entry] at valid
    exact absurd valid (world.mapKcache slot).valid_invalidate
  · rw [entry] at valid ⊢
    exact wellFormed slot valid

theorem reachable_wellFormed {history : List Event} {world : World}
    (served : ∀ event ∈ history, event.Served)
    (completes : EveryStep step (fun world event => event.Completes world) .zero
      history)
    (run : exec step .zero history = some world) : WellFormed world := by
  induction history using List.reverseRecOn generalizing world with
  | nil => exact Option.some.inj run ▸ WellFormed.zero
  | append_singleton history event induction =>
      obtain ⟨earlier, ran, taken⟩ := exec_concat.mp run
      obtain rfl := Option.some.inj taken
      obtain ⟨before, last⟩ := (everyStep_append _ _ _).mp completes
      have wellFormed := induction
        (fun event member => served event (List.mem_append_left _ member))
        before ran
      exact wellFormed.after (served event (by simp)) (last earlier ran).1

/-- Along a run whose responses all complete, every valid entry is well formed in
every world that the run goes through. -/
theorem entries_wellFormed (before later : List Event) {world : World}
    (served : ∀ event ∈ before ++ later, event.Served)
    (completes : EveryStep step (fun world event => event.Completes world) .zero
      (before ++ later))
    (run : exec step .zero before = some world) {slot : Slot}
    (valid : (world.mapKcache slot).valid = 1) :
    (world.mapKcache slot).WellFormed slot :=
  reachable_wellFormed
    (fun event member => served event (List.mem_append_left _ member))
    ((everyStep_append _ _ _).mp completes).1 run slot valid

theorem plain_zero : ∀ byte ∈ [48], isPlain byte = true :=
  List.all_eq_true.mp rfl

/-- The keys `eqc` and `qbj` share a slot. -/
def firstResponse : Response :=
  ⟨[101, 113, 99], [48], [120], by decide, List.all_eq_true.mp rfl, plain_zero⟩

def secondResponse : Response :=
  ⟨[113, 98, 106], [48], [120, 121], by decide, List.all_eq_true.mp rfl,
    plain_zero⟩

def Response.datagram (response : Response) (size : Nat) : Frame :=
  .between 17 udpHeaderLen memcachedPort 40000 (response.record.take size)

theorem entries_wellFormed_same_key :
    ∃ world, exec step .zero
        [.tx 0 (secondResponse.datagram 18) 0, .tx 0 (firstResponse.datagram 99) 0,
          .tx 1 (firstResponse.datagram 16) 0] = some world ∧
      (world.mapKcache (slotOf (fnv1a firstResponse.key))).valid = 1 ∧
      (world.mapKcache (slotOf (fnv1a firstResponse.key))).WellFormed
        (slotOf (fnv1a firstResponse.key)) := by
  refine ⟨_, rfl, by decide +kernel, ?_⟩
  refine entries_wellFormed
    [.tx 0 (secondResponse.datagram 18) 0, .tx 0 (firstResponse.datagram 99) 0,
      .tx 1 (firstResponse.datagram 16) 0] [] ?_ ?_ rfl (by decide +kernel)
  · simp only [List.append_nil, List.forall_mem_cons]
    exact ⟨fun _ => ⟨secondResponse, [], by decide +kernel⟩,
      fun _ => ⟨firstResponse, [], by decide +kernel⟩,
      fun _ => ⟨firstResponse, [], by decide +kernel⟩, by simp⟩
  · refine ⟨fun slot refills valid => ?_, fun _ _ _ => by decide +kernel,
      fun slot refills _ => ?_, trivial⟩
    · cases valid
    · -- the entry is found up to date
      have stale := refills.stale
      rw [refills.slotEq] at stale
      exact absurd stale (by decide +kernel)

/-- A response for `qbj` that is cut off after a response for `eqc`: the entry
stays valid, with one line and the hash of the other key. -/
theorem cut_response_spoils_entry :
    ¬ ∀ (history : List Event) (world : World) (slot : Slot),
      (∀ event ∈ history, event.Served) → exec step .zero history = some world →
      (world.mapKcache slot).valid = 1 →
      (world.mapKcache slot).WellFormed slot := by
  intro always
  have spoiled := always
    [.tx 0 (firstResponse.datagram 99) 0, .tx 0 (secondResponse.datagram 18) 0]
    _ (slotOf (fnv1a firstResponse.key)) ?_ rfl (by decide +kernel)
  · exact absurd spoiled.lines (by decide +kernel)
  · simp only [List.forall_mem_cons]
    exact ⟨fun _ => ⟨firstResponse, [], by decide +kernel⟩,
      fun _ => ⟨secondResponse, [], by decide +kernel⟩, by simp⟩

end Rex.Bmc
