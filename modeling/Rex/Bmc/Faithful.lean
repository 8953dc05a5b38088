import Rex.Bmc.Records

namespace Rex.Bmc

open Bytes Effect Program Rex.Frame Machine

/-! A reply from the cache is the record of the key that was asked for. -/

/-- What the server sends that starts like a response is one, of which the first
bytes are in the linear data of the frame. -/
def Event.Sent : Event → Prop
  | .rx _ _ _ _ => True
  | .tx _ frame pagedLen =>
      IsResponse frame → ∃ response, Carries frame pagedLen response

theorem Event.Sent.served {event : Event} (sent : event.Sent) : event.Served := by
  cases event with
  | rx cpu frame kernel fuel => trivial
  | tx cpu frame pagedLen =>
      intro isResponse
      obtain ⟨response, carries⟩ := sent isResponse
      exact ⟨response, carries.cutOff⟩

def BmcCacheEntry.storedKey (entry : BmcCacheEntry) : List UInt8 :=
  (entry.data.drop 6).takeWhile (· != space)

/-- A response completes, and has no newline in its data if it is stored.  A request
does not ask for a key that the one stored under its hash only starts with. -/
def Event.Distinct (world : World) (event : Event) : Prop :=
  event.Completes world ∧
    match event with
    | .tx _ frame pagedLen => ∀ slot, Bmc.Refills world.mapKcache frame pagedLen slot →
        2 ≤ ((frame.drop udpHeaderLen).take maxCacheDataSize).count newline →
        ∀ response, Carries frame pagedLen response → newline ∉ response.data
    | .rx _ frame _ _ => ∀ key, AsksFor key frame → world.mapKcache.Matches key →
        key <+: (world.mapKcache (slotOf (fnv1a key))).storedKey →
        key = (world.mapKcache (slotOf (fnv1a key))).storedKey

theorem BmcCacheEntry.Verifies.isPrefix {entry : BmcCacheEntry} {key : List UInt8}
    (verified : entry.Verifies key) (isKey : ∀ byte ∈ key, isKeyByte byte = true) :
    key <+: entry.storedKey := by
  have starts : key <+: entry.data.drop 6 := by
    rw [← verified.2]
    exact List.take_prefix _ _
  obtain ⟨rest, shape⟩ := starts
  rw [storedKey, ← shape, List.takeWhile_append_of_pos]
  · exact List.prefix_append ..
  · intro byte member
    have := isKey byte member
    simp only [isKeyByte, Bool.and_eq_true] at this
    exact this.2

theorem Response.storedKey_eq {response : Response} {entry : BmcCacheEntry}
    (starts : response.keyPart <+: entry.data) :
    entry.storedKey = response.key :=
  (response.token starts).takeWhile_eq

theorem Copies.eq_record {frame : Frame} {pagedLen : Nat} {response : Response}
    {copied : List UInt8}
    (copies : Copies 0 ((frame.drop udpHeaderLen).take maxCacheDataSize) copied 2)
    (carries : Carries frame pagedLen response) (lines : newline ∉ response.data) :
    copied = response.record := by
  obtain ⟨paged, rest, _, whole⟩ := carries
  have counted := copies.counted
  refine eq_of_same_lines (response.record ++ rest) ?_
    (List.prefix_append ..) ?_ ((copies.ended rfl).resolve_left (by decide))
    response.getLast_record
  · rw [← whole]
    exact copies.start.trans ((List.take_prefix _ _).trans (List.prefix_append ..))
  · rw [response.count_record, List.count_eq_zero.mpr lines]
    omega

theorem Origin.response {history : List Event} {world : World} {slot : Slot}
    {cpu : Nat} {frame : Frame} {pagedLen : Nat} {later : List Event}
    {middle : World} (sent : ∀ event ∈ history, event.Sent)
    (distinct : EveryStep step (fun world event => event.Distinct world) .zero
      history)
    (valid : (world.mapKcache slot).valid = 1)
    (origin : Origin history world slot cpu frame pagedLen later middle) :
    ∃ response, Carries frame pagedLen response ∧
      (world.mapKcache slot).record = response.record ∧
      (world.mapKcache slot).storedKey = response.key := by
  obtain ⟨before, rfl, ran⟩ := origin.split
  obtain ⟨distinctBefore, now⟩ := (everyStep_append _ _ _).mp distinct
  obtain ⟨⟨completes, noNewline⟩, _⟩ := now middle ran
  have isResponse := origin.refills.response
  obtain ⟨response, carries⟩ := sent (.tx cpu frame pagedLen) (by simp) isResponse
  have lines := origin.refills.copied_lines completes (origin.entry ▸ valid)
  have copies := origin.copies
  rw [lines] at copies
  have enough : 2 ≤ ((frame.drop udpHeaderLen).take maxCacheDataSize).count newline := by
    have counted := copies.counted
    have within := copies.start.sublist.count_le newline
    omega
  have record := copies.eq_record carries
    (noNewline slot origin.refills enough response carries)
  refine ⟨response, carries, record, response.storedKey_eq ?_⟩
  have stored : (world.mapKcache slot).record <+: (world.mapKcache slot).data :=
    List.take_prefix _ _
  rw [record] at stored
  exact response.keyPart_isPrefix.trans stored

/-- Along a run whose steps are all distinct, what a GET copies from the cache is
the complete record of an earlier response for the same key. -/
theorem replies_are_records {history : List Event} {world : World} {key : List UInt8}
    {cpu : Nat} {frame : Frame} {kernel : Kernel} {fuel : Nat}
    (sent : ∀ event ∈ history, event.Sent)
    (distinct : EveryStep step (fun world event => event.Distinct world) .zero
      (history ++ [.rx cpu frame kernel fuel]))
    (run : exec step .zero history = some world) (asks : AsksFor key frame)
    {slot : Slot} {record : List UInt8}
    (hit : .copied slot record ∈
      (world.handle (.rx cpu frame kernel fuel)).2.notes) :
    ∃ source datagram pagedLen response,
      .tx source datagram pagedLen ∈ history ∧
      Carries datagram pagedLen response ∧
      response.key = key ∧ record = response.record := by
  obtain ⟨rfl, rfl, valid, hashed, verified⟩ := asks.copied run hit
  obtain ⟨before, last⟩ := (everyStep_append _ _ _).mp distinct
  obtain ⟨source, datagram, pagedLen, later, middle, origin⟩ := valid_origin run valid
  obtain ⟨response, carries, record, stored⟩ := origin.response sent before valid
  obtain ⟨earlier, rfl, _⟩ := origin.split
  refine ⟨source, datagram, pagedLen, response, by simp, carries, ?_, record⟩
  have whole := (last world run).1.2 key asks ⟨valid, hashed⟩
    (verified.isPrefix asks.inside)
  exact stored.symm.trans whole.symm

theorem replies_are_records_first :
    ∃ source datagram pagedLen response,
      .tx source datagram pagedLen ∈ [Event.tx 0 (firstResponse.datagram 99) 0] ∧
      Carries datagram pagedLen response ∧
      response.key = firstResponse.key ∧ firstResponse.record = response.record := by
  have token : Token isKeyByte
      ((getFrame (firstResponse.key ++ [13, 10])).drop
        (keyOffset (getFrame (firstResponse.key ++ [13, 10]))))
      firstResponse.key 13 :=
    ⟨⟨[10], by decide +kernel⟩, List.all_eq_true.mp rfl, by decide⟩
  obtain ⟨world, run, hit⟩ : ∃ world,
      exec step .zero [.tx 0 (firstResponse.datagram 99) 0] = some world ∧
        .copied (slotOf (fnv1a firstResponse.key)) firstResponse.record ∈
          (world.handle (.rx 1 (getFrame (firstResponse.key ++ [13, 10]))
            willing 1)).2.notes :=
    ⟨_, rfl, by decide +kernel⟩
  refine replies_are_records ?_ ?_ run ?_ hit
  · rw [List.forall_mem_singleton]
    exact fun _ => ⟨firstResponse, [], [], rfl, by decide +kernel⟩
  · refine ⟨⟨fun _ _ _ => by decide +kernel, fun _ _ _ response carries => ?_⟩,
      ⟨trivial, fun key asks _ _ => ?_⟩, trivial⟩
    · obtain ⟨paged, rest, size, whole⟩ := carries
      have lines := congrArg (List.count newline) whole
      obtain rfl := List.length_eq_zero_iff.mp size
      rw [List.append_nil, List.count_append, response.count_record,
        show ((firstResponse.datagram 99).drop udpHeaderLen).count newline = 2 by
          decide +kernel] at lines
      rw [← List.count_eq_zero]
      omega
    · obtain rfl := asks.name_eq token (by decide)
      decide +kernel
  · exact ⟨⟨by decide +kernel, by decide +kernel, by decide +kernel⟩, by decide,
      List.all_eq_true.mp rfl, 0, 13, [10], by decide +kernel, .inl rfl⟩

def longResponse : Response :=
  ⟨List.replicate 225 97, [48], [120], by decide +kernel,
    List.all_eq_true.mp (by decide +kernel), plain_zero⟩

/-- The record of a key of 225 bytes answers a request for its first 224. -/
theorem reply_for_another_key :
    ¬ ∀ (history : List Event) (world : World) (key : List UInt8) (cpu : Nat)
      (frame : Frame) (kernel : Kernel) (fuel : Nat) (slot : Slot)
      (record : List UInt8),
      (∀ event ∈ history, event.Sent) → exec step .zero history = some world →
      AsksFor key frame →
      .copied slot record ∈ (world.handle (.rx cpu frame kernel fuel)).2.notes →
      ∃ source datagram pagedLen response,
        .tx source datagram pagedLen ∈ history ∧
        Carries datagram pagedLen response ∧
        response.key = key ∧ record = response.record := by
  intro always
  have sent : ∀ event ∈ [Event.tx 0 (longResponse.datagram 999) 0], event.Sent := by
    rw [List.forall_mem_singleton]
    exact fun _ => ⟨longResponse, [], [], rfl, by decide +kernel⟩
  have asks : AsksFor (List.replicate 224 97)
      (getFrame (List.replicate 224 97 ++ [13, 10])) :=
    ⟨⟨by decide +kernel, by decide +kernel, by decide +kernel⟩,
      by decide +kernel, List.all_eq_true.mp (by decide +kernel), 0, 13, [10],
      by decide +kernel, .inl rfl⟩
  obtain ⟨_, _, _, response, _, _, same, record⟩ :=
    always _ _ _ 0 _ willing 1 (slotOf (fnv1a (List.replicate 224 97)))
      longResponse.record sent rfl asks (by decide +kernel)
  have starts := response.keyPart_isPrefix
  rw [← record, Response.keyPart, same] at starts
  exact absurd starts (by decide +kernel)

end Rex.Bmc
