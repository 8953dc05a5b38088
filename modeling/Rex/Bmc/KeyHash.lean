import Rex.Bmc.Client

namespace Rex.Bmc

open Bytes Effect Program Rex.Frame

/-! The hashes under which the three programs look for a key: `hash_key` for a
request, `bmc_invalidate_cache` for a SET, and `bmc_update_cache` for a response
of the server. -/

def setHash (request : List UInt8) : UInt32 :=
  fnv1a (request.takeWhile (· != space))

def responseHash (frame : Frame) (pagedLen : Nat) : Option UInt32 :=
  hashResponse (frame.length + pagedLen) (maxKeyLength - 6) 6
    ((frame.drop udpHeaderLen).drop 6) fnvOffsetBasis32

def LooksUp (notes : List Note) (slot : Slot) : Prop :=
  ∀ other, .lookup other ∈ notes ↔ other = slot

structure PlainKey (key : List UInt8) : Prop where
  nonempty : key ≠ []
  short : key.length ≤ maxKeyLength
  plain : ∀ byte ∈ key, byte ≠ space ∧ byte ≠ carriageReturn ∧ byte ≠ newline

section Paths

variable {key : List UInt8} {frame : Frame}

theorem PlainKey.isKey (plain : PlainKey key) :
    ∀ byte ∈ key, isKeyByte byte = true := by
  intro byte member
  obtain ⟨noSpace, noReturn, _⟩ := plain.plain byte member
  simp [isKeyByte, noSpace, noReturn]

theorem hashResponse_key {skbLen : Nat} {rest : List UInt8}
    (isKey : ∀ byte ∈ key, isKeyByte byte = true) (fuel off : Nat) (hash : UInt32)
    (linear : udpHeaderLen + off + (key ++ space :: rest).length ≤ skbLen) :
    hashResponse skbLen fuel off (key ++ space :: rest) hash =
      some ((key.take fuel).foldl hashFunc hash) := by
  induction key generalizing fuel off hash with
  | nil =>
      cases fuel with
      | zero => rfl
      | succ fuel =>
          have inside : udpHeaderLen + off < skbLen := by
            simp only [List.nil_append, List.length_cons] at linear
            omega
          simp [hashResponse, inside]
  | cons byte key induction =>
      cases fuel with
      | zero => rfl
      | succ fuel =>
          rw [List.cons_append, List.length_cons] at linear
          have inside : udpHeaderLen + off < skbLen := by omega
          have other : byte ≠ space := by
            rintro rfl
            exact absurd (isKey space List.mem_cons_self) (by decide)
          rw [List.cons_append, hashResponse, if_pos inside]
          simp only [if_pos other, List.take_succ_cons, List.foldl_cons]
          exact induction
            (fun byte member => isKey byte (List.mem_cons_of_mem _ member)) fuel
            (off + 1) (hashFunc hash byte) (by omega)

theorem responseHash_eq {rest : List UInt8} (plain : PlainKey key)
    (value : frame.drop udpHeaderLen = valueMark ++ (key ++ space :: rest))
    (pagedLen : Nat) :
    responseHash frame pagedLen = some (fnv1a (key.take (maxKeyLength - 6))) := by
  have length := congrArg List.length value
  rw [List.length_drop, List.length_append, show valueMark.length = 6 from rfl]
    at length
  rw [responseHash, value, show 6 = valueMark.length from rfl, List.drop_left]
  exact hashResponse_key plain.isKey _ _ _ (by
    rw [show valueMark.length = 6 from rfl]
    omega)

theorem setHash_eq (plain : PlainKey key) (rest : List UInt8) :
    setHash (key ++ space :: rest) = fnv1a key := by
  rw [setHash, takeWhile_key plain.isKey]

theorem requestHash_eq {padding : List UInt8} (plain : PlainKey key)
    (get : IsGet frame)
    (request : frame.drop udpHeaderLen =
      getCommand ++ (key ++ carriageReturn :: newline :: padding))
    (world : World) (cpu : Nat) (kernel : Kernel) (fuel : Nat) :
    let final := (world.handle (.rx cpu frame kernel (fuel + 1))).2
    (final.cpu.mapKeys ⟨0, by decide⟩).hash = fnv1a key ∧
      LooksUp final.notes (slotOf (fnv1a key)) := by
  have scanned := scan_of_request request plain.nonempty plain.short plain.isKey
  by_cases present : world.mapKcache.Matches key
  · obtain ⟨mapKeys, stored, held, control⟩ :=
      control_hit world cpu kernel fuel get plain.nonempty scanned present
    generalize world.handle (.rx cpu frame kernel (fuel + 1)) = ran at control
    have keys : ran.2.cpu.mapKeys = mapKeys := congrArg Prod.snd control
    constructor
    · rw [keys, held]
      rfl
    · intro other
      rw [mem_notes_iff rfl, control]
      simp
  · obtain ⟨counted, _, sameCache, fresh, ran⟩ :=
      handle_single world cpu kernel fuel get plain.nonempty scanned
    rw [if_neg present, run_pure] at ran
    rw [ran]
    constructor
    · have missed : ¬ counted.mapKcache.Matches key := sameCache ▸ present
      simp only [State.parsed, State.probed, State.mapKcache_setKey,
        State.mapKcache_note, if_neg missed, State.mapKeys_bump,
        State.mapKeys_note, State.mapKeys_setKey_self]
    · intro other
      simp [fresh]

theorem lookups_response (response : IsResponse frame) (world : World) (cpu : Nat)
    (pagedLen : Nat) {hash : UInt32} (hashed : responseHash frame pagedLen = some hash) :
    LooksUp (world.handle (.tx cpu frame pagedLen)).2.notes (slotOf hash) := by
  intro other
  have started : IsResponse (world.start cpu frame).dataSlice := response
  have found : responseHash (world.start cpu frame).dataSlice pagedLen = some hash :=
    hashed
  rw [World.handle, run_xdpTxFilter_response pagedLen started, run_bind_pure_snd,
    bmcUpdateCache_notes _ _ found]
  simp [World.start]

end Paths

/-- The three programs hash a key alike exactly if the part of it that
`bmc_update_cache` hashes has the hash of the whole key.  Each of them looks for
the key in the slot of its own hash. -/
theorem key_hashes_agree_iff {key : List UInt8} (plain : PlainKey key)
    {frame : Frame} {padding : List UInt8} (get : IsGet frame)
    (request : frame.drop udpHeaderLen =
      getCommand ++ (key ++ carriageReturn :: newline :: padding))
    {segment : Frame} {before rest : List UInt8}
    (sets : segment.drop tcpHeaderLen =
      before ++ setCommand ++ (key ++ space :: rest))
    {response : Frame} {after : List UInt8} (isResponse : IsResponse response)
    (value : response.drop udpHeaderLen = valueMark ++ (key ++ space :: after))
    (world : World) (cpu : Nat) (kernel : Kernel) {fuel : Nat} (enough : 1 ≤ fuel)
    (pagedLen : Nat) :
    let asked := (world.handle (.rx cpu frame kernel fuel)).2
    let requestHash := (asked.cpu.mapKeys ⟨0, by decide⟩).hash
    (setHash (key ++ space :: rest) = requestHash ∧
          responseHash response pagedLen = some requestHash ↔
        key.length ≤ maxKeyLength - 6 ∨
          fnv1a (key.take (maxKeyLength - 6)) = fnv1a key) ∧
      LooksUp asked.notes (slotOf requestHash) ∧
      (key ++ space :: rest ∈ setRequests (segment.drop tcpHeaderLen) ∧
        ∀ state, state.notes = [] →
          LooksUp ((invalidateOne (key ++ space :: rest)).run state).2.notes
            (slotOf (setHash (key ++ space :: rest)))) ∧
      ∀ hash, responseHash response pagedLen = some hash →
        LooksUp (world.handle (.tx cpu response pagedLen)).2.notes (slotOf hash) := by
  obtain ⟨fuel, rfl⟩ := Nat.exists_eq_add_of_le' enough
  obtain ⟨kept, looked⟩ :=
    requestHash_eq plain get request world cpu kernel fuel
  simp only [kept, setHash_eq plain, responseHash_eq plain value, Option.some.injEq,
    true_and]
  refine ⟨?_, looked, ⟨mem_setRequests_iff.mpr ⟨before, sets⟩, ?_⟩, ?_⟩
  · refine ⟨.inr, ?_⟩
    rintro (fits | same)
    · rw [List.take_of_length_le fits]
    · exact same
  · intro state fresh slot
    obtain ⟨final, ran, _, _, _, lookups⟩ :=
      run_invalidateOne (key ++ space :: rest) state
    rw [ran, lookups, fresh, requestSlot, takeWhile_key plain.isKey]
    simp
  · rintro hash rfl
    exact lookups_response isResponse world cpu pagedLen
      (responseHash_eq plain value pagedLen)

theorem key_hashes_agree_iff_short :
    setHash ([107] ++ space :: [48]) =
        ((World.zero.handle (.rx 0 (getFrame [107, 13, 10]) willing 1)).2.cpu.mapKeys
          ⟨0, by decide⟩).hash ∧
      responseHash (responseFrame [107, 32, 48]) 0 =
        some ((World.zero.handle (.rx 0 (getFrame [107, 13, 10]) willing
          1)).2.cpu.mapKeys ⟨0, by decide⟩).hash := by
  have plain : PlainKey [107] := by
    refine ⟨by decide, by decide +kernel, ?_⟩
    intro byte member
    rw [List.mem_singleton.mp member]
    decide
  have get : IsGet (getFrame [107, 13, 10]) :=
    ⟨by decide +kernel, by decide +kernel, by decide +kernel⟩
  have isResponse : IsResponse (responseFrame [107, 32, 48]) :=
    ⟨by decide +kernel, by decide +kernel, by decide +kernel⟩
  have request : (getFrame [107, 13, 10]).drop udpHeaderLen =
      getCommand ++ ([107] ++ carriageReturn :: newline :: []) := by
    decide +kernel
  have sets : (setFrame [107, 32, 48]).drop tcpHeaderLen =
      [] ++ setCommand ++ ([107] ++ space :: [48]) := by
    decide +kernel
  have value : (responseFrame [107, 32, 48]).drop udpHeaderLen =
      valueMark ++ ([107] ++ space :: [48]) := by
    decide +kernel
  exact (key_hashes_agree_iff plain get request sets isResponse value World.zero 0
    willing le_rfl 0).1.mpr (.inl (by decide))

/-- A key of 225 bytes is filed by the server's response under another hash than
the one that invalidates it. -/
theorem long_key_hashes_differ :
    ∃ key response, PlainKey key ∧ IsResponse response ∧
      response.drop udpHeaderLen = valueMark ++ (key ++ space :: [48]) ∧
      responseHash response 0 ≠ some (setHash (key ++ space :: [48])) := by
  have plain : PlainKey (List.replicate 225 97) := by
    refine ⟨by decide, by decide +kernel, ?_⟩
    intro byte member
    rw [List.eq_of_mem_replicate member]
    decide
  have value : (responseFrame (List.replicate 225 97 ++ space :: [48])).drop
      udpHeaderLen = valueMark ++ (List.replicate 225 97 ++ space :: [48]) := by
    decide +kernel
  refine ⟨List.replicate 225 97,
    responseFrame (List.replicate 225 97 ++ space :: [48]), plain,
    ⟨by decide +kernel, by decide +kernel, by decide +kernel⟩, value, ?_⟩
  rw [responseHash_eq plain value, setHash_eq plain]
  decide +kernel

end Rex.Bmc
