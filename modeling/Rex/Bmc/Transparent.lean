import Rex.Bmc.Faithful

namespace Rex.Bmc

open Bytes Effect Program Rex.Frame Machine

/-! A GET is answered from the cache or passed on as it came. -/

/-- The record of the key asked for and the end mark are all that follows the
headers, and the key was compared with the entry under its lock. -/
def Replied (world : World) (frame : Frame) (final : State) : Prop :=
  ∃ name, Token isKeyByte (frame.drop (keyOffset frame)) name carriageReturn ∧
    world.mapKcache.Matches name ∧
    (world.mapKcache (slotOf (fnv1a name))).Verifies name ∧
    final.dataSlice.drop udpHeaderLen =
      (world.mapKcache (slotOf (fnv1a name))).record ++ endOfReply ∧
    final.notes = hitNotes (slotOf (fnv1a name))
      (world.mapKcache (slotOf (fnv1a name))).record

/-- A key that is found in the cache by its hash directly follows `get `, ends
its line, is short enough to be compared, and is the one stored. -/
def Answerable (world : World) (frame : Frame) : Prop :=
  ∀ name delimiter, Token isKeyByte (frame.drop (keyOffset frame)) name delimiter →
    name ≠ [] → world.mapKcache.Matches name →
    delimiter = carriageReturn ∧ keyOffset frame = udpHeaderLen + 4 ∧
      (world.mapKcache (slotOf (fnv1a name))).Verifies name

section Transparent

variable {history : List Event} {world : World} {frame : Frame} {kernel : Kernel}

/-- The bytes before the record are those of the headers only when the key
directly follows the command. -/
theorem keyOffset_of_reply {final : Frame} {reply : List UInt8}
    (get : IsGet frame) (nonempty : reply ≠ [])
    (fromKey : final.drop (keyOffset frame - 4) = reply)
    (fromHeaders : final.drop udpHeaderLen = reply) :
    keyOffset frame = udpHeaderLen + 4 := by
  obtain ⟨lower, _⟩ := get.keyOffset_bounds
  have some := List.length_pos_iff.mpr nonempty
  have first := congrArg List.length fromKey
  have second := congrArg List.length fromHeaders
  rw [List.length_drop] at first second
  omega

theorem get_transparent_iff (run : exec step .zero history = some world)
    (get : IsGet frame) (accepts : kernel.refusesTail = false)
    (cpu fuel : Nat) (code : Int32)
    (returned : verdict (world.handle (.rx cpu frame kernel fuel)).1 = some code) :
    (code = xdpTx ∧
        Replied world frame (world.handle (.rx cpu frame kernel fuel)).2 ∨
      code = xdpPass ∧
        (world.handle (.rx cpu frame kernel fuel)).2.dataSlice = frame) ↔
      Answerable world frame := by
  have outcome := IsGet.outcome (world.start cpu frame) get kernel fuel
    (reachable_fits run)
  change GetOutcome kernel _ (keyOffset frame)
    (world.handle (.rx cpu frame kernel fuel)) at outcome
  generalize world.handle (.rx cpu frame kernel fuel) = ran at outcome returned
  cases outcome with
  | stopped idle none =>
      rw [none] at returned
      cases returned
  | passed idle missed =>
      obtain rfl := Option.some.inj returned
      refine iff_of_true (.inr ⟨rfl, idle.frame⟩) ?_
      intro name delimiter token nonempty present
      exact absurd present (missed name delimiter token nonempty)
  | @aborted name final idle token nonempty present =>
      obtain rfl := Option.some.inj returned
      refine iff_of_false ?_ ?_
      · rintro (⟨wrong, _⟩ | ⟨wrong, _⟩)
        · exact absurd wrong (by decide)
        · exact absurd wrong (by decide)
      · intro answerable
        exact absurd (answerable name space token nonempty present).1 (by decide)
  | @echoed name final silent token nonempty present unverified turned =>
      obtain rfl := Option.some.inj returned
      refine iff_of_false ?_ ?_
      · rintro (⟨_, other, otherToken, _, verified, _⟩ | ⟨wrong, _⟩)
        · rw [(token.unique otherToken).1] at verified
          exact unverified verified
        · exact absurd wrong (by decide)
      · intro answerable
        exact unverified (answerable name carriageReturn token nonempty present).2.2
  | @answered name final token nonempty present verified carried noted =>
      obtain rfl := Option.some.inj returned
      constructor
      · rintro (⟨_, other, otherToken, _, _, whole, _⟩ | ⟨wrong, _⟩)
        · rw [(token.unique otherToken).1] at whole
          have offset := keyOffset_of_reply get (by simp [endOfReply]) carried whole
          intro again delimiter againToken _ _
          obtain ⟨rfl, rfl⟩ := token.unique againToken
          exact ⟨rfl, offset, verified⟩
        · exact absurd wrong (by decide)
      · intro answerable
        obtain ⟨_, offset, _⟩ :=
          answerable name carriageReturn token nonempty present
        rw [offset] at carried
        exact .inl ⟨rfl, name, token, present, verified, carried, noted⟩
  | refused refuses silent =>
      rw [accepts] at refuses
      cases refuses

end Transparent

theorem get_transparent_iff_hit :
    ∃ world, exec step .zero [.tx 0 (firstResponse.datagram 99) 0] = some world ∧
      Answerable world (getFrame (firstResponse.key ++ [13, 10])) := by
  refine ⟨_, rfl, ?_⟩
  have run : exec step .zero [.tx 0 (firstResponse.datagram 99) 0] =
    some (World.zero.after (.tx 0 (firstResponse.datagram 99) 0)) := rfl
  have token : Token isKeyByte ((getFrame (firstResponse.key ++ [13, 10])).drop
      (keyOffset (getFrame (firstResponse.key ++ [13, 10])))) firstResponse.key 13 :=
    ⟨⟨[10], by decide +kernel⟩, List.all_eq_true.mp rfl, by decide⟩
  refine (get_transparent_iff run
    ⟨by decide +kernel, by decide +kernel, by decide +kernel⟩
    (rfl : willing.refusesTail = false) 1 1 xdpTx (by decide +kernel)).mp ?_
  exact .inl ⟨rfl, firstResponse.key, token, by decide +kernel, by decide +kernel,
    by decide +kernel, by decide +kernel⟩

/-- `liquid`, which has the hash of `costarring`. -/
def liquidResponse : Response :=
  ⟨[108, 105, 113, 117, 105, 100], [48], [120], by decide, List.all_eq_true.mp rfl,
    plain_zero⟩

def costarring : List UInt8 :=
  [99, 111, 115, 116, 97, 114, 114, 105, 110, 103]

/-- With `liquid` in the cache, a request for `costarring` is sent back with its
headers turned around. -/
theorem get_echoed :
    ¬ ∀ (history : List Event) (world : World) (frame : Frame) (kernel : Kernel)
      (cpu fuel : Nat) (code : Int32),
      exec step .zero history = some world → IsGet frame →
      kernel.refusesTail = false →
      verdict (world.handle (.rx cpu frame kernel fuel)).1 = some code →
      code = xdpTx ∧
          Replied world frame (world.handle (.rx cpu frame kernel fuel)).2 ∨
        code = xdpPass ∧
          (world.handle (.rx cpu frame kernel fuel)).2.dataSlice = frame := by
  intro always
  have token : Token isKeyByte ((getFrame (costarring ++ [13, 10])).drop
      (keyOffset (getFrame (costarring ++ [13, 10])))) costarring 13 :=
    ⟨⟨[10], by decide +kernel⟩, List.all_eq_true.mp rfl, by decide⟩
  rcases always [.tx 0 (liquidResponse.datagram 99) 0] _
      (getFrame (costarring ++ [13, 10])) willing 1 1 xdpTx rfl
      ⟨by decide +kernel, by decide +kernel, by decide +kernel⟩ rfl
      (by decide +kernel) with ⟨_, name, found, _, verified, _⟩ | ⟨wrong, _⟩
  · rw [(token.unique found).1] at verified
    exact absurd verified (by decide +kernel)
  · exact absurd wrong (by decide)

end Rex.Bmc
