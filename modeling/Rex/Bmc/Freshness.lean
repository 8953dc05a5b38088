import Mathlib.Data.List.Infix
import Rex.Bmc.History

namespace Rex.Bmc

open Bytes Effect Program Rex.Frame Machine

/-! A reply from the cache is never older than the last SET of its key. -/

/-- A GET whose first key is `key`, after any number of further spaces. -/
structure AsksFor (key : List UInt8) (frame : Frame) : Prop where
  get : IsGet frame
  proper : key ≠ []
  inside : ∀ byte ∈ key, isKeyByte byte = true
  line : ∃ spaces stopper rest,
    frame.drop udpHeaderLen = getCommand ++ List.replicate spaces space ++
      (key ++ stopper :: rest) ∧
    (stopper = carriageReturn ∨ stopper = space)

def Event.SetsKey (key : List UInt8) : Event → Prop
  | .rx _ frame _ _ => frame.protocol = ipprotoTcp ∧
      frame.destPort = memcachedPort ∧
      setCommand ++ key ++ [space] <:+: frame.drop tcpHeaderLen
  | .tx _ _ _ => False

theorem takeWhile_key {key : List UInt8} (isKey : ∀ byte ∈ key, isKeyByte byte = true)
    (rest : List UInt8) :
    (key ++ space :: rest).takeWhile (· != space) = key := by
  rw [List.takeWhile_append_of_pos, List.takeWhile_cons_of_neg (by decide),
    List.append_nil]
  intro byte member
  have := isKey byte member
  simp only [isKeyByte, Bool.and_eq_true] at this
  exact this.2

theorem Event.SetsKey.invalidates {key : List UInt8}
    (isKey : ∀ byte ∈ key, isKeyByte byte = true) {event : Event}
    (sets : event.SetsKey key) : event.Invalidates (slotOf (fnv1a key)) := by
  cases event with
  | tx cpu frame pagedLen => exact sets.elim
  | rx cpu frame kernel fuel =>
      obtain ⟨protocol, port, before, after, shape⟩ := sets
      have long := congrArg List.length shape
      simp only [List.length_append, List.length_drop, List.length_singleton] at long
      have mark : setCommand.length = 4 := rfl
      refine ⟨⟨protocol, port, by omega⟩, List.mem_map.mpr
        ⟨key ++ space :: after, ?_, ?_⟩⟩
      · exact mem_setRequests_iff.mpr ⟨before, by rw [← shape]; simp⟩
      · rw [requestSlot, takeWhile_key isKey]

theorem skipSpaces_replicate (fuel off spaces : Nat) (before rest : List UInt8)
    (start : before.length = off) {byte next : UInt8} (other : byte ≠ space) :
    skipSpaces (before ++ List.replicate spaces space ++ byte :: next :: rest)
      fuel off = off + min fuel spaces := by
  induction fuel generalizing off spaces before with
  | zero => simp [skipSpaces]
  | succ fuel induction =>
      rw [skipSpaces]
      cases spaces with
      | zero =>
          rw [if_neg, Nat.min_zero, Nat.add_zero]
          rintro ⟨_, found⟩
          rw [List.replicate_zero, List.append_nil, ← start] at found
          simp only [List.getElem?_append_right le_rfl, Nat.sub_self,
            List.getElem?_cons_zero, Option.some.injEq] at found
          exact other found
      | succ spaces =>
          rw [if_pos]
          · have shifted := induction (off + 1) spaces (before ++ [space])
              (by simp [start])
            have same : before ++ List.replicate (spaces + 1) space ++
                byte :: next :: rest =
                  before ++ [space] ++ List.replicate spaces space ++
                    byte :: next :: rest := by
              simp [List.replicate_succ]
            rw [same, shifted]
            omega
          · refine ⟨by simp; omega, ?_⟩
            rw [← start, List.append_assoc]
            simp [List.replicate_succ]

section Line

variable {key rest : List UInt8} {stop : UInt8} {spaces : Nat} {frame : Frame}
  (line : frame.drop udpHeaderLen = getCommand ++ List.replicate spaces space ++
    (key ++ stop :: rest))
  (proper : key ≠ []) (inside : ∀ byte ∈ key, isKeyByte byte = true)

include line proper inside

theorem keyOffset_of_line :
    keyOffset frame = udpHeaderLen + (4 + min (maxPacketLength - 4) spaces) := by
  obtain ⟨byte, tail, rfl⟩ := List.exists_cons_of_ne_nil proper
  obtain ⟨next, more, follows⟩ : ∃ next more, tail ++ stop :: rest = next :: more :=
    List.exists_cons_of_ne_nil (by simp)
  have other : byte ≠ space := by
    rintro rfl
    exact absurd (inside space List.mem_cons_self) (by decide)
  rw [keyOffset, Nat.add_comm, line, List.cons_append, follows, firstKeyOffset,
    skipSpaces_replicate _ 4 spaces getCommand more rfl other]

theorem drop_keyOffset_of_line :
    frame.drop (keyOffset frame) =
      List.replicate (spaces - min (maxPacketLength - 4) spaces) space ++
        (key ++ stop :: rest) := by
  rw [keyOffset_of_line line proper inside, ← List.drop_drop, line,
    List.append_assoc, show 4 = getCommand.length from rfl,
    List.drop_length_add_append, List.drop_append_of_le_length (by simp),
    List.drop_replicate]

/-- A loop that gives up among the spaces finds no key there. -/
theorem spaces_le_of_token {name : List UInt8} {stopper : UInt8}
    (token : Token isKeyByte (frame.drop (keyOffset frame)) name stopper)
    (nonempty : name ≠ []) : spaces ≤ maxPacketLength - 4 := by
  by_contra many
  obtain ⟨left, shape⟩ : ∃ left,
      spaces - min (maxPacketLength - 4) spaces = left + 1 :=
    Nat.exists_eq_succ_of_ne_zero (by omega)
  rw [drop_keyOffset_of_line line proper inside, shape, List.replicate_succ,
    List.cons_append] at token
  exact absurd (Token.unique ⟨⟨_, rfl⟩, by simp, by decide⟩ token).1 nonempty

theorem token_of_line (few : spaces ≤ maxPacketLength - 4)
    (stops : isKeyByte stop = false) :
    Token isKeyByte (frame.drop (keyOffset frame)) key stop := by
  refine ⟨⟨rest, ?_⟩, inside, stops⟩
  rw [drop_keyOffset_of_line line proper inside, Nat.min_eq_right few, Nat.sub_self,
    List.replicate_zero, List.nil_append]

end Line

theorem AsksFor.name_eq {key name : List UInt8} {frame : Frame} {stopper : UInt8}
    (asks : AsksFor key frame)
    (token : Token isKeyByte (frame.drop (keyOffset frame)) name stopper)
    (nonempty : name ≠ []) : name = key := by
  obtain ⟨spaces, stop, rest, line, stops⟩ := asks.line
  have few := spaces_le_of_token line asks.proper asks.inside token nonempty
  have stopped : isKeyByte stop = false := by
    rcases stops with rfl | rfl
    · decide
    · decide
  have found := token_of_line line asks.proper asks.inside few stopped
  exact (found.unique token).1

theorem AsksFor.copied {key : List UInt8} {frame : Frame} {history : List Event}
    {world : World} (asks : AsksFor key frame)
    (run : exec step .zero history = some world) {cpu : Nat} {kernel : Kernel}
    {fuel : Nat} {slot : Slot} {record : List UInt8}
    (hit : .copied slot record ∈
      (world.handle (.rx cpu frame kernel fuel)).2.notes) :
    slot = slotOf (fnv1a key) ∧ record = (world.mapKcache slot).record ∧
      (world.mapKcache slot).valid = 1 ∧ (world.mapKcache slot).hash = fnv1a key ∧
      (world.mapKcache slot).Verifies key := by
  have outcome := IsGet.outcome (world.start cpu frame) asks.get kernel fuel
    (reachable_fits run)
  obtain ⟨name, token, nonempty, present, rfl, verified, rfl⟩ :=
    outcome.hit rfl hit
  obtain rfl := asks.name_eq token nonempty
  exact ⟨rfl, rfl, present.1, present.2, verified⟩

/-- Every byte that a GET of `key` copies from the cache comes from one response,
and no SET of the key was handled after that response: it refilled the slot, and
nothing has touched the slot since. -/
theorem replies_follow_last_set {history : List Event} {world : World}
    (run : exec step .zero history = some world) {key : List UInt8} {cpu : Nat}
    {frame : Frame} {kernel : Kernel} {fuel : Nat} (asks : AsksFor key frame)
    {slot : Slot} {record : List UInt8}
    (hit : .copied slot record ∈
      (world.handle (.rx cpu frame kernel fuel)).2.notes) :
    ∃ before source response pagedLen later middle,
      history = before ++ .tx source response pagedLen :: later ∧
      (∀ event ∈ later, ¬ event.SetsKey key) ∧
      exec step .zero before = some middle ∧
      (Event.tx source response pagedLen).Refills middle slot ∧
      Untouched slot (middle.after (.tx source response pagedLen)) later ∧
      record <+: response.drop udpHeaderLen := by
  obtain ⟨rfl, rfl, valid, _⟩ := asks.copied run hit
  obtain ⟨source, response, pagedLen, later, middle, origin⟩ := valid_origin run valid
  obtain ⟨before, split, ran⟩ := origin.split
  refine ⟨before, source, response, pagedLen, later, middle, split, ?_, ran,
    origin.refills, origin.untouched, origin.record_isPrefix⟩
  intro event member sets
  exact origin.untouched.not_invalidates event member
    (sets.invalidates asks.inside)

/-! A client and a server on their usual ports. -/

def willing : Kernel :=
  ⟨false, fun _ => 0, .ok ()⟩

def getFrame (line : List UInt8) : Frame :=
  .between 17 udpHeaderLen 40000 memcachedPort (getCommand ++ line)

def setFrame (line : List UInt8) : Frame :=
  .between 6 tcpHeaderLen 40000 memcachedPort (setCommand ++ line)

def responseFrame (line : List UInt8) : Frame :=
  .between 17 udpHeaderLen memcachedPort 40000 (valueMark ++ line)

def setAndRefill : List Event :=
  [.tx 0 (responseFrame [107, 32, 48, 32, 49, 13, 10, 120, 13, 10]) 0,
    .rx 1 (setFrame [107, 32, 48, 32, 48, 32, 49, 13, 10, 121, 13, 10]) willing 1,
    .tx 0 (responseFrame [107, 32, 48, 32, 49, 13, 10, 121, 13, 10]) 0]

theorem replies_follow_last_set_refilled :
    ∃ before source response pagedLen later middle,
      setAndRefill = before ++ .tx source response pagedLen :: later ∧
      (∀ event ∈ later, ¬ event.SetsKey [107]) ∧
      exec step .zero before = some middle ∧
      (Event.tx source response pagedLen).Refills middle (slotOf (fnv1a [107])) ∧
      Untouched (slotOf (fnv1a [107]))
        (middle.after (.tx source response pagedLen)) later ∧
      valueMark ++ [107, 32, 48, 32, 49, 13, 10, 121, 13, 10] <+:
        response.drop udpHeaderLen := by
  obtain ⟨world, run, hit⟩ : ∃ world,
      exec step .zero setAndRefill = some world ∧
        .copied (slotOf (fnv1a [107]))
            (valueMark ++ [107, 32, 48, 32, 49, 13, 10, 121, 13, 10]) ∈
          (world.handle (.rx 0 (getFrame [107, 13, 10]) willing 1)).2.notes :=
    ⟨_, rfl, by decide +kernel⟩
  refine replies_follow_last_set run ?_ hit
  exact ⟨⟨by decide +kernel, by decide +kernel, by decide +kernel⟩, by decide,
    List.all_eq_true.mp rfl, 0, 13, [10], by decide +kernel, .inl rfl⟩

end Rex.Bmc
