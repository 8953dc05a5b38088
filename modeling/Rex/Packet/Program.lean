import Rex.Data.Bytes
import Rex.Data.Effect
import Rex.Data.LittleEndian
import Rex.Packet.HeaderView

namespace Rex

/-! What packet programs share: how a program ends, the array maps it looks up,
and the headers of the frame it is given. -/

inductive Panic
  | slice
  | overflow
  | unwrap
deriving DecidableEq

/-- How a program stops before its last line: with `Err`, by a panic, or not
by itself at all, when the watchdog finds it in a loop. -/
inductive Stop
  | err (code : Int32)
  | panic (reason : Panic)
  | unfinished
deriving DecidableEq

def xdpDrop : Int32 := 1

def xdpPass : Int32 := 2

def xdpTx : Int32 := 3

def tcActOk : Int32 := 0

def tcActShot : Int32 := 2

/-- The number the generated entry function gives to the kernel: an error code
is returned as if it were a verdict. -/
def verdict : Except Stop Int32 → Option Int32
  | .ok code => some code
  | .error (.err code) => some code
  | .error (.panic _) => none
  | .error .unfinished => none

abbrev RexArrayMap (maxEntries : Nat) (Value : Type) : Type :=
  Fin maxEntries → Value

/-- The reference that a lookup returns is the index of the element. -/
def bpfMapLookupElem (maxEntries key : Nat) : Option (Fin maxEntries) :=
  if inRange : key < maxEntries then
    some ⟨key, inRange⟩
  else
    none

theorem bpfMapLookupElem_eq_some {maxEntries key : Nat}
    (inRange : key < maxEntries) :
    bpfMapLookupElem maxEntries key = some ⟨key, inRange⟩ :=
  dif_pos inRange

abbrev Frame : Type := List UInt8

def bigEndian (bytes : List UInt8) : Nat :=
  LittleEndian.decode bytes.reverse

def toBigEndian (width value : Nat) : List UInt8 :=
  (LittleEndian.encode width value).reverse

@[simp] theorem length_toBigEndian (width value : Nat) :
    (toBigEndian width value).length = width := by
  simp [toBigEndian]

theorem bigEndian_toBigEndian {width value : Nat} (bound : value < 256 ^ width) :
    bigEndian (toBigEndian width value) = value := by
  rw [bigEndian, toBigEndian, List.reverse_reverse,
    LittleEndian.decode_encode bound]

def ipprotoTcp : Nat := 6

def ipprotoUdp : Nat := 17

namespace Frame

open Bytes

/-! Header fields, at the offsets that the header structs give them. -/

def ipStart : Nat := Header.eth.size

def transportStart : Nat := Header.eth.size + Header.ip.size

def headersLen : Nat := transportStart + Header.udp.size

def Holds (frame : Frame) (start : Nat) (header : Header) : Prop :=
  header.size + start ≤ frame.length

instance (frame : Frame) (start : Nat) (header : Header) :
    Decidable (frame.Holds start header) :=
  inferInstanceAs (Decidable (_ ≤ _))

def protocol (frame : Frame) : Nat :=
  bigEndian (field frame (ipStart + 9) 1)

def sourcePort (frame : Frame) : Nat :=
  bigEndian (field frame transportStart 2)

def destPort (frame : Frame) : Nat :=
  bigEndian (field frame (transportStart + 2) 2)

def totLen (frame : Frame) : Nat :=
  bigEndian (field frame (ipStart + 2) 2)

def udpLen (frame : Frame) : Nat :=
  bigEndian (field frame (transportStart + 4) 2)

def swapMacs (frame : Frame) : Frame :=
  exchange frame 0 6

def swapAddrs (frame : Frame) : Frame :=
  exchange frame (ipStart + 12) 4

def swapPorts (frame : Frame) : Frame :=
  exchange frame transportStart 2

/-- The header is read as ten native 16-bit words, and the carries of their sum
are added back once. -/
def computeIpChecksum (header : List UInt8) : Nat :=
  let cleared := put header 10 [0, 0]
  let sum := ((List.range (Header.ip.size / 2)).map fun word =>
    LittleEndian.field cleared (2 * word) 2).sum
  let folded := sum % 2 ^ 16 + sum / 2 ^ 16
  2 ^ 16 - 1 - folded % 2 ^ 16

def setChecksum (frame : Frame) : Frame :=
  put frame (ipStart + 10) (LittleEndian.encode 2
    (computeIpChecksum (field frame ipStart Header.ip.size)))

def setTotLen (frame : Frame) (len : Nat) : Frame :=
  put frame (ipStart + 2) (toBigEndian 2 len)

def setDaddr (frame : Frame) (addr : List UInt8) : Frame :=
  put frame (ipStart + 16) addr

def setDestPort (frame : Frame) (port : List UInt8) : Frame :=
  put frame (transportStart + 2) port

def copyDaddr (frame : Frame) : Frame :=
  put frame (ipStart + 12) (field frame (ipStart + 16) 4)

def copyDestPort (frame : Frame) : Frame :=
  put frame transportStart (field frame (transportStart + 2) 2)

def setUdpLen (frame : Frame) (len : Nat) : Frame :=
  put frame (transportStart + 4) (toBigEndian 2 len)

def clearUdpCheck (frame : Frame) : Frame :=
  put frame (transportStart + 6) [0, 0]

section Edits

variable {frame : Frame}

theorem holds_of_long {start : Nat} {header : Header}
    (long : headersLen ≤ frame.length)
    (inHeaders : header.size + start ≤ headersLen) : frame.Holds start header :=
  inHeaders.trans long

structure HeaderEdit (frame edited : Frame) : Prop where
  length : edited.length = frame.length
  payload : edited.drop (headersLen) =
    frame.drop (headersLen)

theorem HeaderEdit.trans {second third : Frame} (before : HeaderEdit frame second)
    (after : HeaderEdit second third) : HeaderEdit frame third :=
  ⟨after.length.trans before.length, after.payload.trans before.payload⟩

theorem HeaderEdit.drop {edited : Frame} (edit : HeaderEdit frame edited)
    {n : Nat} (beyond : headersLen ≤ n) :
    edited.drop n = frame.drop n := by
  obtain ⟨more, rfl⟩ := Nat.exists_eq_add_of_le beyond
  rw [← List.drop_drop, edit.payload, List.drop_drop]

theorem headerEdit_put {values : List UInt8} {off : Nat}
    (inHeaders : off + values.length ≤ headersLen)
    (long : headersLen ≤ frame.length) :
    HeaderEdit frame (put frame off values) :=
  ⟨length_put (inHeaders.trans long),
    drop_put (inHeaders.trans long) inHeaders⟩

theorem headerEdit_exchange {off width : Nat}
    (inHeaders : off + 2 * width ≤ headersLen)
    (long : headersLen ≤ frame.length) :
    HeaderEdit frame (exchange frame off width) :=
  ⟨length_exchange (inHeaders.trans long),
    drop_exchange (inHeaders.trans long) inHeaders⟩

theorem HeaderEdit.long {edited : Frame} (edit : HeaderEdit frame edited)
    (long : headersLen ≤ frame.length) : headersLen ≤ edited.length :=
  edit.length ▸ long

theorem HeaderEdit.andThen {second third : Frame} (before : HeaderEdit frame second)
    (long : headersLen ≤ frame.length)
    (after : headersLen ≤ second.length → HeaderEdit second third) :
    HeaderEdit frame third :=
  before.trans (after (before.long long))

theorem headerEdit_swapMacs (long : headersLen ≤ frame.length) :
    HeaderEdit frame frame.swapMacs :=
  headerEdit_exchange (by decide) long

theorem headerEdit_swapAddrs (long : headersLen ≤ frame.length) :
    HeaderEdit frame frame.swapAddrs :=
  headerEdit_exchange (by decide) long

theorem headerEdit_swapPorts (long : headersLen ≤ frame.length) :
    HeaderEdit frame frame.swapPorts :=
  headerEdit_exchange (by decide) long

theorem headerEdit_setTotLen (len : Nat) (long : headersLen ≤ frame.length) :
    HeaderEdit frame (frame.setTotLen len) :=
  headerEdit_put (by rw [length_toBigEndian]; decide) long

theorem headerEdit_setChecksum (long : headersLen ≤ frame.length) :
    HeaderEdit frame frame.setChecksum :=
  headerEdit_put (by rw [LittleEndian.length_encode]; decide) long

theorem headerEdit_setUdpLen (len : Nat) (long : headersLen ≤ frame.length) :
    HeaderEdit frame (frame.setUdpLen len) :=
  headerEdit_put (by rw [length_toBigEndian]; decide) long

theorem headerEdit_clearUdpCheck (long : headersLen ≤ frame.length) :
    HeaderEdit frame frame.clearUdpCheck :=
  headerEdit_put (by decide) long

theorem headerEdit_setDaddr {addr : List UInt8} (size : addr.length = 4)
    (long : headersLen ≤ frame.length) : HeaderEdit frame (frame.setDaddr addr) :=
  headerEdit_put (by rw [size]; decide) long

theorem headerEdit_setDestPort {port : List UInt8} (size : port.length = 2)
    (long : headersLen ≤ frame.length) :
    HeaderEdit frame (frame.setDestPort port) :=
  headerEdit_put (by rw [size]; decide) long

theorem length_header_field {off width : Nat} (inHeaders : off + width ≤ headersLen)
    (long : headersLen ≤ frame.length) : (field frame off width).length = width :=
  length_field (inHeaders.trans long)

theorem headerEdit_copyDaddr (long : headersLen ≤ frame.length) :
    HeaderEdit frame frame.copyDaddr :=
  headerEdit_put (by rw [length_header_field (by decide) long]; decide) long

theorem headerEdit_copyDestPort (long : headersLen ≤ frame.length) :
    HeaderEdit frame frame.copyDestPort :=
  headerEdit_put (by rw [length_header_field (by decide) long]; decide) long

theorem field_put_value {bytes : List UInt8} {off width : Nat}
    (size : bytes.length = width) (inHeaders : off + width ≤ headersLen)
    (long : headersLen ≤ frame.length) :
    field (put frame off bytes) off width = bytes := by
  rw [← size]
  exact field_put_self (by omega)

theorem udpLen_setUdpLen {len : Nat} (bound : len < 256 ^ 2)
    (long : headersLen ≤ frame.length) : (frame.setUdpLen len).udpLen = len := by
  rw [udpLen, setUdpLen, field_put_value (length_toBigEndian 2 len) (by decide) long,
    bigEndian_toBigEndian bound]

theorem totLen_setTotLen {len : Nat} (bound : len < 256 ^ 2)
    (long : headersLen ≤ frame.length) : (frame.setTotLen len).totLen = len := by
  rw [totLen, setTotLen, field_put_value (length_toBigEndian 2 len) (by decide) long,
    bigEndian_toBigEndian bound]

theorem totLen_put {bytes : List UInt8} {off : Nat} (beyond : ipStart + 2 + 2 ≤ off)
    (inHeaders : off ≤ headersLen) (long : headersLen ≤ frame.length) :
    totLen (put frame off bytes) = frame.totLen := by
  rw [totLen, totLen, field_put_of_before (inHeaders.trans long) beyond]

theorem udpLen_put {bytes : List UInt8} {off : Nat}
    (before : off + bytes.length ≤ transportStart + 4)
    (long : headersLen ≤ frame.length) :
    udpLen (put frame off bytes) = frame.udpLen := by
  have within : transportStart + 4 ≤ headersLen := by decide
  rw [udpLen, udpLen, field_put_of_beyond (before.trans (within.trans long)) before]

end Edits

def between (protocol : UInt8) (headerLen source dest : Nat)
    (payload : List UInt8) : Frame :=
  List.replicate (ipStart + 9) 0 ++ [protocol] ++
    List.replicate (Header.ip.size - 10) 0 ++ toBigEndian 2 source ++
    toBigEndian 2 dest ++ List.replicate (headerLen - transportStart - 4) 0 ++
    payload

/-- `bpf_xdp_adjust_tail`: the kernel may refuse, and always refuses a frame
without room for an Ethernet header; what a longer frame has at its end is up
to it. -/
def adjustTail (refuses : Bool) (fill : Nat → UInt8) (frame : Frame)
    (offset : Int) : Option Frame :=
  if refuses ∨ (frame.length : Int) + offset < Header.eth.size then
    none
  else if 0 ≤ offset then
    some (frame ++ (List.range offset.toNat).map fill)
  else
    some (frame.take (frame.length + offset).toNat)

theorem exists_adjustTail (fill : Nat → UInt8) {frame : Frame} {offset : Int}
    (room : (Header.eth.size : Int) ≤ frame.length + offset) :
    ∃ adjusted, frame.adjustTail false fill offset = some adjusted := by
  have accepted : ¬ (false = true ∨
      (frame.length : Int) + offset < Header.eth.size) := by
    rw [not_or, not_lt]
    exact ⟨Bool.false_ne_true, room⟩
  unfold adjustTail
  rw [if_neg accepted]
  split
  · exact ⟨_, rfl⟩
  · exact ⟨_, rfl⟩

theorem length_adjustTail {refuses : Bool} {fill : Nat → UInt8}
    {frame adjusted : Frame} {offset : Int}
    (done : frame.adjustTail refuses fill offset = some adjusted) :
    (adjusted.length : Int) = frame.length + offset := by
  unfold adjustTail at done
  split at done
  · cases done
  · rename_i accepted
    rw [not_or, not_lt] at accepted
    have room := accepted.2
    split at done
    · cases done
      rw [List.length_append, List.length_map, List.length_range]
      omega
    · cases done
      rw [List.length_take]
      omega

theorem adjustTail_shrink {refuses : Bool} {fill : Nat → UInt8}
    {frame adjusted : Frame} {offset : Int} (shrinks : offset ≤ 0)
    (done : frame.adjustTail refuses fill offset = some adjusted) :
    adjusted = frame.take (frame.length + offset).toNat := by
  unfold adjustTail at done
  split at done
  · cases done
  · split at done
    · obtain rfl : offset = 0 := by omega
      obtain rfl := Option.some.inj done
      simp
    · exact (Option.some.inj done).symm

theorem field_adjustTail {refuses : Bool} {fill : Nat → UInt8}
    {frame adjusted : Frame} {offset : Int} {start width : Nat}
    (done : frame.adjustTail refuses fill offset = some adjusted)
    (before : start + width ≤ frame.length)
    (after : start + width ≤ adjusted.length) :
    field adjusted start width = field frame start width := by
  unfold adjustTail at done
  split at done
  · cases done
  · split at done
    · cases done
      rw [← field_take before, List.take_left]
    · cases done
      rw [List.length_take] at after
      exact field_take (after.trans (min_le_left _ _))

end Frame

end Rex
