import Mathlib.Logic.Equiv.Defs
import Rex.Data.Window

namespace Rex

/-! Typed views of packet headers.  A view is either a reference into the packet
or a copy that is written back when the view is dropped, depending on the
address of the packet. -/

inductive Header
  | eth
  | ip
  | udp
  | tcp
deriving DecidableEq

def Header.size : Header → Nat
  | .eth => 14
  | .ip => 20
  | .udp => 8
  | .tcp => 20

/-- The generated kernel bindings.  Every byte of a header struct belongs to a
field, so that a struct is the same thing as its bytes. -/
structure Bindings where
  Struct : Header → Type
  align : Header → Nat
  bytes : ∀ header, Struct header ≃ Vector UInt8 header.size

structure Packet (size : Nat) where
  address : Nat
  bytes : Vector UInt8 size

inductive ViewPanic
  | sliceIndexOrder (start finish : Nat)
  | sliceEndIndex (finish len : Nat)
  | assertion (message : String)
deriving DecidableEq

structure Slice (size : Nat) where
  start : Nat
  len : Nat
  inRange : start + len ≤ size

def Slice.index (size start finish : Nat) : Except ViewPanic (Slice size) :=
  if ordered : start ≤ finish then
    if inRange : finish ≤ size then
      .ok ⟨start, finish - start, by omega⟩
    else
      .error (.sliceEndIndex finish size)
  else
    .error (.sliceIndexOrder start finish)

inductive AlignedInner (R V : Type)
  | ref (alignedRef : R)
  | val (unalignedVal : V)

namespace Bindings

variable (bindings : Bindings) {header : Header} {size : Nat}

def AlignedMut (header : Header) (size : Nat) : Type :=
  AlignedInner (Window size header.size)
    (bindings.Struct header × Window size header.size)

def load (bytes : Vector UInt8 size) (pointer : Window size header.size) :
    bindings.Struct header :=
  (bindings.bytes header).symm (pointer.read bytes)

def store (bytes : Vector UInt8 size) (pointer : Window size header.size)
    (value : bindings.Struct header) : Vector UInt8 size :=
  pointer.write bytes (bindings.bytes header value)

def isAligned (packet : Packet size) (pointer : Window size header.size) : Bool :=
  (packet.address + pointer.start) % bindings.align header = 0

def convertSliceToStructMut (header : Header) (packet : Packet size)
    (slice : Slice size) : Except ViewPanic (bindings.AlignedMut header size) :=
  if longEnough : header.size ≤ slice.len then
    let pointer : Window size header.size :=
      ⟨slice.start, by have := slice.inRange; omega⟩
    if bindings.isAligned packet pointer then
      .ok (.ref pointer)
    else
      .ok (.val (bindings.load packet.bytes pointer, pointer))
  else
    .error (.assertion "size mismatch in convert_slice_to_struct_mut")

variable {bindings}

namespace AlignedMut

def deref (bytes : Vector UInt8 size) :
    bindings.AlignedMut header size → bindings.Struct header
  | .ref pointer => bindings.load bytes pointer
  | .val (copied, _) => copied

def derefMut (bytes : Vector UInt8 size) (value : bindings.Struct header) :
    bindings.AlignedMut header size →
      bindings.AlignedMut header size × Vector UInt8 size
  | .ref pointer => (.ref pointer, bindings.store bytes pointer value)
  | .val (_, slice) => (.val (value, slice), bytes)

def drop (bytes : Vector UInt8 size) :
    bindings.AlignedMut header size → Vector UInt8 size
  | .ref _ => bytes
  | .val (copied, slice) => bindings.store bytes slice copied

end AlignedMut

variable (bindings)

def headerView (header : Header) (start : Nat) (packet : Packet size) :
    Except ViewPanic (bindings.AlignedMut header size) := do
  let slice ← Slice.index size start (header.size + start)
  bindings.convertSliceToStructMut header packet slice

end Bindings

namespace Xdp

def tcpHeader (bindings : Bindings) (packet : Packet size) :
    Except ViewPanic (bindings.AlignedMut .tcp size) :=
  bindings.headerView .tcp (Header.eth.size + Header.ip.size) packet

def udpHeader (bindings : Bindings) (packet : Packet size) :
    Except ViewPanic (bindings.AlignedMut .udp size) :=
  bindings.headerView .udp (Header.eth.size + Header.ip.size) packet

def ipHeader (bindings : Bindings) (packet : Packet size) :
    Except ViewPanic (bindings.AlignedMut .ip size) :=
  bindings.headerView .ip Header.eth.size packet

def ethHeader (bindings : Bindings) (packet : Packet size) :
    Except ViewPanic (bindings.AlignedMut .eth size) :=
  bindings.headerView .eth 0 packet

end Xdp

namespace SchedCls

def ethHeader (bindings : Bindings) (packet : Packet size) :
    Except ViewPanic (bindings.AlignedMut .eth size) :=
  bindings.headerView .eth 0 packet

def udpHeader (bindings : Bindings) (packet : Packet size) :
    Except ViewPanic (bindings.AlignedMut .udp size) :=
  bindings.headerView .udp (Header.eth.size + Header.ip.size) packet

def tcpHeader (bindings : Bindings) (packet : Packet size) :
    Except ViewPanic (bindings.AlignedMut .tcp size) :=
  bindings.headerView .tcp (Header.eth.size + Header.ip.size) packet

def ipHeader (bindings : Bindings) (packet : Packet size) :
    Except ViewPanic (bindings.AlignedMut .ip size) :=
  bindings.headerView .ip Header.eth.size packet

end SchedCls

inductive Hook
  | xdp
  | schedCls
deriving DecidableEq

def Hook.view (bindings : Bindings) (packet : Packet size) :
    Hook → (header : Header) →
      Except ViewPanic (bindings.AlignedMut header size)
  | .xdp, .eth => Xdp.ethHeader bindings packet
  | .xdp, .ip => Xdp.ipHeader bindings packet
  | .xdp, .udp => Xdp.udpHeader bindings packet
  | .xdp, .tcp => Xdp.tcpHeader bindings packet
  | .schedCls, .eth => SchedCls.ethHeader bindings packet
  | .schedCls, .ip => SchedCls.ipHeader bindings packet
  | .schedCls, .udp => SchedCls.udpHeader bindings packet
  | .schedCls, .tcp => SchedCls.tcpHeader bindings packet

/-! A session obtains a view, uses it any number of times and drops it.  The
view borrows the packet mutably, so sessions do not overlap in time. -/

/-- `modify` assigns a value that may depend on the one that is there, as an
assignment to a single field does. -/
inductive Access (T : Type)
  | read
  | modify (assign : T → T)

structure Session (bindings : Bindings) where
  header : Header
  accesses : List (Access (bindings.Struct header))

namespace Bindings

variable {bindings : Bindings}

def AlignedMut.use (view : bindings.AlignedMut header size)
    (bytes : Vector UInt8 size) :
    List (Access (bindings.Struct header)) →
      List (bindings.Struct header) × Vector UInt8 size
  | [] => ([], view.drop bytes)
  | .read :: rest =>
      let (reads, final) := view.use bytes rest
      (view.deref bytes :: reads, final)
  | .modify assign :: rest =>
      let (view, bytes) := view.derefMut bytes (assign (view.deref bytes))
      view.use bytes rest

abbrev Reads (bindings : Bindings) : Type :=
  List ((header : Header) × bindings.Struct header)

def runWith (session : ι → Session bindings)
    (view : (item : ι) → Packet size →
      Except ViewPanic (bindings.AlignedMut (session item).header size)) :
    List ι → Packet size → Except ViewPanic (bindings.Reads × Packet size)
  | [], packet => .ok ([], packet)
  | item :: rest, packet => do
      let opened ← view item packet
      let (reads, bytes) := opened.use packet.bytes (session item).accesses
      let (later, final) ← runWith session view rest { packet with bytes }
      return (reads.map (Sigma.mk (session item).header) ++ later, final)

def run (hook : Hook) (sessions : List (Session bindings))
    (packet : Packet size) : Except ViewPanic (bindings.Reads × Packet size) :=
  runWith id (fun session packet => hook.view bindings packet session.header)
    sessions packet

end Bindings

end Rex
