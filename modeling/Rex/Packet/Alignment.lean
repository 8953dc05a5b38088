import Rex.Packet.HeaderView

namespace Rex

/-! Header views do not depend on alignment.  The abstract packet has no views
and no sessions: every access acts at once on the bytes of its header. -/

def Header.start : Header → Nat
  | .eth => 0
  | .ip => 14
  | .udp => 34
  | .tcp => 34

def Header.Covers (header : Header) (idx : Nat) : Prop :=
  header.start ≤ idx ∧ idx < header.start + header.size

def Header.window (header : Header) (size : Nat) :
    Option (Window size header.size) :=
  Window.locate size header.size header.start

theorem Hook.view_eq (hook : Hook) (bindings : Bindings) (packet : Packet size)
    (header : Header) :
    hook.view bindings packet header =
      bindings.headerView header header.start packet := by
  cases hook <;> cases header <;> rfl

def Session.flat (session : Session bindings) :
    List ((header : Header) × Access (bindings.Struct header)) :=
  session.accesses.map (Sigma.mk session.header)

namespace Bindings

variable {bindings : Bindings} {header : Header} {size : Nat}

def direct :
    List ((header : Header) × Access (bindings.Struct header)) →
      Vector UInt8 size → Option (bindings.Reads × Vector UInt8 size)
  | [], bytes => some ([], bytes)
  | ⟨header, .read⟩ :: rest, bytes => do
      let pointer ← header.window size
      let (later, final) ← direct rest bytes
      return (⟨header, bindings.load bytes pointer⟩ :: later, final)
  | ⟨header, .modify assign⟩ :: rest, bytes => do
      let pointer ← header.window size
      direct rest
        (bindings.store bytes pointer (assign (bindings.load bytes pointer)))

@[simp] theorem load_store (bytes : Vector UInt8 size)
    (pointer : Window size header.size) (value : bindings.Struct header) :
    bindings.load (bindings.store bytes pointer value) pointer = value := by
  simp [load, store]

@[simp] theorem store_load (bytes : Vector UInt8 size)
    (pointer : Window size header.size) :
    bindings.store bytes pointer (bindings.load bytes pointer) = bytes := by
  simp [load, store]

@[simp] theorem store_store (bytes : Vector UInt8 size)
    (pointer : Window size header.size) (value later : bindings.Struct header) :
    bindings.store (bindings.store bytes pointer value) pointer later =
      bindings.store bytes pointer later := by
  simp [store]

/-! Dropping a view at any moment leaves the packet that the view stands for;
reads and assignments through it are reads and assignments of that packet. -/

namespace AlignedMut

def pointer : bindings.AlignedMut header size → Window size header.size
  | .ref pointer => pointer
  | .val (_, slice) => slice

theorem deref_eq (view : bindings.AlignedMut header size)
    (bytes : Vector UInt8 size) :
    view.deref bytes = bindings.load (view.drop bytes) view.pointer := by
  cases view with
  | ref pointer => rfl
  | val unalignedVal => simp [deref, drop, pointer]

theorem drop_derefMut (view : bindings.AlignedMut header size)
    (bytes : Vector UInt8 size) (value : bindings.Struct header) :
    (view.derefMut bytes value).1.drop (view.derefMut bytes value).2 =
      bindings.store (view.drop bytes) view.pointer value := by
  cases view with
  | ref pointer => rfl
  | val unalignedVal => simp [derefMut, drop, pointer]

theorem pointer_derefMut (view : bindings.AlignedMut header size)
    (bytes : Vector UInt8 size) (value : bindings.Struct header) :
    (view.derefMut bytes value).1.pointer = view.pointer := by
  cases view <;> rfl

theorem direct_use (view : bindings.AlignedMut header size)
    (located : header.window size = some view.pointer)
    (bytes : Vector UInt8 size)
    (accesses : List (Access (bindings.Struct header)))
    (rest : List ((header : Header) × Access (bindings.Struct header))) :
    direct (accesses.map (Sigma.mk header) ++ rest) (view.drop bytes) =
      (direct rest (view.use bytes accesses).2).map fun (later, final) =>
        ((view.use bytes accesses).1.map (Sigma.mk header) ++ later, final) := by
  induction accesses generalizing view bytes with
  | nil => simp [use]
  | cons access accesses induction =>
      cases access with
      | read =>
          simp only [List.map_cons, List.cons_append, direct, located, use,
            Option.bind_eq_bind, Option.bind_some, induction view located bytes,
            deref_eq]
          cases direct rest (view.use bytes accesses).2 <;> rfl
      | modify assign =>
          simp only [List.map_cons, List.cons_append, direct, located, use,
            Option.bind_eq_bind, Option.bind_some, ← deref_eq]
          rw [← drop_derefMut]
          apply induction
          rw [pointer_derefMut, located]

end AlignedMut

/-- `view` opens a session on the window of its header, without changing what
the packet holds. -/
def Opens (view : bindings.AlignedMut header size)
    (packet : Packet size) : Prop :=
  header.window size = some view.pointer ∧ view.drop packet.bytes = packet.bytes

theorem runWith_eq (session : ι → Session bindings)
    (view : (item : ι) → Packet size →
      Except ViewPanic (bindings.AlignedMut (session item).header size))
    (items : List ι)
    (opens : ∀ item ∈ items, ∀ packet, ∃ opened,
      view item packet = .ok opened ∧ Opens opened packet)
    (packet : Packet size) :
    ∃ reads final,
      direct (items.flatMap fun item => (session item).flat) packet.bytes =
          some (reads, final) ∧
        runWith session view items packet =
          .ok (reads, { packet with bytes := final }) := by
  induction items generalizing packet with
  | nil => exact ⟨[], packet.bytes, rfl, rfl⟩
  | cons item rest induction =>
      obtain ⟨opened, viewed, located, unchanged⟩ :=
        opens item List.mem_cons_self packet
      obtain ⟨later, final, direct, ran⟩ :=
        induction (fun item member => opens item (.tail _ member))
          { packet with bytes := (opened.use packet.bytes (session item).accesses).2 }
      refine ⟨(opened.use packet.bytes (session item).accesses).1.map
        (Sigma.mk _) ++ later, final, ?_, ?_⟩
      · have used := opened.direct_use located packet.bytes
          (session item).accesses (rest.flatMap fun item => (session item).flat)
        rw [unchanged, direct] at used
        exact used
      · simp only [runWith, viewed, ran, bind, Except.bind]
        rfl

/-! The two ways of opening a view. -/

theorem opens_ref {pointer : Window size header.size}
    (located : header.window size = some pointer) (packet : Packet size) :
    Opens (.ref pointer : bindings.AlignedMut header size) packet :=
  ⟨located, rfl⟩

theorem opens_val {pointer : Window size header.size}
    (located : header.window size = some pointer) (packet : Packet size) :
    Opens (.val (bindings.load packet.bytes pointer, pointer) :
      bindings.AlignedMut header size) packet :=
  ⟨located, store_load packet.bytes pointer⟩

theorem headerView_opens (inPacket : header.start + header.size ≤ size)
    (packet : Packet size) :
    ∃ opened, bindings.headerView header header.start packet = .ok opened ∧
      Opens opened packet := by
  have located := Window.locate_eq_some inPacket
  have indexed : Slice.index size header.start (header.size + header.start) =
      .ok ⟨header.start, header.size + header.start - header.start, by omega⟩ := by
    simp [Slice.index, Nat.add_comm header.size, inPacket]
  simp only [headerView, indexed, bind, Except.bind, convertSliceToStructMut]
  rw [dif_pos (by omega)]
  split
  · exact ⟨_, rfl, opens_ref located packet⟩
  · exact ⟨_, rfl, opens_val located packet⟩

def viewBy (byReference : Bool) (packet : Packet size) :
    Except ViewPanic (bindings.AlignedMut header size) :=
  match header.window size with
  | none => .error (.sliceEndIndex (header.size + header.start) size)
  | some pointer =>
      if byReference then
        .ok (.ref pointer)
      else
        .ok (.val (bindings.load packet.bytes pointer, pointer))

theorem viewBy_opens (byReference : Bool)
    (inPacket : header.start + header.size ≤ size) (packet : Packet size) :
    ∃ opened : bindings.AlignedMut header size,
      viewBy byReference packet = .ok opened ∧ Opens opened packet := by
  have located := Window.locate_eq_some inPacket
  have found : header.window size = some ⟨header.start, inPacket⟩ := located
  simp only [viewBy, found]
  cases byReference with
  | false => exact ⟨_, rfl, opens_val located packet⟩
  | true => exact ⟨_, rfl, opens_ref located packet⟩

def runPaths (paths : List (Session bindings × Bool)) (packet : Packet size) :
    Except ViewPanic (bindings.Reads × Packet size) :=
  runWith Prod.fst (fun path packet => viewBy path.2 packet) paths packet

theorem getElem_store_of_not_covers {bytes : Vector UInt8 size}
    {pointer : Window size header.size}
    (located : header.window size = some pointer)
    (value : bindings.Struct header) (inPacket : idx < size)
    (outside : ¬ header.Covers idx) :
    (bindings.store bytes pointer value)[idx] = bytes[idx] := by
  apply Window.getElem_write_of_not_covers
  rw [Window.Covers, Window.start_of_locate located]
  exact outside

theorem direct_frame
    {accesses : List ((header : Header) × Access (bindings.Struct header))}
    {bytes final : Vector UInt8 size}
    (ran : direct accesses bytes = some (reads, final)) (inPacket : idx < size)
    (outside : ∀ access ∈ accesses, ¬ access.1.Covers idx) :
    final[idx] = bytes[idx] := by
  induction accesses generalizing bytes reads with
  | nil =>
      cases ran
      rfl
  | cons access rest induction =>
      have here := outside access List.mem_cons_self
      have later : ∀ access ∈ rest, ¬ access.1.Covers idx :=
        fun access member => outside access (.tail _ member)
      obtain ⟨header, _ | assign⟩ := access
      · simp only [direct, Option.bind_eq_bind, Option.bind_eq_some_iff] at ran
        obtain ⟨pointer, _, ⟨_, _⟩, ran, same⟩ := ran
        cases same
        exact induction ran later
      · simp only [direct, Option.bind_eq_bind, Option.bind_eq_some_iff] at ran
        obtain ⟨pointer, located, ran⟩ := ran
        rw [induction ran later]
        exact getElem_store_of_not_covers located _ inPacket here

/-- The values read and the final bytes are those of the abstract packet, at
every address and whichever path each session takes. -/
theorem header_views_transparent (hook : Hook)
    (sessions : List (Session bindings)) (bytes : Vector UInt8 size)
    (enough : ∀ session ∈ sessions,
      session.header.start + session.header.size ≤ size) :
    ∃ reads final,
      direct (sessions.flatMap Session.flat) bytes = some (reads, final) ∧
      (∀ address, run hook sessions ⟨address, bytes⟩ =
        .ok (reads, ⟨address, final⟩)) ∧
      (∀ address (paths : List (Session bindings × Bool)),
        paths.map Prod.fst = sessions →
          runPaths paths ⟨address, bytes⟩ = .ok (reads, ⟨address, final⟩)) ∧
      ∀ idx (inPacket : idx < size),
        (∀ session ∈ sessions, ¬ session.header.Covers idx) →
          final[idx] = bytes[idx] := by
  have opened : ∀ session ∈ sessions, ∀ packet : Packet size, ∃ opened,
      hook.view bindings packet session.header = .ok opened ∧
        Opens opened packet := by
    intro session member packet
    rw [Hook.view_eq]
    exact headerView_opens (enough session member) packet
  obtain ⟨reads, final, direct, _⟩ :=
    runWith_eq id _ sessions opened ⟨0, bytes⟩
  refine ⟨reads, final, direct, ?_, ?_, ?_⟩
  · intro address
    obtain ⟨_, _, again, ran⟩ := runWith_eq id _ sessions opened ⟨address, bytes⟩
    cases direct.symm.trans again
    exact ran
  · intro address paths same
    subst same
    have forced : ∀ path ∈ paths, ∀ packet : Packet size,
        ∃ opened : bindings.AlignedMut path.1.header size,
          viewBy path.2 packet = .ok opened ∧ Opens opened packet :=
      fun path member packet =>
        viewBy_opens path.2 (enough path.1 (List.mem_map_of_mem member)) packet
    obtain ⟨_, _, again, ran⟩ := runWith_eq Prod.fst _ paths forced ⟨address, bytes⟩
    rw [List.flatMap_map] at direct
    cases direct.symm.trans again
    exact ran
  · intro idx inPacket outside
    apply direct_frame direct inPacket
    intro access member
    obtain ⟨session, present, inSession⟩ := List.mem_flatMap.mp member
    obtain ⟨_, _, rfl⟩ := List.mem_map.mp inSession
    exact outside session present

def raw : Bindings where
  Struct header := Vector UInt8 header.size
  align _ := 2
  bytes _ := Equiv.refl _

def ttlSessions : List (Session raw) :=
  [⟨.ip, [.read, .modify fun ip => ip.set 8 63]⟩, ⟨.ip, [.read]⟩]

theorem header_views_transparent_ttl :
    ∃ reads final,
      direct (ttlSessions.flatMap Session.flat) (Vector.replicate 54 0) =
          some (reads, final) ∧
        run .xdp ttlSessions ⟨1, Vector.replicate 54 0⟩ =
          .ok (reads, ⟨1, final⟩) ∧
        run .xdp ttlSessions ⟨2, Vector.replicate 54 0⟩ =
          .ok (reads, ⟨2, final⟩) := by
  obtain ⟨reads, final, abstract, ran, _⟩ :=
    header_views_transparent .xdp ttlSessions (Vector.replicate 54 0)
      (by decide)
  exact ⟨reads, final, abstract, ran 1, ran 2⟩

end Bindings

end Rex
