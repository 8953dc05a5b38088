import Mathlib.Data.List.Basic

namespace Rex

/-! The packet slice of a program context.  It is computed from the kernel's
buffer when the context is made, and again after a helper that may have moved
the buffer. -/

structure DataSlice where
  ptr : UInt64
  len : UInt64
deriving DecidableEq

structure XdpBuff where
  data : UInt64
  dataEnd : UInt64
  ordered : data ≤ dataEnd

structure SkBuff where
  data : UInt64
  len : UInt32
  dataLen : UInt32
  paged : dataLen ≤ len

structure Context (K : Type) where
  dataSlice : DataSlice
  kptr : K

/-- What a kernel helper does to the buffer it is called on: a failed call
leaves it alone. -/
inductive Answer (K : Type)
  | success (updated : K)
  | failure (ret : Int32) (nonzero : ret ≠ 0)

def Context.refresh (slice : K → DataSlice) (ctx : Context K) :
    Answer K → Except Int32 Int32 × Context K
  | .success kptr => (.ok 0, { dataSlice := slice kptr, kptr })
  | .failure ret _ => (.error ret, ctx)

namespace Xdp

def convertCtx (kptr : XdpBuff) : Context XdpBuff :=
  { dataSlice := ⟨kptr.data, kptr.dataEnd - kptr.data⟩, kptr }

def bpfXdpAdjustTail (ctx : Context XdpBuff) (answer : Answer XdpBuff) :
    Except Int32 Int32 × Context XdpBuff :=
  ctx.refresh (fun kptr => ⟨kptr.data, kptr.dataEnd - kptr.data⟩) answer

end Xdp

namespace SchedCls

def convertCtx (kptr : SkBuff) : Context SkBuff :=
  { dataSlice := ⟨kptr.data, (kptr.len - kptr.dataLen).toUInt64⟩, kptr }

def bpfCloneRedirect (ctx : Context SkBuff) (answer : Answer SkBuff) :
    Except Int32 Int32 × Context SkBuff :=
  ctx.refresh (fun kptr => ⟨kptr.data, kptr.len.toUInt64⟩) answer

end SchedCls

/-! A context through any number of helper calls. -/

namespace Context

variable {K : Type}

def calls (helper : Context K → Answer K → Except Int32 Int32 × Context K)
    (ctx : Context K) (answers : List (Answer K)) : Context K :=
  answers.foldl (fun ctx answer => (helper ctx answer).2) ctx

def Throughout (Covers : Context K → Prop)
    (helper : Context K → Answer K → Except Int32 Int32 × Context K)
    (ctx : Context K) (answers : List (Answer K)) : Prop :=
  ∀ earlier, earlier <+: answers → Covers (ctx.calls helper earlier)

theorem throughout_cons {Covers : Context K → Prop}
    {helper : Context K → Answer K → Except Int32 Int32 × Context K}
    {ctx : Context K} {answer : Answer K} {rest : List (Answer K)} :
    Throughout Covers helper ctx (answer :: rest) ↔
      Covers ctx ∧ Throughout Covers helper (helper ctx answer).2 rest := by
  constructor
  · intro throughout
    refine ⟨throughout [] List.nil_prefix, ?_⟩
    intro earlier before
    exact throughout (answer :: earlier) (List.cons_prefix_cons.mpr ⟨rfl, before⟩)
  · rintro ⟨now, later⟩ earlier before
    cases earlier with
    | nil => exact now
    | cons first earlier =>
        obtain ⟨rfl, tail⟩ := List.cons_prefix_cons.mp before
        exact later earlier tail

theorem throughout_congr {First Second : Context K → Prop}
    (same : ∀ ctx, First ctx ↔ Second ctx)
    {helper : Context K → Answer K → Except Int32 Int32 × Context K}
    {ctx : Context K} {answers : List (Answer K)} :
    Throughout First helper ctx answers ↔
      Throughout Second helper ctx answers :=
  forall₂_congr fun _ _ => same _

/-- A wrapper keeps the slice at `expected` exactly as long as what it computes
after each success is what is expected. -/
theorem throughout_refresh_iff (slice expected : K → DataSlice)
    (ctx : Context K) (initial : ctx.dataSlice = expected ctx.kptr)
    (answers : List (Answer K)) :
    Throughout (fun ctx => ctx.dataSlice = expected ctx.kptr) (refresh slice)
        ctx answers ↔
      ∀ kptr, .success kptr ∈ answers → slice kptr = expected kptr := by
  induction answers generalizing ctx with
  | nil =>
      simp [Throughout, calls, initial]
  | cons answer rest induction =>
      rw [throughout_cons]
      cases answer with
      | failure ret nonzero =>
          simp [refresh, initial, induction ctx initial]
      | success kptr =>
          simp only [initial, true_and, List.mem_cons, forall_eq_or_imp,
            Answer.success.injEq]
          constructor
          · intro throughout
            have now : slice kptr = expected kptr := throughout [] List.nil_prefix
            exact ⟨now, (induction _ now).mp throughout⟩
          · rintro ⟨now, later⟩
            exact (induction _ now).mpr later

end Context

/-! The linear packet data, in natural numbers. -/

def Xdp.Covers (ctx : Context XdpBuff) : Prop :=
  ctx.dataSlice.ptr = ctx.kptr.data ∧
    ctx.dataSlice.len.toNat = ctx.kptr.dataEnd.toNat - ctx.kptr.data.toNat

def SchedCls.Covers (ctx : Context SkBuff) : Prop :=
  ctx.dataSlice.ptr = ctx.kptr.data ∧
    ctx.dataSlice.len.toNat = ctx.kptr.len.toNat - ctx.kptr.dataLen.toNat

theorem Xdp.covers_iff (ctx : Context XdpBuff) :
    Covers ctx ↔
      ctx.dataSlice = ⟨ctx.kptr.data, ctx.kptr.dataEnd - ctx.kptr.data⟩ := by
  obtain ⟨⟨ptr, len⟩, kptr⟩ := ctx
  rw [Covers, ← UInt64.toNat_sub_of_le _ _ kptr.ordered, UInt64.toNat_inj,
    DataSlice.mk.injEq]

theorem SchedCls.covers_iff (ctx : Context SkBuff) :
    Covers ctx ↔ ctx.dataSlice =
      ⟨ctx.kptr.data, (ctx.kptr.len - ctx.kptr.dataLen).toUInt64⟩ := by
  obtain ⟨⟨ptr, len⟩, kptr⟩ := ctx
  rw [Covers, ← UInt32.toNat_sub_of_le _ _ kptr.paged, ← UInt32.toNat_toUInt64,
    UInt64.toNat_inj, DataSlice.mk.injEq]

theorem SchedCls.refreshed_eq_iff (kptr : SkBuff) :
    (⟨kptr.data, kptr.len.toUInt64⟩ : DataSlice) =
        ⟨kptr.data, (kptr.len - kptr.dataLen).toUInt64⟩ ↔
      kptr.dataLen = 0 := by
  have difference := UInt32.toNat_sub_of_le _ _ kptr.paged
  have bound : kptr.dataLen.toNat ≤ kptr.len.toNat := kptr.paged
  simp only [DataSlice.mk.injEq, true_and, ← UInt64.toNat_inj,
    UInt32.toNat_toUInt64, difference, ← UInt32.toNat_inj, UInt32.toNat_zero]
  omega

/-- The slice of an `xdp_md` always covers the linear data; that of an
`__sk_buff` does as long as no successful `bpf_clone_redirect` leaves paged data
behind. -/
theorem slices_cover_linear_data_iff
    (xdpBuff : XdpBuff) (adjusted : List (Answer XdpBuff))
    (skBuff : SkBuff) (redirected : List (Answer SkBuff)) :
    (Xdp.convertCtx xdpBuff).Throughout Xdp.Covers Xdp.bpfXdpAdjustTail
        adjusted ∧
      ((SchedCls.convertCtx skBuff).Throughout SchedCls.Covers
          SchedCls.bpfCloneRedirect redirected ↔
        ∀ updated, .success updated ∈ redirected → updated.dataLen = 0) := by
  constructor
  · rw [Context.throughout_congr Xdp.covers_iff]
    exact (Context.throughout_refresh_iff
      (fun kptr => ⟨kptr.data, kptr.dataEnd - kptr.data⟩)
      (fun kptr => ⟨kptr.data, kptr.dataEnd - kptr.data⟩)
      (Xdp.convertCtx xdpBuff) rfl adjusted).mpr fun _ _ => rfl
  · rw [Context.throughout_congr SchedCls.covers_iff]
    refine (Context.throughout_refresh_iff
      (fun kptr => ⟨kptr.data, kptr.len.toUInt64⟩)
      (fun kptr => ⟨kptr.data, (kptr.len - kptr.dataLen).toUInt64⟩)
      (SchedCls.convertCtx skBuff) rfl redirected).trans ?_
    simp only [SchedCls.refreshed_eq_iff]

def pagedSkBuff : SkBuff :=
  ⟨4096, 1514, 1448, by decide⟩

theorem slice_overruns_paged_skb :
    (SchedCls.convertCtx pagedSkBuff).dataSlice.len = 66 ∧
      (SchedCls.bpfCloneRedirect (SchedCls.convertCtx pagedSkBuff)
        (.success pagedSkBuff)).2.dataSlice.len = 1514 ∧
      ¬ SchedCls.Covers (SchedCls.bpfCloneRedirect
        (SchedCls.convertCtx pagedSkBuff) (.success pagedSkBuff)).2 := by
  refine ⟨by decide, by decide, ?_⟩
  rintro ⟨_, len⟩
  exact absurd len (by decide)

end Rex
