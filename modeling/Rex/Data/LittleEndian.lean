import Mathlib.Algebra.Order.Ring.Nat

/-! Unsigned numbers as bytes, least significant byte first. -/

namespace LittleEndian

def encode : (width value : Nat) → List UInt8
  | 0, _ => []
  | width + 1, value => UInt8.ofNat value :: encode width (value / 256)

def decode : List UInt8 → Nat
  | [] => 0
  | byte :: rest => byte.toNat + 256 * decode rest

@[simp] theorem length_encode (width value : Nat) :
    (encode width value).length = width := by
  induction width generalizing value with
  | zero => rfl
  | succ width induction => simp [encode, induction]

theorem decode_encode {width value : Nat} (bound : value < 256 ^ width) :
    decode (encode width value) = value := by
  induction width generalizing value with
  | zero =>
      have : value = 0 := by simpa using bound
      simp [encode, decode, this]
  | succ width induction =>
      have smaller : value / 256 < 256 ^ width := by
        rw [Nat.div_lt_iff_lt_mul (by decide)]
        rwa [Nat.pow_succ] at bound
      simp only [encode, decode, induction smaller, UInt8.toNat_ofNat']
      omega

theorem decode_lt (bytes : List UInt8) : decode bytes < 256 ^ bytes.length := by
  induction bytes with
  | nil => decide
  | cons byte rest induction =>
      have low : byte.toNat < 256 := byte.toNat_lt
      rw [decode, List.length_cons, Nat.pow_succ]
      omega

def field (bytes : List UInt8) (offset width : Nat) : Nat :=
  decode ((bytes.drop offset).take width)

theorem field_lt (bytes : List UInt8) (offset width : Nat) :
    field bytes offset width < 256 ^ width :=
  (decode_lt _).trans_le (Nat.pow_le_pow_right (by decide) (List.length_take_le ..))

theorem field_encode {width value : Nat} (bound : value < 256 ^ width)
    (rest : List UInt8) : field (encode width value ++ rest) 0 width = value := by
  simp [field, decode_encode bound]

theorem field_skip (first rest : List UInt8) (offset width : Nat) :
    field (first ++ rest) (first.length + offset) width =
      field rest offset width := by
  rw [field, List.drop_length_add_append, field]

end LittleEndian
