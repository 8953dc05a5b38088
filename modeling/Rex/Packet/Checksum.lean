import Mathlib.Algebra.Order.BigOperators.Group.List
import Rex.Data.OnesComplement
import Rex.Packet.Program

namespace Rex

open Bytes Rex.Frame OnesComplement

/-! The checksum of the IP header against the one's complement sum that a
receiver takes. -/

def headerWord (header : List UInt8) (word : Nat) : Nat :=
  LittleEndian.field header (2 * word) 2

def wordSum (header : List UInt8) : Nat :=
  ((List.range (Header.ip.size / 2)).map (headerWord header)).sum

def onesComplementSum (header : List UInt8) : Nat :=
  fold (2 ^ 16) (wordSum header)

def clearedCheck (header : List UInt8) : List UInt8 :=
  put header 10 [0, 0]

def withCheck (header : List UInt8) : List UInt8 :=
  put header 10 (LittleEndian.encode 2 (computeIpChecksum header))

theorem computeIpChecksum_eq (header : List UInt8) :
    computeIpChecksum header =
      2 ^ 16 - 1 - carry (2 ^ 16) (wordSum (clearedCheck header)) % 2 ^ 16 :=
  rfl

section Words

variable {header bytes : List UInt8}

theorem headerWord_put (sized : header.length = Header.ip.size)
    (two : bytes.length = 2) {word : Nat} (other : word ≠ 5) :
    headerWord (put header 10 bytes) word = headerWord header word := by
  have size : header.length = 20 := sized
  have kept : field (put header 10 bytes) (2 * word) 2 = field header (2 * word) 2 := by
    rcases Nat.lt_or_gt_of_ne other with before | beyond
    · exact field_put_of_before (by omega) (by omega)
    · exact field_put_of_beyond (by omega) (by omega)
  exact congrArg LittleEndian.decode kept

theorem headerWord_put_check (sized : header.length = Header.ip.size)
    (two : bytes.length = 2) :
    headerWord (put header 10 bytes) 5 = LittleEndian.decode bytes := by
  have size : header.length = 20 := sized
  have stored : field (put header 10 bytes) 10 bytes.length = bytes :=
    field_put_self (by omega)
  rw [two] at stored
  exact congrArg LittleEndian.decode stored

def otherWords : List Nat := [0, 1, 2, 3, 4, 6, 7, 8, 9]

theorem wordSum_eq (header : List UInt8) :
    wordSum header =
      (otherWords.map (headerWord header)).sum + headerWord header 5 := by
  have words : List.range (Header.ip.size / 2) = [0, 1, 2, 3, 4, 5, 6, 7, 8, 9] := rfl
  simp only [wordSum, words, otherWords, List.map_cons, List.map_nil, List.sum_cons,
    List.sum_nil]
  omega

theorem wordSum_put (sized : header.length = Header.ip.size)
    (two : bytes.length = 2) :
    wordSum (put header 10 bytes) =
      wordSum (clearedCheck header) + LittleEndian.decode bytes := by
  have zero : headerWord (clearedCheck header) 5 = 0 := headerWord_put_check sized rfl
  have others : otherWords.map (headerWord (put header 10 bytes)) =
      otherWords.map (headerWord (clearedCheck header)) := by
    apply List.map_congr_left
    intro word member
    have other : word ≠ 5 := fun same => absurd (same ▸ member) (by decide)
    rw [headerWord_put sized two other, clearedCheck, headerWord_put sized rfl other]
  rw [wordSum_eq, wordSum_eq (clearedCheck header), others, zero, Nat.add_zero,
    headerWord_put_check sized two]

theorem wordSum_lt (header : List UInt8) : wordSum header < 10 * 2 ^ 16 := by
  have each (word : Nat) : headerWord header word < 2 ^ 16 :=
    LittleEndian.field_lt header (2 * word) 2
  have bound : ((List.range (Header.ip.size / 2)).map (headerWord header)).sum ≤
      (List.range (Header.ip.size / 2)).length • (2 ^ 16 - 1) := by
    rw [← List.length_map (headerWord header)]
    apply List.sum_le_card_nsmul
    simp only [List.forall_mem_map]
    intro word _
    exact Nat.le_sub_one_of_lt (each word)
  rw [List.length_range] at bound
  exact bound.trans_lt (by decide)

end Words

theorem computeIpChecksum_lt (header : List UInt8) :
    computeIpChecksum header < 256 ^ 2 := by
  rw [computeIpChecksum_eq]
  omega

theorem wordSum_withCheck {header : List UInt8}
    (sized : header.length = Header.ip.size) :
    wordSum (withCheck header) =
      wordSum (clearedCheck header) + computeIpChecksum header := by
  rw [withCheck, wordSum_put sized (LittleEndian.length_encode _ _),
    LittleEndian.decode_encode (computeIpChecksum_lt header)]

theorem fold_eq_word_iff {sum word : Nat} (inside : word < 2 ^ 16) :
    fold (2 ^ 16) sum = word ↔
      word % (2 ^ 16 - 1) = sum % (2 ^ 16 - 1) ∧ (word = 0 ↔ sum = 0) :=
  (fold_eq_iff (show 1 ≤ 2 ^ 16 - 1 by decide) inside).trans
    ⟨fun same => ⟨same.modEq, same.zero⟩, fun same => ⟨same.1, same.2⟩⟩

theorem fold_of_ten_words {sum : Nat} (small : sum < 10 * 2 ^ 16) :
    fold (2 ^ 16) sum =
      if carry (2 ^ 16) sum < 2 ^ 16 then carry (2 ^ 16) sum
      else carry (2 ^ 16) sum - (2 ^ 16 - 1) := by
  unfold carry
  split
  · rw [fold_eq_word_iff (by assumption)]
    omega
  · rw [fold_eq_word_iff (by omega)]
    omega

/-- Adding the carries back once is enough. -/
def FoldsOnce (header : List UInt8) : Prop :=
  wordSum (clearedCheck header) % 2 ^ 16 + wordSum (clearedCheck header) / 2 ^ 16 < 2 ^ 16

/-- The checksum verifies, and is the complement of the folded sum, exactly for
the headers whose carries come to an end at the first fold. -/
theorem checksum_verifies_iff {header : List UInt8}
    (sized : header.length = Header.ip.size) :
    (onesComplementSum (withCheck header) = 0xffff ↔ FoldsOnce header) ∧
      (computeIpChecksum header = 0xffff - onesComplementSum (clearedCheck header) ↔
        FoldsOnce header) := by
  have total := wordSum_withCheck sized
  have small := wordSum_lt (clearedCheck header)
  have folded := fold_of_ten_words small
  have check := computeIpChecksum_eq header
  unfold onesComplementSum FoldsOnce
  generalize wordSum (clearedCheck header) = sum at *
  have split : sum = (2 ^ 16 - 1) * (sum / 2 ^ 16) + carry (2 ^ 16) sum := by
    unfold carry
    omega
  have atMost : carry (2 ^ 16) sum < 2 ^ 16 + 10 := by
    unfold carry
    omega
  change (_ ↔ carry (2 ^ 16) sum < 2 ^ 16) ∧ (_ ↔ carry (2 ^ 16) sum < 2 ^ 16)
  rw [folded, fold_eq_word_iff (by decide), total, check]
  generalize sum / 2 ^ 16 = high at split
  generalize carry (2 ^ 16) sum = once at *
  -- the stored value and the sum cancel unless the truncation cut a carry off
  rcases Nat.lt_or_ge once (2 ^ 16) with ends | carries
  · rw [Nat.mod_eq_of_lt ends, if_pos ends]
    omega
  · have cut : once % 2 ^ 16 = once - 2 ^ 16 := by omega
    have left : sum + (2 ^ 16 - 1 - (once - 2 ^ 16)) =
        1 + (2 ^ 16 - 1) * (high + 2) := by
      omega
    have beyond : ¬ once < 2 ^ 16 := not_lt.mpr carries
    rw [cut, left, Nat.add_mul_mod_self_left, if_neg beyond]
    refine ⟨iff_of_false (fun verified => ?_) beyond, iff_of_false ?_ beyond⟩
    · exact absurd verified.1 (by decide)
    · omega

def plainHeader : List UInt8 :=
  [69, 0, 0, 44, 0, 0, 64, 0, 64, 17, 0, 0, 10, 0, 0, 1, 10, 0, 0, 2]

theorem checksum_verifies_iff_plain :
    onesComplementSum (withCheck plainHeader) = 0xffff :=
  ((checksum_verifies_iff (show plainHeader.length = Header.ip.size from rfl)).1).mpr
    (by unfold FoldsOnce; decide +kernel)

/-- Two full words and a one: the sum folds to `0x10000` at first. -/
def carryingHeader : List UInt8 :=
  [255, 255, 255, 255, 1, 0, 0, 0, 0, 0, 0, 0, 0, 0, 0, 0, 0, 0, 0, 0]

theorem checksum_fails_on_second_carry :
    ¬ ∀ header : List UInt8, header.length = Header.ip.size →
      onesComplementSum (withCheck header) = 0xffff ∧
        computeIpChecksum header =
          0xffff - onesComplementSum (clearedCheck header) := by
  intro always
  exact absurd (always carryingHeader rfl).1 (by decide +kernel)

end Rex
