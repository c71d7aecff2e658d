import Mathlib.Algebra.Order.Ring.Int
import Mathlib.Algebra.Order.Ring.Nat

/-!
# Layout of the network transfer blocks

An NCM transfer block carries Ethernet frames behind a header (NTH). A datagram pointer table (NDP)
lists the offset and the length of each frame. The 16-bit and the 32-bit formats differ in the
width of a few fields and in their signatures. The numbers are those of the USB class header.
-/

namespace LinuxFunctionTest.Ncm

/-- An Ethernet frame, or any other datagram. -/
abbrev Frame := List UInt8

/-- Field offsets, sizes and signatures of one block format. -/
structure NtbFormat where
  /-- Bytes of a block length, of an NDP index, and of both fields of a table entry. -/
  width : ℕ
  nthSign : ℕ
  nthSize : ℕ
  /-- Where the header keeps the index of the first NDP; the block length stands at 8. -/
  ndpIndex : ℕ
  ndpSign : ℕ
  ndpSize : ℕ
  /-- Where an NDP keeps the index of the next one; its own length stands at 4. -/
  nextNdp : ℕ
  dpeSize : ℕ
  ndpLengthMin : ℕ
  nthSign_lt : nthSign < 256 ^ 4
  ndpSign_lt : ndpSign < 256 ^ 4
  ndpSign_pos : 0 < ndpSign
  width_ge : 2 ≤ width
  width_le : width ≤ 4
  ndpIndex_ge : 8 + width ≤ ndpIndex
  nth_fits : ndpIndex + width = nthSize
  nthSize_le : nthSize ≤ 16
  next_ge : 6 ≤ nextNdp
  next_fits : nextNdp + width ≤ ndpSize
  ndpSize_le : ndpSize ≤ 16
  dpe_fits : 2 * width = dpeSize
  ndpLengthMin_le : ndpLengthMin ≤ ndpSize + 2 * dpeSize
  lt_ndpLengthMin : ndpSize + dpeSize ≤ ndpLengthMin

/-- The format of 16-bit blocks: `usb_cdc_ncm_nth16`, `usb_cdc_ncm_ndp16`, `usb_cdc_ncm_dpe16`. -/
def ntb16 : NtbFormat where
  width := 2
  nthSign := 0x484D434E
  nthSize := 12
  ndpIndex := 10
  ndpSign := 0x304D434E
  ndpSize := 8
  nextNdp := 6
  dpeSize := 4
  ndpLengthMin := 0x10
  nthSign_lt := by decide
  ndpSign_lt := by decide
  ndpSign_pos := by decide
  width_ge := by decide
  width_le := by decide
  ndpIndex_ge := by decide
  nth_fits := by decide
  nthSize_le := by decide
  next_ge := by decide
  next_fits := by decide
  ndpSize_le := by decide
  dpe_fits := by decide
  ndpLengthMin_le := by decide
  lt_ndpLengthMin := by decide

/-- The format of 32-bit blocks: `usb_cdc_ncm_nth32`, `usb_cdc_ncm_ndp32`, `usb_cdc_ncm_dpe32`. -/
def ntb32 : NtbFormat where
  width := 4
  nthSign := 0x686D636E
  nthSize := 16
  ndpIndex := 12
  ndpSign := 0x306D636E
  ndpSize := 16
  nextNdp := 8
  dpeSize := 8
  ndpLengthMin := 0x20
  nthSign_lt := by decide
  ndpSign_lt := by decide
  ndpSign_pos := by decide
  width_ge := by decide
  width_le := by decide
  ndpIndex_ge := by decide
  nth_fits := by decide
  nthSize_le := by decide
  next_ge := by decide
  next_fits := by decide
  ndpSize_le := by decide
  dpe_fits := by decide
  ndpLengthMin_le := by decide
  lt_ndpLengthMin := by decide

/-- The format that `is_ndp16` selects. -/
def ntbFormat (isNdp16 : Bool) : NtbFormat := if isNdp16 then ntb16 else ntb32

/-- `ETH_HLEN` -/
def ethHlen : ℕ := 14

/-- A word of 32 bits read as an `int`. -/
def toInt32 (n : ℕ) : ℤ := if n < 2 ^ 31 then (n : ℤ) else (n : ℤ) - 2 ^ 32

/-- The difference of two unsigned words of `bits` bits. -/
def subWord (bits a b : ℕ) : ℕ := (2 ^ bits + a - b) % 2 ^ bits

/-- A difference that does not wrap. -/
theorem subWord_of_le {bits a b : ℕ} (hba : b ≤ a) (ha : a < 2 ^ bits) : subWord bits a b = a - b := by
  rw [subWord, Nat.add_sub_assoc hba, Nat.add_mod_left, Nat.mod_eq_of_lt (by omega)]

end LinuxFunctionTest.Ncm
