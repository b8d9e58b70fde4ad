import UserPaging.Foundation.Bits

/-!
# Swap entries

While a page is swapped out, its page-table entry holds the value that
`swap_value` made from the device number and the slot.  On a swap fault the
kernel hands the entry back, `usm_mem_ret_ev` multiplies it by the page size and
`event_to_swap_entry` takes the slot out again.
-/

namespace UserPaging.Usm

open UserPaging.Foundation

def sysPageSize : BitVec 64 := 4096

def snodeOffset (slot : Nat) : BitVec 64 := BitVec.ofNat 64 slot * sysPageSize

/-- `swap_value` of a slot at `offset` of the device `number`. -/
def swapValue (offset number : BitVec 64) : BitVec 64 :=
  ((((offset / 4096#64) <<< (9 + 5)) >>> 5) ||| (number <<< (64 - 5))) &&&
    ~~~((1 : BitVec 64) <<< 0) &&& ~~~((1 : BitVec 64) <<< 8)

/-- `event->offst` as `usm_mem_ret_ev` computes it from a swap fault's entry. -/
def swapOffst (entry : BitVec 64) : BitVec 64 := entry * sysPageSize

/-- The index into `swap_nodes`; every device number is that of the one device. -/
def eventSlot (offst : BitVec 64) : Nat :=
  (((offst <<< 5) >>> (5 + 9)) / 4096#64).toNat

def pteNone (entry : BitVec 64) : Bool := entry &&& ~~~0x60 == 0

def ptePresent (entry : BitVec 64) : Bool := entry &&& 0x101 != 0

private theorem mul_sysPageSize (x : BitVec 64) : x * sysPageSize = x <<< 12 :=
  BitVec.mul_twoPow_eq_shiftLeft x 12

private theorem div_4096 (x : BitVec 64) : x / 4096#64 = x >>> 12 :=
  BitVec.udiv_twoPow_eq_of_lt (by decide : 12 < 64)

private theorem getElem_257 :
    ∀ bit : Fin 64, 9 ≤ bit.val → (257#64)[bit.val] = false := by decide

private theorem keep_above_bit_nine (slot number : BitVec 64) :
    ((slot <<< 9) ||| (number <<< 59)) &&& ~~~((1 : BitVec 64) <<< 0) &&&
        ~~~((1 : BitVec 64) <<< 8) =
      (slot <<< 9) ||| (number <<< 59) := by
  have hmask : ~~~((1 : BitVec 64) <<< 0) &&& ~~~((1 : BitVec 64) <<< 8) = ~~~257#64 := by
    decide
  rw [BitVec.and_assoc, hmask]
  ext bit hbit
  simp only [BitVec.getElem_and, BitVec.getElem_or, BitVec.getElem_shiftLeft,
    BitVec.getElem_not]
  by_cases hlow : bit < 9
  · have hdevice : bit < 59 := by omega
    simp [hlow, hdevice]
  · simp [getElem_257 ⟨bit, hbit⟩ (by simpa using hlow)]

theorem swapValue_slot {slot : BitVec 64} (hslot : slot.toNat < 2 ^ 50)
    (number : BitVec 64) :
    swapValue (slot * sysPageSize) number = (slot <<< 9) ||| (number <<< 59) := by
  have hshift : (slot <<< 14) >>> 5 = slot <<< 9 := by
    rw [show slot <<< 14 = (slot <<< 9) <<< 5 by rw [← BitVec.shiftLeft_add]]
    refine shiftLeft_ushiftRight_of_lt 5 59 (by decide) ?_
    rw [BitVec.toNat_shiftLeft, Nat.shiftLeft_eq]
    omega
  have hoffset : slot * sysPageSize / 4096#64 = slot := by
    rw [mul_sysPageSize, div_4096]
    exact shiftLeft_ushiftRight_of_lt 12 50 (by decide) hslot
  rw [swapValue, hoffset, hshift, keep_above_bit_nine]

theorem ptePresent_swapValue (offset number : BitVec 64) :
    ptePresent (swapValue offset number) = false := by
  have hmask : ~~~((1 : BitVec 64) <<< 0) &&& (~~~((1 : BitVec 64) <<< 8) &&& 0x101) = 0#64 := by
    decide
  rw [ptePresent, swapValue, BitVec.and_assoc, BitVec.and_assoc, hmask, BitVec.and_zero]
  rfl

theorem swapOffst_swapValue {slot : BitVec 64} (hslot : slot.toNat < 2 ^ 50)
    (number : BitVec 64) :
    swapOffst (swapValue (slot * sysPageSize) number) = slot <<< 21 := by
  have hnumber : number <<< (59 + 12) = 0#64 := BitVec.shiftLeft_eq_zero (by decide)
  rw [swapOffst, swapValue_slot hslot, mul_sysPageSize, BitVec.shiftLeft_or_distrib,
    ← BitVec.shiftLeft_add, ← BitVec.shiftLeft_add, hnumber, BitVec.or_zero]

theorem eventSlot_shiftLeft (slot : BitVec 64) :
    eventSlot (slot <<< 21) = slot.toNat % 2 ^ 38 := by
  rw [eventSlot, div_4096, ← BitVec.shiftLeft_add, ← BitVec.shiftRight_add,
    BitVec.toNat_ushiftRight, BitVec.toNat_shiftLeft, Nat.shiftLeft_eq, Nat.shiftRight_eq_div_pow]
  omega

/-- The slot of a device with at most `2 ^ 38` slots comes back from its entry.
The device number does not. -/
theorem eventSlot_swapOffst_swapValue {slot : BitVec 64} (hslot : slot.toNat < 2 ^ 38)
    (number : BitVec 64) :
    eventSlot (swapOffst (swapValue (slot * sysPageSize) number)) = slot.toNat := by
  rw [swapOffst_swapValue (by omega), eventSlot_shiftLeft]
  exact Nat.mod_eq_of_lt hslot

end UserPaging.Usm
