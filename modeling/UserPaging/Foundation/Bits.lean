import Mathlib.Data.BitVec

/-!
# Bit vectors

Packing a small number into a word and taking it out again is a left shift
followed by a right shift; it loses nothing while the number fits into the room
that the shift leaves.  An arithmetic shift leaves only copies of the sign when the
number is small in absolute value.
-/

namespace UserPaging.Foundation

theorem shiftLeft_ushiftRight_of_lt {width : Nat} {x : BitVec width} (shift room : Nat)
    (hroom : shift + room ≤ width) (hx : x.toNat < 2 ^ room) :
    (x <<< shift) >>> shift = x := by
  have hlt : x.toNat * 2 ^ shift < 2 ^ width :=
    calc
      x.toNat * 2 ^ shift < 2 ^ room * 2 ^ shift :=
        Nat.mul_lt_mul_of_pos_right hx (Nat.two_pow_pos shift)
      _ = 2 ^ (shift + room) := by rw [Nat.pow_add, Nat.mul_comm]
      _ ≤ 2 ^ width := Nat.pow_le_pow_right (by decide) hroom
  apply BitVec.eq_of_toNat_eq
  rw [BitVec.toNat_ushiftRight, BitVec.toNat_shiftLeft, Nat.shiftLeft_eq,
    Nat.mod_eq_of_lt hlt, Nat.shiftRight_eq_div_pow,
    Nat.mul_div_cancel _ (Nat.two_pow_pos shift)]

theorem sshiftRight_eq_zero {width shift : Nat} {x : BitVec width} (hshift : shift < width)
    (hx : x.toNat < 2 ^ shift) : x.sshiftRight shift = BitVec.ofNat width 0 := by
  have hpow : 2 ^ (shift + 1) ≤ 2 ^ width := Nat.pow_le_pow_right (by decide) hshift
  rw [Nat.pow_succ] at hpow
  apply BitVec.eq_of_toInt_eq
  rw [BitVec.toInt_sshiftRight, BitVec.toInt_eq_toNat_cond, if_pos (by omega),
    Int.shiftRight_eq_div_pow, BitVec.toInt_zero]
  exact_mod_cast Nat.div_eq_of_lt hx

theorem sshiftRight_eq_neg_one {width shift : Nat} {x : BitVec width} (hshift : shift < width)
    (hx : 2 ^ width - 2 ^ shift ≤ x.toNat) : x.sshiftRight shift = BitVec.allOnes width := by
  have hpow : 2 ^ (shift + 1) ≤ 2 ^ width := Nat.pow_le_pow_right (by decide) hshift
  rw [Nat.pow_succ] at hpow
  have hpos : 0 < 2 ^ shift := Nat.two_pow_pos shift
  have hlt := x.isLt
  apply BitVec.eq_of_toInt_eq
  rw [BitVec.toInt_sshiftRight, BitVec.toInt_eq_toNat_cond, if_neg (by omega),
    Int.shiftRight_eq_div_pow, BitVec.toInt_allOnes, if_pos (by omega)]
  have hquotient := (Int.ediv_emod_unique (a := (x.toNat : Int) - (2 ^ width : Nat))
    (b := (2 ^ shift : Nat)) (r := x.toNat - (2 ^ width : Nat) + (2 ^ shift : Nat)) (q := -1)
    (by omega)).2 ⟨by omega, by omega, by omega⟩
  exact hquotient.1

theorem lt_of_sshiftRight_eq_zero {width shift : Nat} {x : BitVec width}
    (hzero : x.sshiftRight shift = BitVec.ofNat width 0) : x.toNat < 2 ^ shift := by
  have hpos : (0 : Int) < ((2 ^ shift : Nat) : Int) := by exact_mod_cast Nat.two_pow_pos shift
  have hlt := x.isLt
  have hint := congrArg BitVec.toInt hzero
  rw [BitVec.toInt_sshiftRight, Int.shiftRight_eq_div_pow, BitVec.toInt_zero,
    Int.ediv_eq_iff_of_pos hpos, BitVec.toInt_eq_toNat_cond] at hint
  split at hint <;> omega

theorem le_of_sshiftRight_eq_allOnes {width shift : Nat} {x : BitVec width}
    (hwidth : 0 < width) (hones : x.sshiftRight shift = BitVec.allOnes width) :
    2 ^ width - 2 ^ shift ≤ x.toNat := by
  have hpos : (0 : Int) < ((2 ^ shift : Nat) : Int) := by exact_mod_cast Nat.two_pow_pos shift
  have hint := congrArg BitVec.toInt hones
  rw [BitVec.toInt_sshiftRight, Int.shiftRight_eq_div_pow, BitVec.toInt_allOnes, if_pos hwidth,
    Int.ediv_eq_iff_of_pos hpos, BitVec.toInt_eq_toNat_cond] at hint
  split at hint <;> omega

theorem toNat_mod_of_and_eq_zero {width : Nat} (k : Nat) {x : BitVec width}
    (hlow : x &&& BitVec.ofNat width (2 ^ k - 1) = BitVec.ofNat width 0) (hk : k ≤ width) :
    x.toNat % 2 ^ k = 0 := by
  have hbits := congrArg BitVec.toNat hlow
  have hmask : (2 ^ k - 1) % 2 ^ width = 2 ^ k - 1 :=
    Nat.mod_eq_of_lt (by
      have hle : 2 ^ k ≤ 2 ^ width := Nat.pow_le_pow_right (by decide) hk
      have hpos := Nat.two_pow_pos k
      omega)
  rwa [BitVec.toNat_and, BitVec.toNat_ofNat, hmask, Nat.and_two_pow_sub_one_eq_mod,
    BitVec.toNat_zero] at hbits

theorem and_not_or_and {width : Nat} (x mask : BitVec width) :
    x &&& ~~~mask ||| x &&& mask = x := by
  rw [← BitVec.and_or_distrib_left, BitVec.or_comm]
  simp

end UserPaging.Foundation
