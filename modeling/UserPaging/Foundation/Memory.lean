import Mathlib.Data.BitVec
import Mathlib.Tactic.Ring

/-!
# Byte memory with little-endian words

A memory gives a byte to every address and addresses wrap around.  Words are
stored and loaded by their bytes; two accesses are independent when the distance
from either address to the other leaves room for the word.
-/

namespace UserPaging.Foundation

abbrev Memory (width : Nat) := BitVec width → BitVec 8

namespace Memory

variable {width bytes : Nat}

def load : (bytes : Nat) → Memory width → BitVec width → BitVec (8 * bytes)
  | 0, _, _ => 0#0
  | bytes + 1, mem, addr => load bytes mem (addr + 1) ++ mem addr

def store (mem : Memory width) (addr : BitVec width) (value : BitVec (8 * bytes)) :
    Memory width := fun other =>
  if (other - addr).toNat < bytes then value.extractLsb' (8 * (other - addr).toNat) 8
  else mem other

private theorem getLsbD_load (mem : Memory width) (addr : BitVec width) {bit : Nat}
    (hbit : bit < 8 * bytes) :
    (load bytes mem addr).getLsbD bit =
      (mem (addr + BitVec.ofNat width (bit / 8))).getLsbD (bit % 8) := by
  induction bytes generalizing addr bit with
  | zero => omega
  | succ bytes ih =>
      rw [load, BitVec.getLsbD_append]
      by_cases hlow : bit < 8
      · have hbyte : bit / 8 = 0 := by omega
        have hindex : bit % 8 = bit := by omega
        simp [hlow, hbyte, hindex]
      · have hbyte : bit / 8 = 1 + (bit - 8) / 8 := by omega
        have hindex : bit % 8 = (bit - 8) % 8 := by omega
        rw [if_neg (by simpa using hlow), ih (addr + 1) (by omega), hbyte, hindex,
          BitVec.ofNat_add, ← BitVec.add_assoc]
        rfl

private theorem load_congr {mem mem' : Memory width} {addr : BitVec width}
    (hsame : ∀ i < bytes, mem (addr + BitVec.ofNat width i) = mem' (addr + BitVec.ofNat width i)) :
    load bytes mem addr = load bytes mem' addr := by
  apply BitVec.eq_of_getLsbD_eq
  intro bit hbit
  have hbyte : bit / 8 < bytes := by omega
  rw [getLsbD_load mem addr hbit, getLsbD_load mem' addr hbit, hsame _ hbyte]

theorem store_of_le {mem : Memory width} {addr other : BitVec width}
    {value : BitVec (8 * bytes)} (hout : bytes ≤ (other - addr).toNat) :
    store mem addr value other = mem other :=
  if_neg (Nat.not_lt.2 hout)

theorem load_store_self (hbytes : bytes ≤ 2 ^ width) (mem : Memory width)
    (addr : BitVec width) (value : BitVec (8 * bytes)) :
    load bytes (store mem addr value) addr = value := by
  apply BitVec.eq_of_getLsbD_eq
  intro bit hbit
  have hbyte : bit / 8 < bytes := by omega
  have hindex : (addr + BitVec.ofNat width (bit / 8) - addr).toNat = bit / 8 := by
    rw [BitVec.add_comm, BitVec.add_sub_cancel, BitVec.toNat_ofNat]
    exact Nat.mod_eq_of_lt (by omega)
  have hsplit : 8 * (bit / 8) + bit % 8 = bit := Nat.div_add_mod bit 8
  have hlow : bit % 8 < 8 := Nat.mod_lt bit (by omega)
  rw [getLsbD_load _ _ hbit, store, hindex, if_pos hbyte, BitVec.getLsbD_extractLsb', hsplit]
  simp [hlow]

private theorem le_toNat_add_sub {words : Nat} {addr addr' : BitVec width}
    (hafter : words ≤ (addr - addr').toNat) (hbefore : bytes ≤ (addr' - addr).toNat)
    {i : Nat} (hi : i < bytes) : words ≤ (addr + BitVec.ofNat width i - addr').toNat := by
  have hdistance : addr + BitVec.ofNat width i - addr' =
      addr - addr' + BitVec.ofNat width i := add_sub_right_comm ..
  have hneg : (addr' - addr).toNat = (2 ^ width - (addr - addr').toNat) % 2 ^ width := by
    rw [← neg_sub, BitVec.toNat_neg]
  have hlt := (addr - addr').isLt
  have hroom : (addr - addr').toNat + i < 2 ^ width := by
    rw [hneg] at hbefore
    by_cases hzero : (addr - addr').toNat = 0
    · rw [hzero, Nat.sub_zero, Nat.mod_self] at hbefore
      omega
    · rw [Nat.mod_eq_of_lt (by omega)] at hbefore
      omega
  rw [hdistance, BitVec.toNat_add, BitVec.toNat_ofNat, Nat.add_mod_mod,
    Nat.mod_eq_of_lt hroom]
  omega

theorem load_store_of_disjoint {words : Nat} {mem : Memory width} {addr addr' : BitVec width}
    {value : BitVec (8 * words)} (hafter : words ≤ (addr - addr').toNat)
    (hbefore : bytes ≤ (addr' - addr).toNat) :
    load bytes (store mem addr' value) addr = load bytes mem addr := by
  apply load_congr
  intro i hi
  exact store_of_le (le_toNat_add_sub hafter hbefore hi)

/-! ## Words of 64 bits below a base address -/

def load64 (mem : Memory 64) (addr : BitVec 64) : BitVec 64 := load 8 mem addr

def store64 (mem : Memory 64) (addr value : BitVec 64) : Memory 64 :=
  @store 64 8 mem addr value

private theorem load64_store64_self (mem : Memory 64) (addr value : BitVec 64) :
    load64 (store64 mem addr value) addr = value :=
  @load_store_self 64 8 (by decide) mem addr value

private theorem toNat_depth_sub_depth (base : BitVec 64) {depth depth' : Nat}
    (hdepth : depth < 2 ^ 64) (hdepth' : depth' < 2 ^ 64) :
    (base - BitVec.ofNat 64 depth - (base - BitVec.ofNat 64 depth')).toNat =
      (2 ^ 64 - depth + depth') % 2 ^ 64 := by
  rw [sub_sub_sub_cancel_left, BitVec.toNat_sub, BitVec.toNat_ofNat, BitVec.toNat_ofNat,
    Nat.mod_eq_of_lt hdepth, Nat.mod_eq_of_lt hdepth']

private theorem load64_store64_of_depth {depth depth' : Nat} (mem : Memory 64)
    (base value : BitVec 64) (hne : depth + 8 ≤ depth' ∨ depth' + 8 ≤ depth)
    (hdepth : depth < 2 ^ 63) (hdepth' : depth' < 2 ^ 63) :
    load64 (store64 mem (base - BitVec.ofNat 64 depth') value) (base - BitVec.ofNat 64 depth) =
      load64 mem (base - BitVec.ofNat 64 depth) := by
  apply load_store_of_disjoint
  · rw [toNat_depth_sub_depth base (by omega) (by omega)]
    omega
  · rw [toNat_depth_sub_depth base (by omega) (by omega)]
    omega

theorem toNat_sub_depth {base : BitVec 64} {depth : Nat} (hdepth : depth ≤ base.toNat) :
    (base - BitVec.ofNat 64 depth).toNat = base.toNat - depth := by
  have hlt := base.isLt
  have hmod : depth % 2 ^ 64 = depth := Nat.mod_eq_of_lt (by omega)
  rw [BitVec.toNat_sub, BitVec.toNat_ofNat, hmod]
  omega

theorem store64_of_base_le {mem : Memory 64} {base addr value : BitVec 64} {depth : Nat}
    (hword : 8 ≤ depth) (hdepth : depth ≤ base.toNat) (haddr : base ≤ addr) :
    store64 mem (base - BitVec.ofNat 64 depth) value addr = mem addr := by
  apply store_of_le
  have hbase := toNat_sub_depth hdepth
  have hlt := addr.isLt
  have hle : base.toNat ≤ addr.toNat := haddr
  rw [BitVec.toNat_sub, hbase]
  omega

private theorem load64_congr_of_depth {mem mem' : Memory 64} {base : BitVec 64} {depth low : Nat}
    (hsame : ∀ addr, base - BitVec.ofNat 64 low ≤ addr → mem' addr = mem addr)
    (hword : 8 ≤ depth) (hlow : depth ≤ low) (hbase : low ≤ base.toNat) :
    load64 mem' (base - BitVec.ofNat 64 depth) = load64 mem (base - BitVec.ofNat 64 depth) := by
  apply load_congr
  intro i hi
  apply hsame
  have hstart := toNat_sub_depth (hlow.trans hbase)
  have hlt := base.isLt
  rw [BitVec.le_def, toNat_sub_depth hbase, BitVec.toNat_add, hstart, BitVec.toNat_ofNat]
  omega

/-! ## Stacks -/

def Words (base : BitVec 64) (mem : Memory 64) : List (BitVec 64) → Prop
  | [] => True
  | word :: words =>
      mem.load64 (base - BitVec.ofNat 64 (8 * (words.length + 1))) = word ∧ Words base mem words

variable {base : BitVec 64} {mem mem' : Memory 64} {words : List (BitVec 64)}

theorem Words.congr {low : Nat}
    (hsame : ∀ addr, base - BitVec.ofNat 64 low ≤ addr → mem' addr = mem addr)
    (hbase : low ≤ base.toNat) (hwords : Words base mem words) (hlow : 8 * words.length ≤ low) :
    Words base mem' words := by
  induction words with
  | nil => trivial
  | cons word words ih =>
      rw [List.length_cons] at hlow
      refine ⟨?_, ih hwords.2 (by omega)⟩
      rw [load64_congr_of_depth hsame (by omega) hlow hbase]
      exact hwords.1

theorem Words.store {depth : Nat} (hwords : Words base mem words)
    (hdepth : 8 * words.length + 8 ≤ depth) (hbound : depth < 2 ^ 63) (value : BitVec 64) :
    Words base (mem.store64 (base - BitVec.ofNat 64 depth) value) words := by
  induction words with
  | nil => trivial
  | cons word words ih =>
      rw [List.length_cons] at hdepth
      refine ⟨?_, ih hwords.2 (by omega)⟩
      rw [load64_store64_of_depth mem base value (by omega) (by omega) hbound]
      exact hwords.1

theorem Words.push (hwords : Words base mem words) (hbound : 8 * words.length + 8 < 2 ^ 63)
    (word : BitVec 64) :
    Words base (mem.store64 (base - BitVec.ofNat 64 (8 * (words.length + 1))) word)
      (word :: words) :=
  ⟨load64_store64_self _ _ _, hwords.store (by omega) (by omega) word⟩

theorem Words.load {i : Nat} (hwords : Words base mem words) (hi : i < words.length) :
    mem.load64 (base - BitVec.ofNat 64 (8 * words.length) + BitVec.ofNat 64 (8 * i)) =
      words[i] := by
  induction words generalizing i with
  | nil => simp at hi
  | cons word words ih =>
      cases i with
      | zero =>
          have hzero : BitVec.ofNat 64 (8 * 0) = 0 := rfl
          rw [hzero, add_zero]
          exact hwords.1
      | succ i =>
          rw [List.length_cons] at hi ⊢
          have hshift : base - BitVec.ofNat 64 (8 * (words.length + 1)) +
              BitVec.ofNat 64 (8 * (i + 1)) =
                base - BitVec.ofNat 64 (8 * words.length) + BitVec.ofNat 64 (8 * i) := by
            rw [Nat.mul_succ, Nat.mul_succ, BitVec.ofNat_add, BitVec.ofNat_add]
            ring
          rw [hshift]
          exact ih hwords.2 (by omega)

end Memory

end UserPaging.Foundation
