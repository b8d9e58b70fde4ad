import UserPaging.Usm.SwapEntry

/-!
# Swap devices and their entries

`init_swap_device_nodes` accepts a size, makes one node for each of its pages and
puts the page's offset into it.  An entry made from a node and the number of its
device should lead back to both.  It leads back to the node modulo `2 ^ 38`, and
the device number that is looked up comes from the node as well.
-/

namespace UserPaging.Usm

open UserPaging.Foundation

/-! ## The nodes of a device -/

/-- The loop of `init_swap_device_nodes` from the node `itr` on; `none` when the rounds do
not suffice. -/
def initNodes (size : BitVec 64) : Nat → BitVec 64 → Option (List (BitVec 64))
  | 0, _ => none
  | rounds + 1, itr =>
      if itr * sysPageSize < size then
        (initNodes size rounds (itr + 1)).map fun offsets => itr * sysPageSize :: offsets
      else some []

def sizeRefused (size : BitVec 64) : Bool :=
  size % sysPageSize != 0 || decide ((1 : BitVec 64) <<< (8 * 8 - 3) < size)

/-- The offsets of the nodes, or `none` when 1 is returned. -/
def initSwapDeviceNodes (rounds : Nat) (size : BitVec 64) (mallocFails : Bool) :
    Option (List (BitVec 64)) :=
  if sizeRefused size then none else if mallocFails then none else initNodes size rounds 0

private theorem toNat_sysPageSize : sysPageSize.toNat = 4096 := rfl

private theorem sizeRefused_eq_false {size : BitVec 64} :
    sizeRefused size = false ↔ size.toNat % 4096 = 0 ∧ size.toNat ≤ 2 ^ 61 := by
  have hbound : ((1 : BitVec 64) <<< (8 * 8 - 3)).toNat = 2 ^ 61 := rfl
  have hmod : (size % sysPageSize = 0) ↔ size.toNat % 4096 = 0 := by
    rw [← BitVec.toNat_inj, BitVec.toNat_umod, toNat_sysPageSize]
    rfl
  rw [sizeRefused, Bool.or_eq_false_iff, bne_eq_false_iff_eq, hmod, decide_eq_false_iff_not,
    BitVec.lt_def, hbound, Nat.not_lt]

private theorem toNat_snodeOffset {slot : Nat} (hslot : slot < 2 ^ 52) :
    (snodeOffset slot).toNat = slot * 4096 := by
  have hbits : (BitVec.ofNat 64 slot).toNat = slot := by
    rw [BitVec.toNat_ofNat]
    exact Nat.mod_eq_of_lt (by omega)
  rw [snodeOffset, BitVec.toNat_mul, hbits, toNat_sysPageSize]
  exact Nat.mod_eq_of_lt (by omega)

private theorem initNodes_eq {size : BitVec 64} (hsize : size.toNat ≤ 2 ^ 61)
    (haligned : size.toNat % 4096 = 0) {left slot rounds : Nat}
    (hleft : slot + left = size.toNat / 4096) (hrounds : left < rounds) :
    initNodes size rounds (BitVec.ofNat 64 slot) =
      some ((List.range' slot left).map snodeOffset) := by
  induction left generalizing slot rounds with
  | zero =>
      obtain ⟨rounds, rfl⟩ := Nat.exists_eq_add_of_lt hrounds
      have hend : ¬ BitVec.ofNat 64 slot * sysPageSize < size := by
        rw [BitVec.lt_def, ← snodeOffset, toNat_snodeOffset (by omega)]
        omega
      rw [initNodes, if_neg hend]
      rfl
  | succ left ih =>
      obtain ⟨rounds, rfl⟩ := Nat.exists_eq_add_of_lt hrounds
      have hinside : BitVec.ofNat 64 slot * sysPageSize < size := by
        rw [BitVec.lt_def, ← snodeOffset, toNat_snodeOffset (by omega)]
        omega
      have hnext : BitVec.ofNat 64 slot + 1 = BitVec.ofNat 64 (slot + 1) := by
        rw [BitVec.ofNat_add]
        rfl
      rw [initNodes, if_pos hinside, hnext, ih (by omega) (by omega), Option.map_some]
      rfl

private theorem initSwapDeviceNodes_eq_some {size : BitVec 64} {mallocFails : Bool}
    {offsets : List (BitVec 64)} {rounds : Nat} (hrounds : size.toNat / 4096 < rounds)
    (hinit : initSwapDeviceNodes rounds size mallocFails = some offsets) :
    size.toNat ≤ 2 ^ 61 ∧ offsets = (List.range (size.toNat / 4096)).map snodeOffset := by
  unfold initSwapDeviceNodes at hinit
  split at hinit
  · cases hinit
  · rename_i hrefused
    obtain ⟨haligned, hsize⟩ := sizeRefused_eq_false.1 (Bool.not_eq_true _ ▸ hrefused)
    split at hinit
    · cases hinit
    · have hnodes := initNodes_eq hsize haligned (Nat.zero_add _) hrounds
      have hzero : BitVec.ofNat 64 0 = 0 := rfl
      rw [hzero, hinit, Option.some.injEq] at hnodes
      exact ⟨hsize, by rw [hnodes, List.range_eq_range']⟩

theorem getElem?_offsets {size offset : BitVec 64} {slot : Nat}
    (hslot : ((List.range (size.toNat / 4096)).map snodeOffset)[slot]? = some offset) :
    slot < size.toNat / 4096 ∧ offset = snodeOffset slot := by
  rw [List.getElem?_map, Option.map_eq_some_iff] at hslot
  obtain ⟨slot', hslot', rfl⟩ := hslot
  obtain ⟨hlt, heq⟩ := List.getElem?_eq_some_iff.1 hslot'
  rw [List.getElem_range] at heq
  rw [List.length_range] at hlt
  exact ⟨hlt, by rw [heq]⟩

private theorem slot_of_init {size offset : BitVec 64} {mallocFails : Bool}
    {offsets : List (BitVec 64)} {rounds slot : Nat} (hrounds : size.toNat / 4096 < rounds)
    (hinit : initSwapDeviceNodes rounds size mallocFails = some offsets)
    (hslot : offsets[slot]? = some offset) : slot < 2 ^ 49 ∧ offset = snodeOffset slot := by
  obtain ⟨hsize, rfl⟩ := initSwapDeviceNodes_eq_some hrounds hinit
  obtain ⟨hlt, hoffset⟩ := getElem?_offsets hslot
  exact ⟨by omega, hoffset⟩

/-! ## From a slot to its entry and back -/

/-- `swap_value` with the signed arithmetic of `off_t`. -/
def swapValueOffT (offset number : BitVec 64) : BitVec 64 :=
  ((((offset.sdiv 4096#64) <<< (9 + 5)).sshiftRight 5) ||| (number <<< (64 - 5))) &&&
    ~~~((1 : BitVec 64) <<< 0) &&& ~~~((1 : BitVec 64) <<< 8)

/-- The device number that `event_to_swap_entry` looks up. -/
def eventDevice (offst : BitVec 64) : BitVec 64 := offst >>> (8 * 8 - 5)

private theorem sshiftRight_of_lt {x : BitVec 64} (hx : x.toNat < 2 ^ 63) (shift : Nat) :
    x.sshiftRight shift = x >>> shift := by
  have hmsb : x.msb = false := by
    rw [BitVec.msb_eq_false_iff_two_mul_lt]
    omega
  rw [BitVec.sshiftRight_eq_of_msb_false hmsb]

private theorem swapValueOffT_snodeOffset {slot : Nat} (hslot : slot < 2 ^ 49)
    (number : BitVec 64) :
    swapValueOffT (snodeOffset slot) number = swapValue (snodeOffset slot) number := by
  have hoffset := toNat_snodeOffset (show slot < 2 ^ 52 by omega)
  have hdiv : (snodeOffset slot).sdiv 4096#64 = snodeOffset slot / 4096#64 := by
    have hmsb : (snodeOffset slot).msb = false := by
      rw [BitVec.msb_eq_false_iff_two_mul_lt]
      omega
    rw [BitVec.sdiv_eq, hmsb]
    rfl
  have hshift : ((snodeOffset slot / 4096#64) <<< (9 + 5)).toNat < 2 ^ 63 := by
    have hpage : (4096#64).toNat = 4096 := rfl
    rw [BitVec.toNat_shiftLeft, BitVec.toNat_udiv, hoffset, hpage, Nat.shiftLeft_eq]
    omega
  rw [swapValueOffT, hdiv, sshiftRight_of_lt hshift]
  rfl

private theorem eventDevice_shiftLeft (slot : BitVec 64) :
    (eventDevice (slot <<< 21)).toNat = slot.toNat % 2 ^ 43 / 2 ^ 38 := by
  rw [eventDevice, BitVec.toNat_ushiftRight, BitVec.toNat_shiftLeft, Nat.shiftLeft_eq,
    Nat.shiftRight_eq_div_pow]
  omega

section

variable {slot : Nat} {number : BitVec 64}

private theorem toNat_slot (hslot : slot < 2 ^ 49) : (BitVec.ofNat 64 slot).toNat = slot := by
  rw [BitVec.toNat_ofNat]
  exact Nat.mod_eq_of_lt (by omega)

private theorem swapOffst_entry (hslot : slot < 2 ^ 49) (number : BitVec 64) :
    swapOffst (swapValueOffT (snodeOffset slot) number) = BitVec.ofNat 64 slot <<< 21 := by
  have hbits := toNat_slot hslot
  rw [swapValueOffT_snodeOffset hslot, snodeOffset]
  exact swapOffst_swapValue (by omega) number

private theorem decoded_slot (hslot : slot < 2 ^ 49) :
    eventSlot (swapOffst (swapValueOffT (snodeOffset slot) number)) = slot % 2 ^ 38 := by
  rw [swapOffst_entry hslot, eventSlot_shiftLeft, toNat_slot hslot]

private theorem decoded_device (hslot : slot < 2 ^ 49) :
    (eventDevice (swapOffst (swapValueOffT (snodeOffset slot) number))).toNat =
      slot % 2 ^ 43 / 2 ^ 38 := by
  rw [swapOffst_entry hslot, eventDevice_shiftLeft, toNat_slot hslot]

private theorem toNat_le_of_pteNone {entry : BitVec 64} (hnone : pteNone entry = true) :
    entry.toNat ≤ 0x60 := by
  rw [pteNone, beq_iff_eq] at hnone
  have hsplit := and_not_or_and entry 0x60
  have hlow : entry &&& 0x60 = entry := by
    rw [hnone] at hsplit
    exact BitVec.zero_or.symm.trans hsplit
  rw [← hlow, BitVec.toNat_and]
  exact Nat.and_le_right

private theorem pteNone_entry (hslot : slot < 2 ^ 49) (hnumber : number.toNat < 32) :
    pteNone (swapValueOffT (snodeOffset slot) number) = true ↔ number = 0 ∧ slot = 0 := by
  have hbits := toNat_slot hslot
  rw [swapValueOffT_snodeOffset hslot, snodeOffset, swapValue_slot (by omega)]
  have hslotPart : (BitVec.ofNat 64 slot <<< 9).toNat = slot * 2 ^ 9 := by
    rw [BitVec.toNat_shiftLeft, hbits, Nat.shiftLeft_eq]
    omega
  have hnumberPart : (number <<< 59).toNat = number.toNat * 2 ^ 59 := by
    rw [BitVec.toNat_shiftLeft, Nat.shiftLeft_eq]
    omega
  constructor
  · intro hnone
    -- an empty entry is no larger than the two bits that the kernel ignores
    have hsmall := toNat_le_of_pteNone hnone
    rw [BitVec.toNat_or] at hsmall
    have hleft := Nat.le_trans Nat.left_le_or hsmall
    have hright := Nat.le_trans Nat.right_le_or hsmall
    have hzero : number.toNat = 0 := by omega
    exact ⟨BitVec.eq_of_toNat_eq hzero, by omega⟩
  · rintro ⟨rfl, rfl⟩
    decide

end

/-- The entry of a slot is neither empty nor present, and the device and the slot that are
looked up for it are the ones that it was made from. -/
structure RoundTrips (number offset : BitVec 64) (slot : Nat) : Prop where
  notNone : pteNone (swapValueOffT offset number) = false
  notPresent : ptePresent (swapValueOffT offset number) = false
  device : eventDevice (swapOffst (swapValueOffT offset number)) = number
  slot : eventSlot (swapOffst (swapValueOffT offset number)) = slot

/-- What `event_to_swap_entry` looks up for an entry. -/
def lookedUp (entry : BitVec 64) : BitVec 64 × Nat :=
  (eventDevice (swapOffst entry), eventSlot (swapOffst entry))

/-- An entry leads back to where it was made exactly on device 0, for the slots from 1 to
`2 ^ 38 - 1`; whatever their devices, two entries lead to the same place exactly when
their slots agree modulo `2 ^ 43`. -/
theorem roundTrips_iff {rounds rounds' slot slot' : Nat} {size size' : BitVec 64}
    {mallocFails mallocFails' : Bool} {offsets offsets' : List (BitVec 64)}
    {number number' offset offset' : BitVec 64}
    (hrounds : size.toNat / 4096 < rounds) (hrounds' : size'.toNat / 4096 < rounds')
    (hinit : initSwapDeviceNodes rounds size mallocFails = some offsets)
    (hinit' : initSwapDeviceNodes rounds' size' mallocFails' = some offsets')
    (hslot : offsets[slot]? = some offset) (hslot' : offsets'[slot']? = some offset')
    (hnumber : number.toNat < 32) :
    (RoundTrips number offset slot ↔ number = 0 ∧ 0 < slot ∧ slot < 2 ^ 38) ∧
      (lookedUp (swapValueOffT offset number) = lookedUp (swapValueOffT offset' number') ↔
        slot % 2 ^ 43 = slot' % 2 ^ 43) := by
  obtain ⟨hlt, rfl⟩ := slot_of_init hrounds hinit hslot
  obtain ⟨hlt', rfl⟩ := slot_of_init hrounds' hinit' hslot'
  constructor
  · constructor
    · rintro ⟨hnone, -, hdevice, hback⟩
      rw [decoded_slot hlt] at hback
      have hzero : number.toNat = 0 := by
        rw [← hdevice, decoded_device hlt]
        omega
      have hnumber0 : number = 0 := BitVec.eq_of_toNat_eq hzero
      refine ⟨hnumber0, Nat.pos_of_ne_zero fun hslot0 => ?_, by omega⟩
      have hempty := (pteNone_entry hlt hnumber).2 ⟨hnumber0, hslot0⟩
      rw [hnone] at hempty
      cases hempty
    · rintro ⟨rfl, hpos, hbound⟩
      refine ⟨?_, ?_, ?_, ?_⟩
      · rw [← Bool.not_eq_true, pteNone_entry hlt hnumber]
        omega
      · rw [swapValueOffT_snodeOffset hlt, ptePresent_swapValue]
      · apply BitVec.eq_of_toNat_eq
        have hzero : (0 : BitVec 64).toNat = 0 := rfl
        rw [decoded_device hlt, hzero]
        omega
      · rw [decoded_slot hlt]
        exact Nat.mod_eq_of_lt hbound
  · rw [lookedUp, lookedUp, Prod.mk.injEq, ← BitVec.toNat_inj, decoded_device hlt,
      decoded_device hlt', decoded_slot hlt, decoded_slot hlt']
    omega

theorem roundTrips_iff_two_pages :
    initSwapDeviceNodes 3 8192 false = some [0, 4096] ∧
      (RoundTrips 0 4096 1 ↔ (0 : BitVec 64) = 0 ∧ 0 < 1 ∧ 1 < 2 ^ 38) ∧
      (lookedUp (swapValueOffT 4096 0) = lookedUp (swapValueOffT 4096 2) ↔
        1 % 2 ^ 43 = 1 % 2 ^ 43) := by
  have hinit : initSwapDeviceNodes 3 8192 false = some [0, 4096] := by decide
  have hslot : [0#64, 4096][1]? = some 4096 := rfl
  exact ⟨hinit, roundTrips_iff (by decide) (by decide) hinit hinit hslot hslot (by decide)⟩

/-- The first slot of device 0 gets the empty entry, and page 1 of device 1 and page 1 of
device 2 are both looked up on device 0. -/
theorem devices_share_slot :
    initSwapDeviceNodes 3 8192 false = some [0, 4096] ∧
      pteNone (swapValueOffT 0 0) = true ∧
      lookedUp (swapValueOffT 4096 1) = (0, 1) ∧ lookedUp (swapValueOffT 4096 2) = (0, 1) ∧
      ¬ RoundTrips 1 4096 1 := by
  refine ⟨by decide, by decide, by decide, by decide, fun hround => ?_⟩
  exact absurd hround.device (by decide)

end UserPaging.Usm
