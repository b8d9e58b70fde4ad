import Mathlib.Data.BitVec
import UserPaging.Foundation.Runs

/-!
# Extra pages of a fault

The daemon may answer a fault with more frames than the one that was asked for, as
runs of consecutive frames in the shared page.  `handle_usm_fault` maps them behind the
fault address, always through the page-table page of the fault (`vmf->pmd`).  A frame
whose target is mapped already is written back to the run slots, which the handler is
still reading from.
-/

namespace UserPaging.Usm

open UserPaging.Foundation

abbrev RunSlots := Nat → Run (BitVec 64)

/-- `usmPrepPreAlloc`, and what `handle_usm_fault` writes for a frame that it could not
map: the frame of the slot, whose count stays. -/
def usmPrepPreAlloc (slots : RunSlots) (pfn : BitVec 64) (pos : Nat) : RunSlots :=
  Function.update slots pos { slots pos with first := pfn }

def usmPrepPreAllocFastCounted (slots : RunSlots) (pos count : Nat) : RunSlots :=
  Function.update slots pos { slots pos with extra := count }

/-- Page-table pages by the `pmd` entry that points to them, entries by index; `none` is
an entry that is `pte_none`. -/
abbrev PageTables := BitVec 64 → BitVec 9 → Option (BitVec 64)

def pageSize : BitVec 64 := 4096

def pmdOffset (address : BitVec 64) : BitVec 64 := address >>> 21

def pteOffset (address : BitVec 64) : BitVec 9 := (address >>> 12).setWidth 9

namespace PageTables

def pte (tables : PageTables) (address : BitVec 64) : Option (BitVec 64) :=
  tables (pmdOffset address) (pteOffset address)

def setPte (tables : PageTables) (pmd : BitVec 64) (index : BitVec 9) (frame : BitVec 64) :
    PageTables :=
  Function.update tables pmd (Function.update (tables pmd) index (some frame))

end PageTables

/-- The variables of the loop over the extra frames; `offt` and `offtR` count slots. -/
structure ExtraLoop where
  tables : PageTables
  slots : RunSlots
  address : BitVec 64
  extraAllocV : BitVec 64
  extraNb : Nat
  offt : Nat
  offtR : Nat

section

variable (usm : BitVec 64 → Bool) (pmd : BitVec 64)

/-- The body of the loop up to `acct`.  In the first two cases the source also has
`*rem_size++`, which moves the pointer and leaves the word. -/
def placeExtra (s : ExtraLoop) : ExtraLoop :=
  let frame := s.extraAllocV
  let address := s.address + pageSize
  let s := { s with address := address, extraAllocV := frame + 1 }
  if !usm frame then s
  else
    match s.tables pmd (pteOffset address) with
    | some _ =>
        { s with slots := usmPrepPreAlloc s.slots frame s.offtR, offtR := s.offtR + 1 }
    | none => { s with tables := s.tables.setPte pmd (pteOffset address) frame }

def acct (frA : Nat) (s : ExtraLoop) : ExtraLoop :=
  if s.extraNb = 0 then
    let slots := usmPrepPreAllocFastCounted s.slots s.offt 0
    if frA = 0 then { s with slots := slots }
    else
      { s with
        slots := slots
        offt := s.offt + 1
        extraAllocV := (slots (s.offt + 1)).first
        extraNb := (slots (s.offt + 1)).extra }
  else { s with extraNb := s.extraNb - 1 }

def extraLoop : Nat → ExtraLoop → ExtraLoop
  | 0, s => s
  | frA + 1, s => extraLoop frA (acct frA (placeExtra usm pmd s))

end

structure ExtraAnswer where
  paddr : BitVec 64
  furtherAlloc : Nat
  remSize : BitVec 64
  slots : RunSlots

structure FaultResult where
  tables : PageTables
  remSize : BitVec 64
  slots : RunSlots

def extraStart (tables : PageTables) (address : BitVec 64) (answer : ExtraAnswer) : ExtraLoop where
  tables := tables.setPte (pmdOffset address) (pteOffset address) answer.paddr
  slots := answer.slots
  address := address
  extraAllocV := (answer.slots 0).first
  extraNb := (answer.slots 0).extra
  offt := 0
  offtR := 0

/-- `handle_usm_fault` from the daemon's answer to its success exit; `none` when another
thread has mapped the fault address meanwhile. -/
def handleUsmFault (usm : BitVec 64 → Bool) (tables : PageTables) (address : BitVec 64)
    (answer : ExtraAnswer) : Option FaultResult :=
  match tables.pte address with
  | some _ => none
  | none =>
      let start := extraStart tables address answer
      if answer.furtherAlloc = 0 then some ⟨start.tables, answer.remSize, answer.slots⟩
      else
        let s := extraLoop usm (pmdOffset address) answer.furtherAlloc start
        some ⟨s.tables, 0, s.slots⟩

/-! ## Target addresses -/

def target (address : BitVec 64) (i : Nat) : BitVec 64 := address + BitVec.ofNat 64 (4096 * i)

@[simp] theorem target_zero (address : BitVec 64) : target address 0 = address := by
  simp [target]

theorem target_add_page (address : BitVec 64) (i : Nat) :
    target (address + pageSize) i = target address (i + 1) := by
  apply BitVec.eq_of_toNat_eq
  simp [target, pageSize, BitVec.toNat_add, BitVec.toNat_ofNat]
  omega

theorem toNat_target (address : BitVec 64) (i : Nat) :
    (target address i).toNat = (address.toNat + 4096 * i) % 2 ^ 64 := by
  simp [target, BitVec.toNat_add, BitVec.toNat_ofNat]

theorem target_target (address : BitVec 64) (i j : Nat) :
    target (target address i) j = target address (i + j) := by
  apply BitVec.eq_of_toNat_eq
  simp only [toNat_target]
  omega

theorem toNat_pmdOffset (address : BitVec 64) :
    (pmdOffset address).toNat = address.toNat / 2097152 := by
  simp [pmdOffset, Nat.shiftRight_eq_div_pow]

theorem toNat_pteOffset (address : BitVec 64) :
    (pteOffset address).toNat = address.toNat / 4096 % 512 := by
  simp [pteOffset, Nat.shiftRight_eq_div_pow]

theorem toNat_pteOffset_target (address : BitVec 64) (i : Nat) :
    (pteOffset (target address i)).toNat = ((pteOffset address).toNat + i) % 512 := by
  rw [toNat_pteOffset, toNat_pteOffset, toNat_target]
  omega

theorem pteOffset_target_inj {address : BitVec 64} {i j : Nat}
    (hsame : pteOffset (target address i) = pteOffset (target address j))
    (hij : i < j + 512) (hji : j < i + 512) : i = j := by
  have hnat := congrArg BitVec.toNat hsame
  rw [toNat_pteOffset_target, toNat_pteOffset_target] at hnat
  omega

private theorem pteOffset_target_ne (address : BitVec 64) {i : Nat} (hpos : 0 < i) (hi : i < 512) :
    pteOffset (target address i) ≠ pteOffset address := by
  intro hsame
  have := pteOffset_target_inj (hsame.trans (by rw [target_zero])) (j := 0) (by omega) (by omega)
  omega

theorem pmdOffset_target {address : BitVec 64} {i : Nat}
    (hregion : (pteOffset address).toNat + i ≤ 511) :
    pmdOffset (target address i) = pmdOffset address := by
  apply BitVec.eq_of_toNat_eq
  rw [toNat_pmdOffset, toNat_pmdOffset, toNat_target]
  rw [toNat_pteOffset] at hregion
  have := address.isLt
  omega

theorem PageTables.pte_target {address : BitVec 64} {i : Nat} (tables : PageTables)
    (hregion : (pteOffset address).toNat + i ≤ 511) :
    tables.pte (target address i) = tables (pmdOffset address) (pteOffset (target address i)) := by
  rw [PageTables.pte, pmdOffset_target hregion]

/-! ## The loop -/

section

variable {usm : BitVec 64 → Bool} {pmd : BitVec 64}

def settled (usm : BitVec 64 → Bool) (frame : BitVec 64) : Option (BitVec 64) → Option (BitVec 64)
  | some entry => some entry
  | none => if usm frame then some frame else none

theorem placeExtra_of_not_usm {s : ExtraLoop} (husm : usm s.extraAllocV = false) :
    placeExtra usm pmd s =
      { s with address := s.address + pageSize, extraAllocV := s.extraAllocV + 1 } := by
  simp only [placeExtra, husm, Bool.not_false, if_true]

theorem placeExtra_of_mapped {s : ExtraLoop} (husm : usm s.extraAllocV = true)
    {entry : BitVec 64} (hpte : s.tables pmd (pteOffset (s.address + pageSize)) = some entry) :
    placeExtra usm pmd s =
      { s with
        address := s.address + pageSize
        extraAllocV := s.extraAllocV + 1
        slots := usmPrepPreAlloc s.slots s.extraAllocV s.offtR
        offtR := s.offtR + 1 } := by
  simp only [placeExtra, husm, hpte, Bool.not_true, Bool.false_eq_true, if_false]

theorem placeExtra_of_unmapped {s : ExtraLoop} (husm : usm s.extraAllocV = true)
    (hpte : s.tables pmd (pteOffset (s.address + pageSize)) = none) :
    placeExtra usm pmd s =
      { s with
        address := s.address + pageSize
        extraAllocV := s.extraAllocV + 1
        tables := s.tables.setPte pmd (pteOffset (s.address + pageSize)) s.extraAllocV } := by
  simp only [placeExtra, husm, hpte, Bool.not_true, Bool.false_eq_true, if_false]

theorem placeExtra_cases (usm : BitVec 64 → Bool) (pmd : BitVec 64) (s : ExtraLoop) :
    usm s.extraAllocV = false ∨
      (usm s.extraAllocV = true ∧
        ∃ entry, s.tables pmd (pteOffset (s.address + pageSize)) = some entry) ∨
      (usm s.extraAllocV = true ∧ s.tables pmd (pteOffset (s.address + pageSize)) = none) := by
  cases usm s.extraAllocV <;>
    cases s.tables pmd (pteOffset (s.address + pageSize)) <;> simp

@[simp] theorem placeExtra_address (s : ExtraLoop) :
    (placeExtra usm pmd s).address = s.address + pageSize := by
  rcases placeExtra_cases usm pmd s with h | ⟨h, entry, hpte⟩ | ⟨h, hpte⟩
  · rw [placeExtra_of_not_usm h]
  · rw [placeExtra_of_mapped h hpte]
  · rw [placeExtra_of_unmapped h hpte]

@[simp] theorem acct_address (frA : Nat) (s : ExtraLoop) : (acct frA s).address = s.address := by
  unfold acct
  split
  · dsimp only
    split <;> rfl
  · rfl

@[simp] theorem acct_tables (frA : Nat) (s : ExtraLoop) : (acct frA s).tables = s.tables := by
  unfold acct
  split
  · dsimp only
    split <;> rfl
  · rfl

theorem PageTables.setPte_apply (tables : PageTables) (pmd other : BitVec 64)
    (index entry : BitVec 9) (frame : BitVec 64) :
    tables.setPte pmd index frame other entry =
      if other = pmd ∧ entry = index then some frame else tables other entry := by
  by_cases hpmd : other = pmd
  · subst hpmd
    by_cases hentry : entry = index <;> simp [PageTables.setPte, hentry]
  · simp [PageTables.setPte, hpmd]

theorem placeExtra_tables (s : ExtraLoop) (other : BitVec 64) (index : BitVec 9) :
    (placeExtra usm pmd s).tables other index =
      if other = pmd ∧ index = pteOffset (s.address + pageSize) then
        settled usm s.extraAllocV (s.tables other index)
      else s.tables other index := by
  split
  · rename_i hentry
    obtain ⟨rfl, rfl⟩ := hentry
    rcases placeExtra_cases usm other s with h | ⟨h, entry, hpte⟩ | ⟨h, hpte⟩
    · rw [placeExtra_of_not_usm h]
      cases hpte : s.tables other (pteOffset (s.address + pageSize)) <;> simp [settled, h]
    · simp [placeExtra_of_mapped h hpte, hpte, settled]
    · simp [placeExtra_of_unmapped h hpte, hpte, settled, h, PageTables.setPte_apply]
  · rename_i hentry
    rcases placeExtra_cases usm pmd s with h | ⟨h, entry, hpte⟩ | ⟨h, hpte⟩
    · rw [placeExtra_of_not_usm h]
    · rw [placeExtra_of_mapped h hpte]
    · rw [placeExtra_of_unmapped h hpte]
      exact (PageTables.setPte_apply ..).trans (if_neg hentry)

/-- The frame that the loop takes from the runs for its target `i + 1`, with `n` frames
to go at the start. -/
def takenFrame (usm : BitVec 64 → Bool) (pmd : BitVec 64) : Nat → Nat → ExtraLoop → BitVec 64
  | 0, _, s => s.extraAllocV
  | i + 1, n, s => takenFrame usm pmd i (n - 1) (acct (n - 1) (placeExtra usm pmd s))

private theorem extraLoop_tables_of_ne {n : Nat} {s : ExtraLoop} {other : BitVec 64}
    {index : BitVec 9}
    (hother : other = pmd → ∀ i < n, index ≠ pteOffset (target s.address (i + 1))) :
    (extraLoop usm pmd n s).tables other index = s.tables other index := by
  induction n generalizing s with
  | zero => rfl
  | succ n ih =>
      rw [extraLoop, ih, acct_tables, placeExtra_tables, if_neg]
      · rintro ⟨hpmd, hindex⟩
        exact hother hpmd 0 (by omega) (by simpa [← target_add_page] using hindex)
      · intro hpmd i hi
        rw [acct_address, placeExtra_address, target_add_page]
        exact hother hpmd (i + 1) (by omega)

/-- Every target has an entry of its own, so that each is settled once, with the frame
that was taken for it. -/
private theorem extraLoop_tables {n : Nat} (hn : n ≤ 512) (s : ExtraLoop) {i : Nat} (hi : i < n) :
    (extraLoop usm pmd n s).tables pmd (pteOffset (target s.address (i + 1))) =
      settled usm (takenFrame usm pmd i n s)
        (s.tables pmd (pteOffset (target s.address (i + 1)))) := by
  induction n generalizing s i with
  | zero => omega
  | succ n ih =>
      cases i with
      | zero =>
          rw [extraLoop, extraLoop_tables_of_ne, acct_tables, placeExtra_tables, if_pos]
          · rfl
          · exact ⟨rfl, by rw [← target_add_page, target_zero]⟩
          · intro _ later hlater hsame
            rw [acct_address, placeExtra_address, target_add_page] at hsame
            have := pteOffset_target_inj hsame (by omega) (by omega)
            omega
      | succ i =>
          have hsettled := ih (by omega) (acct n (placeExtra usm pmd s)) (i := i) (by omega)
          rw [acct_address, placeExtra_address, target_add_page, acct_tables, placeExtra_tables,
            if_neg] at hsettled
          · exact hsettled
          · rintro ⟨-, hsame⟩
            rw [← target_zero (s.address + pageSize), target_add_page] at hsame
            have := pteOffset_target_inj hsame (by omega) (by omega)
            omega

private theorem elementFrom_acct {m : Nat} (hm : 0 < m) {s : ExtraLoop}
    (hpte : s.tables pmd (pteOffset (s.address + pageSize)) = none) (i : Nat) :
    elementFrom (· + 1) (acct m (placeExtra usm pmd s)).slots i
        (acct m (placeExtra usm pmd s)).extraAllocV (acct m (placeExtra usm pmd s)).extraNb
        (acct m (placeExtra usm pmd s)).offt =
      elementFrom (· + 1) s.slots (i + 1) s.extraAllocV s.extraNb s.offt := by
  have hplaced : ∃ tables, placeExtra usm pmd s =
      { s with
        tables := tables
        address := s.address + pageSize
        extraAllocV := s.extraAllocV + 1 } := by
    cases husm : usm s.extraAllocV with
    | false => exact ⟨s.tables, placeExtra_of_not_usm husm⟩
    | true => exact ⟨_, placeExtra_of_unmapped husm hpte⟩
  obtain ⟨tables, hplaced⟩ := hplaced
  rw [hplaced]
  cases hleft : s.extraNb with
  | zero =>
      have hkept : ∀ later, s.offt < later →
          usmPrepPreAllocFastCounted s.slots s.offt 0 later = s.slots later :=
        fun later hlater => Function.update_of_ne (by omega) _ _
      simp only [acct, if_true, show ¬ m = 0 by omega, if_false,
        hkept (s.offt + 1) (by omega), elementFrom]
      exact elementFrom_congr (fun later hlater => hkept later (by omega)) i _ _
  | succ left =>
      simp only [acct, Nat.add_one_ne_zero, if_false, Nat.add_sub_cancel, elementFrom]

/-- As long as no target is mapped, the slots that the loop has not reached stay as the
daemon wrote them. -/
private theorem takenFrame_eq {n : Nat} (hn : n ≤ 512) {i : Nat} (hi : i < n) {s : ExtraLoop}
    (hunmapped : ∀ j < i, s.tables pmd (pteOffset (target s.address (j + 1))) = none) :
    takenFrame usm pmd i n s =
      elementFrom (· + 1) s.slots i s.extraAllocV s.extraNb s.offt := by
  induction i generalizing n s with
  | zero => rfl
  | succ i ih =>
      obtain ⟨m, rfl⟩ := Nat.exists_eq_add_of_lt (Nat.zero_lt_of_lt hi)
      rw [Nat.zero_add] at hi hn ⊢
      have hfirst : s.tables pmd (pteOffset (s.address + pageSize)) = none := by
        simpa [← target_add_page] using hunmapped 0 (by omega)
      have hlater : ∀ j < i, (acct m (placeExtra usm pmd s)).tables pmd
          (pteOffset (target (acct m (placeExtra usm pmd s)).address (j + 1))) = none := by
        intro j hj
        rw [acct_address, placeExtra_address, target_add_page, acct_tables, placeExtra_tables,
          hunmapped (j + 1) (by omega), if_neg]
        rintro ⟨-, hsame⟩
        rw [← target_zero (s.address + pageSize), target_add_page] at hsame
        have := pteOffset_target_inj hsame (by omega) (by omega)
        omega
      refine (ih (by omega) (by omega) hlater).trans ?_
      exact elementFrom_acct (by omega) hfirst i

end

/-! ## The handler -/

section

variable {usm : BitVec 64 → Bool} {tables : PageTables} {address : BitVec 64}
  {answer : ExtraAnswer} {result : FaultResult}

theorem handleUsmFault_eq_some (hresult : handleUsmFault usm tables address answer = some result) :
    tables.pte address = none ∧
      result.tables = (extraLoop usm (pmdOffset address) answer.furtherAlloc
        (extraStart tables address answer)).tables ∧
      result.remSize = if answer.furtherAlloc = 0 then answer.remSize else 0 := by
  unfold handleUsmFault at hresult
  split at hresult
  · cases hresult
  · rename_i hpte
    refine ⟨hpte, ?_⟩
    by_cases hfurther : answer.furtherAlloc = 0
    · simp only [hfurther, if_true, Option.some.injEq] at hresult
      subst hresult
      simp [hfurther, extraLoop]
    · simp only [hfurther, if_false, Option.some.injEq] at hresult
      subst hresult
      simp [hfurther]

theorem handleUsmFault_isSome (usm : BitVec 64 → Bool) (answer : ExtraAnswer)
    (hpte : tables.pte address = none) :
    ∃ result, handleUsmFault usm tables address answer = some result := by
  by_cases hfurther : answer.furtherAlloc = 0 <;> simp [handleUsmFault, hpte, hfurther]

theorem handleUsmFault_of_zero (usm : BitVec 64 → Bool) (hpte : tables.pte address = none)
    (hzero : answer.furtherAlloc = 0) :
    handleUsmFault usm tables address answer =
      some ⟨tables.setPte (pmdOffset address) (pteOffset address) answer.paddr, answer.remSize,
        answer.slots⟩ := by
  simp [handleUsmFault, hpte, hzero, extraStart]

/-- The frame that the handler takes for `target address (i + 1)`. -/
def extraTaken (usm : BitVec 64 → Bool) (tables : PageTables) (address : BitVec 64)
    (answer : ExtraAnswer) (i : Nat) : BitVec 64 :=
  takenFrame usm (pmdOffset address) i answer.furtherAlloc (extraStart tables address answer)

theorem extraStart_tables (tables : PageTables) (address : BitVec 64) (answer : ExtraAnswer)
    {i : Nat} (hi : i < 511) :
    (extraStart tables address answer).tables (pmdOffset address)
        (pteOffset (target address (i + 1))) =
      tables (pmdOffset address) (pteOffset (target address (i + 1))) := by
  refine (PageTables.setPte_apply ..).trans (if_neg ?_)
  exact fun hentry => pteOffset_target_ne address (by omega) (by omega) hentry.2

theorem result_tables_target (hresult : handleUsmFault usm tables address answer = some result)
    (hfurther : answer.furtherAlloc ≤ 511) {i : Nat} (hi : i < answer.furtherAlloc) :
    result.tables (pmdOffset address) (pteOffset (target address (i + 1))) =
      settled usm (extraTaken usm tables address answer i)
        (tables (pmdOffset address) (pteOffset (target address (i + 1)))) := by
  rw [(handleUsmFault_eq_some hresult).2.1,
    ← extraStart_tables tables address answer (show i < 511 by omega)]
  exact extraLoop_tables (by omega) (extraStart tables address answer) hi

theorem result_pte_address (hresult : handleUsmFault usm tables address answer = some result)
    (hfurther : answer.furtherAlloc ≤ 511) : result.tables.pte address = some answer.paddr := by
  rw [(handleUsmFault_eq_some hresult).2.1, PageTables.pte, extraLoop_tables_of_ne]
  · exact (PageTables.setPte_apply ..).trans (if_pos ⟨rfl, rfl⟩)
  · exact fun _ i hi => (pteOffset_target_ne address (by omega) (by omega)).symm

theorem result_tables_of_ne (hresult : handleUsmFault usm tables address answer = some result)
    {pmd : BitVec 64} {index : BitVec 9}
    (hother : pmd = pmdOffset address →
      ∀ i ≤ answer.furtherAlloc, index ≠ pteOffset (target address i)) :
    result.tables pmd index = tables pmd index := by
  rw [(handleUsmFault_eq_some hresult).2.1, extraLoop_tables_of_ne]
  · refine (PageTables.setPte_apply ..).trans (if_neg ?_)
    rintro ⟨hpmd, hindex⟩
    exact hother hpmd 0 (by omega) (by rw [target_zero]; exact hindex)
  · exact fun hpmd i hi => hother hpmd (i + 1) (by omega)

theorem result_pte_behind (hresult : handleUsmFault usm tables address answer = some result)
    (hfurther : answer.furtherAlloc ≤ 511) :
    result.tables.pte (target address (answer.furtherAlloc + 1)) =
      tables.pte (target address (answer.furtherAlloc + 1)) := by
  refine result_tables_of_ne hresult fun hpmd i hi hindex => ?_
  have hpmd := congrArg BitVec.toNat hpmd
  have hindex := congrArg BitVec.toNat hindex
  rw [toNat_pmdOffset, toNat_pmdOffset, toNat_target] at hpmd
  rw [toNat_pteOffset_target, toNat_pteOffset_target, toNat_pteOffset] at hindex
  have := address.isLt
  omega

def extraFrame (slots : RunSlots) (i : Nat) : BitVec 64 := element (· + 1) slots 0 i

theorem extraTaken_eq (hfurther : answer.furtherAlloc ≤ 511) {i : Nat}
    (hi : i < answer.furtherAlloc)
    (hunmapped : ∀ j < i,
      tables (pmdOffset address) (pteOffset (target address (j + 1))) = none) :
    extraTaken usm tables address answer i = extraFrame answer.slots i := by
  refine takenFrame_eq (s := extraStart tables address answer) (by omega) hi fun j hj => ?_
  exact (extraStart_tables tables address answer (by omega)).trans (hunmapped j hj)

end

end UserPaging.Usm
