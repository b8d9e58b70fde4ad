import UserPaging.Usm.ExtraPages
import UserPaging.Usm.SharedPage

/-!
# Where extra pages go

The handler looks up every target in the page-table page of the fault address.  For a
target in the next 2 MiB region that is an entry of an address below the fault.  A target
that is mapped already is skipped, but the frame is neither counted in `rem_size` nor
kept apart from the runs that are still to be read.
-/

namespace UserPaging.Usm

open UserPaging.Foundation

/-! ## Runs that are overwritten -/

/-- The frames, of the first `i` ones, that the handler gives up because their entry in the
page-table page of the fault is taken. -/
def givenUp (usm : BitVec 64 → Bool) (tables : PageTables) (address : BitVec 64)
    (slots : RunSlots) (i : Nat) : List (BitVec 64) :=
  ((List.range i).filter fun j => usm (extraFrame slots j) &&
    (tables (pmdOffset address) (pteOffset (target address (j + 1)))).isSome).map
      (extraFrame slots)

/-- The frames that are given up are written over the run slots, from the first on.  The slot
of every run still holds its first frame when the handler comes to it. -/
def RunsSpared (usm : BitVec 64 → Bool) (tables : PageTables) (address : BitVec 64)
    (answer : ExtraAnswer) : Prop :=
  ∀ pos, 0 < pos → runStart answer.slots pos < answer.furtherAlloc →
    ∀ frame, (givenUp usm tables address answer.slots (runStart answer.slots pos))[pos]? =
      some frame → frame = (answer.slots pos).first

section

variable {usm : BitVec 64 → Bool} {tables : PageTables} {address : BitVec 64}
  {answer : ExtraAnswer} {s : ExtraLoop} {i : Nat}

private theorem givenUp_succ (i : Nat) :
    givenUp usm tables address answer.slots (i + 1) = givenUp usm tables address answer.slots i ++
      if usm (extraFrame answer.slots i) &&
          (tables (pmdOffset address) (pteOffset (target address (i + 1)))).isSome then
        [extraFrame answer.slots i] else [] := by
  rw [givenUp, List.range_succ, List.filter_append, List.map_append]
  congr 1
  rw [List.filter_singleton]
  cases usm (extraFrame answer.slots i) &&
    (tables (pmdOffset address) (pteOffset (target address (i + 1)))).isSome <;> rfl

/-- The loop before its frame `i`, as long as it has met the frames of the daemon. -/
structure Reads (usm : BitVec 64 → Bool) (tables : PageTables) (address : BitVec 64)
    (answer : ExtraAnswer) (i : Nat) (s : ExtraLoop) : Prop where
  reached : s.address = target address i
  entries : ∀ j, i ≤ j → j < answer.furtherAlloc →
    s.tables (pmdOffset address) (pteOffset (target address (j + 1))) =
      tables (pmdOffset address) (pteOffset (target address (j + 1)))
  begun : runStart answer.slots s.offt ≤ i
  position : runStart answer.slots (s.offt + 1) = i + s.extraNb + 1
  offtR : s.offtR = (givenUp usm tables address answer.slots i).length
  first : ∀ pos, (s.slots pos).first =
    ((givenUp usm tables address answer.slots i)[pos]?).getD (answer.slots pos).first
  extra : ∀ pos, s.offt < pos → (s.slots pos).extra = (answer.slots pos).extra
  frame : s.extraAllocV = extraFrame answer.slots i

/-- What the loop writes for the frame `i`: the slot after those of earlier frames that were
given up, if this one is given up too. -/
private theorem Reads.slots_placeExtra (h : Reads usm tables address answer i s)
    (hi : i < answer.furtherAlloc) :
    (placeExtra usm (pmdOffset address) s).offtR =
        (givenUp usm tables address answer.slots (i + 1)).length ∧
      (∀ pos, ((placeExtra usm (pmdOffset address) s).slots pos).first =
        ((givenUp usm tables address answer.slots (i + 1))[pos]?).getD
          (answer.slots pos).first) ∧
      ∀ pos, ((placeExtra usm (pmdOffset address) s).slots pos).extra = (s.slots pos).extra := by
  have hentry : s.tables (pmdOffset address) (pteOffset (s.address + pageSize)) =
      tables (pmdOffset address) (pteOffset (target address (i + 1))) := by
    rw [← h.entries i le_rfl hi, h.reached, ← target_zero (target address i + pageSize),
      target_add_page, target_target]
  rw [givenUp_succ]
  rcases placeExtra_cases usm (pmdOffset address) s with husm | ⟨husm, entry, hpte⟩ | ⟨husm, hpte⟩
  · rw [placeExtra_of_not_usm husm]
    rw [h.frame] at husm
    simp only [husm, Bool.false_and, Bool.false_eq_true, if_false, List.append_nil]
    exact ⟨h.offtR, h.first, fun _ => trivial⟩
  · rw [placeExtra_of_mapped husm hpte]
    rw [h.frame] at husm
    rw [hentry] at hpte
    simp only [husm, hpte, Option.isSome_some, Bool.and_self, if_true, List.length_append,
      List.length_singleton, h.offtR, h.frame, true_and]
    refine ⟨fun pos => ?_, fun pos => ?_⟩
    · by_cases heq : pos = (givenUp usm tables address answer.slots i).length
      · simp [usmPrepPreAlloc, heq]
      · rw [usmPrepPreAlloc, Function.update_of_ne heq, h.first]
        by_cases hlt : pos < (givenUp usm tables address answer.slots i).length
        · rw [List.getElem?_append_left hlt]
        · rw [List.getElem?_eq_none (by omega), List.getElem?_eq_none (by simp; omega)]
    · by_cases heq : pos = (givenUp usm tables address answer.slots i).length
      · simp [usmPrepPreAlloc, heq]
      · rw [usmPrepPreAlloc, Function.update_of_ne heq]
  · rw [placeExtra_of_unmapped husm hpte]
    rw [hentry] at hpte
    simp only [hpte, Option.isSome_none, Bool.and_false, Bool.false_eq_true, if_false,
      List.append_nil]
    exact ⟨h.offtR, h.first, fun _ => trivial⟩

private theorem Reads.entries_placeExtra (h : Reads usm tables address answer i s)
    (hmax : answer.furtherAlloc ≤ 511) {j : Nat} (hij : i < j) (hj : j < answer.furtherAlloc) :
    (placeExtra usm (pmdOffset address) s).tables (pmdOffset address)
        (pteOffset (target address (j + 1))) =
      tables (pmdOffset address) (pteOffset (target address (j + 1))) := by
  rw [placeExtra_tables, if_neg, h.entries j hij.le hj]
  rintro ⟨-, hsame⟩
  rw [h.reached, ← target_zero (target address i + pageSize), target_add_page,
    target_target] at hsame
  have := pteOffset_target_inj hsame (by omega) (by omega)
  omega

private theorem placeExtra_reader (usm : BitVec 64 → Bool) (s : ExtraLoop) (pmd : BitVec 64) :
    (placeExtra usm pmd s).offt = s.offt ∧ (placeExtra usm pmd s).extraNb = s.extraNb ∧
      (placeExtra usm pmd s).extraAllocV = s.extraAllocV + 1 := by
  rcases placeExtra_cases usm pmd s with husm | ⟨husm, entry, hpte⟩ | ⟨husm, hpte⟩
  · rw [placeExtra_of_not_usm husm]
    exact ⟨rfl, rfl, rfl⟩
  · rw [placeExtra_of_mapped husm hpte]
    exact ⟨rfl, rfl, rfl⟩
  · rw [placeExtra_of_unmapped husm hpte]
    exact ⟨rfl, rfl, rfl⟩

private theorem extraFrame_succ {slots : RunSlots} {pos i : Nat} (hbegun : runStart slots pos ≤ i)
    (hrun : i + 1 < runStart slots (pos + 1)) :
    extraFrame slots (i + 1) = extraFrame slots i + 1 := by
  obtain ⟨k, rfl⟩ := Nat.exists_eq_add_of_le hbegun
  rw [runStart] at hrun
  rw [extraFrame, extraFrame, Nat.add_assoc, element_runStart, element_runStart, element, element,
    elementFrom_of_le (by omega), elementFrom_of_le (by omega), Function.iterate_succ_apply']

private theorem extraFrame_runStart (slots : RunSlots) (pos : Nat) :
    extraFrame slots (runStart slots pos) = (slots pos).first :=
  element_runStart pos 0

private theorem Reads.step (h : Reads usm tables address answer i s)
    (hmax : answer.furtherAlloc ≤ 511) (hi : i + 1 < answer.furtherAlloc) {frA : Nat}
    (hfrA : frA ≠ 0) (hframe : s.extraNb = 0 →
      ((givenUp usm tables address answer.slots (i + 1))[s.offt + 1]?).getD
        (answer.slots (s.offt + 1)).first = (answer.slots (s.offt + 1)).first) :
    Reads usm tables address answer (i + 1)
      (acct frA (placeExtra usm (pmdOffset address) s)) := by
  obtain ⟨hofftR, hfirst, hextra⟩ := h.slots_placeExtra (by omega)
  obtain ⟨hofft, hextraNb, hnext⟩ := placeExtra_reader usm s (pmdOffset address)
  have hreached : (placeExtra usm (pmdOffset address) s).address = target address (i + 1) := by
    rw [placeExtra_address, h.reached, ← target_zero (target address i + pageSize),
      target_add_page, target_target]
  have hentries := fun j (hij : i + 1 ≤ j) hj =>
    h.entries_placeExtra hmax (Nat.lt_of_succ_le hij) hj
  have hposition := h.position
  unfold acct
  cases hleft : s.extraNb with
  | zero =>
      rw [hleft] at hextraNb hposition
      have hkept : ∀ pos, (usmPrepPreAllocFastCounted
          (placeExtra usm (pmdOffset address) s).slots s.offt 0 pos).first =
            ((placeExtra usm (pmdOffset address) s).slots pos).first := by
        intro pos
        by_cases heq : pos = s.offt <;> simp [usmPrepPreAllocFastCounted, heq]
      have hlater : ∀ pos, s.offt < pos → (usmPrepPreAllocFastCounted
          (placeExtra usm (pmdOffset address) s).slots s.offt 0 pos).extra =
            (answer.slots pos).extra := by
        intro pos hpos
        rw [usmPrepPreAllocFastCounted, Function.update_of_ne (by omega), hextra,
          h.extra pos hpos]
      have hstart : runStart answer.slots (s.offt + 1) = i + 1 := by omega
      rw [if_pos hextraNb]
      dsimp only
      rw [if_neg hfrA, hofft]
      refine ⟨hreached, hentries, hstart.le, ?_, hofftR, ?_, ?_, ?_⟩
      · show runStart answer.slots (s.offt + 1 + 1) = i + 1 + (usmPrepPreAllocFastCounted
          (placeExtra usm (pmdOffset address) s).slots s.offt 0 (s.offt + 1)).extra + 1
        rw [runStart, hstart, hlater (s.offt + 1) (by omega)]
        omega
      · exact fun pos => (hkept pos).trans (hfirst pos)
      · exact fun pos hpos => hlater pos (Nat.lt_of_succ_lt hpos)
      · rw [hkept, hfirst, hframe hleft, ← hstart, extraFrame_runStart]
  | succ left =>
      rw [hleft] at hextraNb hposition
      rw [if_neg (by omega)]
      refine ⟨hreached, hentries, ?_, ?_, hofftR, hfirst, ?_, ?_⟩
      · have := h.begun
        simp only [hofft]
        omega
      · simp only [hofft, hextraNb]
        omega
      · intro pos hpos
        rw [hextra, h.extra pos (by simpa [hofft] using hpos)]
      · rw [hnext, h.frame, extraFrame_succ h.begun (by omega)]

private theorem Reads.reader_step (h : Reads usm tables address answer i s)
    (hi : i < answer.furtherAlloc) {frA : Nat} (hfrA : frA ≠ 0) :
    (s.extraNb ≠ 0 → (acct frA (placeExtra usm (pmdOffset address) s)).offt = s.offt) ∧
      (s.extraNb = 0 → (acct frA (placeExtra usm (pmdOffset address) s)).offt = s.offt + 1 ∧
        (acct frA (placeExtra usm (pmdOffset address) s)).extraAllocV =
          ((givenUp usm tables address answer.slots (i + 1))[s.offt + 1]?).getD
            (answer.slots (s.offt + 1)).first) := by
  obtain ⟨-, hfirst, -⟩ := h.slots_placeExtra hi
  obtain ⟨hofft, hextraNb, -⟩ := placeExtra_reader usm s (pmdOffset address)
  unfold acct
  refine ⟨fun hleft => ?_, fun hleft => ?_⟩
  · rw [if_neg (by omega)]
    exact hofft
  · rw [if_pos (by omega)]
    dsimp only
    rw [if_neg hfrA, hofft]
    refine ⟨rfl, ?_⟩
    rw [← hfirst]
    simp [usmPrepPreAllocFastCounted]

/-- From any point on: the loop meets the frames of the daemon exactly if the runs to come have
been spared when it reads them. -/
private theorem Reads.takenFrame_iff {left : Nat} (h : Reads usm tables address answer i s)
    (hmax : answer.furtherAlloc ≤ 511) (hleft : i + (left + 1) = answer.furtherAlloc) :
    (∀ j < left + 1, takenFrame usm (pmdOffset address) j (left + 1) s =
        extraFrame answer.slots (i + j)) ↔
      ∀ pos, s.offt < pos → runStart answer.slots pos < answer.furtherAlloc →
        ∀ frame, (givenUp usm tables address answer.slots (runStart answer.slots pos))[pos]? =
          some frame → frame = (answer.slots pos).first := by
  induction left generalizing i s with
  | zero =>
      refine iff_of_true (fun j hj => ?_) fun pos hpos hstart => ?_
      · obtain rfl : j = 0 := by omega
        exact h.frame
      · have hle : runStart answer.slots (s.offt + 1) ≤ runStart answer.slots pos :=
          runStart_mono answer.slots hpos
        have := h.position
        omega
  | succ left ih =>
      have htail : (∀ j < left + 1 + 1, takenFrame usm (pmdOffset address) j (left + 1 + 1) s =
          extraFrame answer.slots (i + j)) ↔
          ∀ j < left + 1, takenFrame usm (pmdOffset address) j (left + 1)
            (acct (left + 1) (placeExtra usm (pmdOffset address) s)) =
              extraFrame answer.slots (i + 1 + j) := by
        rw [Nat.forall_lt_succ_left]
        simp only [Nat.add_right_comm i 1, ← Nat.add_assoc]
        exact and_iff_right h.frame
      obtain ⟨hinside, hend⟩ := h.reader_step (by omega) (Nat.succ_ne_zero left)
      have hposition := h.position
      rw [htail]
      by_cases hrun : s.extraNb = 0
      · obtain ⟨hofft, hread⟩ := hend hrun
        have hstart : runStart answer.slots (s.offt + 1) = i + 1 := by omega
        by_cases hspared : ((givenUp usm tables address answer.slots (i + 1))[s.offt + 1]?).getD
            (answer.slots (s.offt + 1)).first = (answer.slots (s.offt + 1)).first
        · rw [ih (h.step hmax (by omega) (Nat.succ_ne_zero left) fun _ => hspared) (by omega),
            hofft]
          refine ⟨fun hlater pos hpos hlt frame hframe => ?_, fun hall pos hpos =>
            hall pos (by omega)⟩
          by_cases heq : pos = s.offt + 1
          · subst heq
            rw [hstart] at hframe
            rwa [hframe, Option.getD_some] at hspared
          · exact hlater pos (by omega) hlt frame hframe
        · -- The next run has been overwritten: its first frame is not the daemon's.
          refine iff_of_false (fun htaken => hspared ?_) fun hall => hspared ?_
          · have hnext := htaken 0 (by omega)
            rw [Nat.add_zero, ← hstart, extraFrame_runStart] at hnext
            exact hread.symm.trans hnext
          · cases hframe : (givenUp usm tables address answer.slots (i + 1))[s.offt + 1]? with
            | none => rfl
            | some frame =>
                exact hall (s.offt + 1) (by omega) (by omega) frame (by rwa [hstart])
      · rw [ih (h.step hmax (by omega) (Nat.succ_ne_zero left) fun hzero => absurd hzero hrun)
          (by omega), hinside hrun]

private theorem reads_extraStart (usm : BitVec 64 → Bool) (tables : PageTables)
    (address : BitVec 64) (hmax : answer.furtherAlloc ≤ 511) :
    Reads usm tables address answer 0 (extraStart tables address answer) where
  reached := (target_zero address).symm
  entries := fun j _ hj => extraStart_tables tables address answer (by omega)
  begun := le_rfl
  position := by simp [extraStart, runStart]
  offtR := rfl
  first := fun _ => rfl
  extra := fun _ _ => rfl
  frame := rfl

/-- The handler takes the frames that the daemon wrote exactly if no run is overwritten before it
is read. -/
private theorem extraTaken_iff_runsSpared (hmax : answer.furtherAlloc ≤ 511) :
    (∀ i < answer.furtherAlloc,
        extraTaken usm tables address answer i = extraFrame answer.slots i) ↔
      RunsSpared usm tables address answer := by
  cases hfurther : answer.furtherAlloc with
  | zero => simp [RunsSpared, hfurther]
  | succ left =>
      have hstart := reads_extraStart usm tables address hmax
      have hiff := hstart.takenFrame_iff hmax ((Nat.zero_add _).trans hfurther.symm)
      simpa [hfurther, RunsSpared, extraTaken, extraStart] using hiff

end

/-! ## Across 2 MiB boundaries -/

private theorem toNat_remSize_post {page : SharedPage} {fault : Fault}
    (hkind : fault.kind = .firstTouch)
    (hroom : fault.address.toNat + 4096 ≤ fault.vmEnd.toNat) :
    (page.post fault).remSize.toNat =
      (fault.vmEnd.toNat - fault.address.toNat) / 4096 - 1 := by
  have hrem : (page.post fault).remSize = (fault.vmEnd - fault.address) / 4096#64 - 1 := by
    simp only [SharedPage.post, hkind, SharedPage.orWrite]
    split <;> rfl
  have hlen : (fault.vmEnd - fault.address).toNat = fault.vmEnd.toNat - fault.address.toNat :=
    BitVec.toNat_sub_of_le (by
      rw [BitVec.le_def]
      omega)
  have hquot : ((fault.vmEnd - fault.address) / 4096#64).toNat =
      (fault.vmEnd.toNat - fault.address.toNat) / 4096 := by
    rw [BitVec.toNat_udiv, hlen]
    rfl
  rw [hrem, BitVec.toNat_sub_of_le, hquot]
  · rfl
  · rw [BitVec.le_def, hquot]
    show 1 ≤ _
    omega

private theorem pmdOffset_target_ne {address : BitVec 64} {i : Nat}
    (hcross : 512 ≤ (pteOffset address).toNat + i)
    (hwrap : address.toNat + 4096 * i < 2 ^ 64) :
    pmdOffset (target address i) ≠ pmdOffset address := by
  intro hsame
  have hnat := congrArg BitVec.toNat hsame
  rw [toNat_pmdOffset, toNat_pmdOffset, toNat_target, Nat.mod_eq_of_lt hwrap] at hnat
  rw [toNat_pteOffset] at hcross
  omega

/-- Every entry that is written belongs to an address of the mapping from the fault on, and
the frame `i` of the daemon goes to the target `i + 1`: the handler takes it for that target
and, if nothing is mapped there, installs it. -/
structure LandsRight (usm : BitVec 64 → Bool) (tables : PageTables) (fault : Fault)
    (answer : ExtraAnswer) (result : FaultResult) : Prop where
  within : ∀ pmd index, result.tables pmd index ≠ tables pmd index →
    ∃ address : BitVec 64, fault.address.toNat ≤ address.toNat ∧
      address.toNat < fault.vmEnd.toNat ∧ pmd = pmdOffset address ∧ index = pteOffset address
  taken : ∀ i < answer.furtherAlloc,
    extraTaken usm tables fault.address answer i = extraFrame answer.slots i
  landed : ∀ i < answer.furtherAlloc, tables.pte (target fault.address (i + 1)) = none →
    result.tables.pte (target fault.address (i + 1)) = some (extraFrame answer.slots i)

section

variable {usm : BitVec 64 → Bool} {tables : PageTables} {fault : Fault}
  {answer : ExtraAnswer} {result : FaultResult}

/-- The entry of the fault's table that stands in for a target across the boundary is
the entry of no address from the fault on. -/
private theorem not_within_of_cross {i : Nat} (hcross : 512 ≤ (pteOffset fault.address).toNat + i)
    (hi : i < 512) {address : BitVec 64} (hfrom : fault.address.toNat ≤ address.toNat)
    (hpmd : pmdOffset fault.address = pmdOffset address)
    (hindex : pteOffset (target fault.address i) = pteOffset address) : False := by
  have hpmd := congrArg BitVec.toNat hpmd
  have hindex := congrArg BitVec.toNat hindex
  rw [toNat_pmdOffset, toNat_pmdOffset] at hpmd
  rw [toNat_pteOffset_target, toNat_pteOffset, toNat_pteOffset] at hindex
  rw [toNat_pteOffset] at hcross
  omega

/-- In the region of the fault a frame lands if its target is free for it and the frame
is a USM page.  Beyond, the target has to be mapped already, and the entry that the
handler mistakes for it must not take the frame. -/
def TargetFits (usm : BitVec 64 → Bool) (tables : PageTables) (address : BitVec 64)
    (slots : RunSlots) (i : Nat) : Prop :=
  if (pteOffset address).toNat + (i + 1) ≤ 511 then
    tables.pte (target address (i + 1)) = none → usm (extraFrame slots i) = true
  else
    tables.pte (target address (i + 1)) ≠ none ∧
      (tables (pmdOffset address) (pteOffset (target address (i + 1))) = none →
        usm (extraFrame slots i) = false)

private theorem LandsRight.targetFits (hlands : LandsRight usm tables fault answer result)
    (hresult : handleUsmFault usm tables fault.address answer = some result)
    (hmax : answer.furtherAlloc ≤ 511)
    (hend : fault.address.toNat + 4096 * answer.furtherAlloc < fault.vmEnd.toNat) {i : Nat}
    (hi : i < answer.furtherAlloc) :
    TargetFits usm tables fault.address answer.slots i := by
  have hlt := fault.vmEnd.isLt
  have hsettled := result_tables_target hresult hmax hi
  rw [hlands.taken i hi] at hsettled
  rw [TargetFits]
  split
  · rename_i hregion
    intro hunmapped
    have hlanded := hlands.landed i hi hunmapped
    rw [PageTables.pte_target _ hregion] at hunmapped hlanded
    rw [hlanded, hunmapped, settled] at hsettled
    by_contra hnot
    rw [if_neg hnot] at hsettled
    cases hsettled
  · have hcross : 512 ≤ (pteOffset fault.address).toNat + (i + 1) := by omega
    constructor
    · intro hunmapped
      have hpmd := pmdOffset_target_ne hcross (by omega)
      have hkept : result.tables.pte (target fault.address (i + 1)) =
          tables.pte (target fault.address (i + 1)) :=
        result_tables_of_ne hresult fun hsame => absurd hsame hpmd
      rw [hlands.landed i hi hunmapped, hunmapped] at hkept
      cases hkept
    · intro hempty
      by_contra husm
      rw [hempty, settled, if_pos (Bool.not_eq_false _ ▸ husm)] at hsettled
      obtain ⟨address, hfrom, -, hpmd, hindex⟩ := hlands.within (pmdOffset fault.address)
        (pteOffset (target fault.address (i + 1))) (by simp [hsettled, hempty])
      exact not_within_of_cross hcross (by omega) hfrom hpmd hindex

private theorem TargetFits.kept {i : Nat}
    (hfits : TargetFits usm tables fault.address answer.slots i)
    (htaken : extraTaken usm tables fault.address answer i = extraFrame answer.slots i)
    (hcross : 512 ≤ (pteOffset fault.address).toNat + (i + 1))
    (hresult : handleUsmFault usm tables fault.address answer = some result)
    (hmax : answer.furtherAlloc ≤ 511) (hi : i < answer.furtherAlloc) :
    result.tables (pmdOffset fault.address) (pteOffset (target fault.address (i + 1))) =
      tables (pmdOffset fault.address) (pteOffset (target fault.address (i + 1))) := by
  rw [TargetFits, if_neg (by omega)] at hfits
  rw [result_tables_target hresult hmax hi, htaken]
  cases hentry : tables (pmdOffset fault.address) (pteOffset (target fault.address (i + 1))) with
  | some entry => rfl
  | none => rw [settled, hfits.2 hentry, if_neg Bool.false_ne_true]

private theorem landsRight_of_targetFits
    (hresult : handleUsmFault usm tables fault.address answer = some result)
    (hmax : answer.furtherAlloc ≤ 511)
    (hend : fault.address.toNat + 4096 * answer.furtherAlloc < fault.vmEnd.toNat)
    (htaken : ∀ i < answer.furtherAlloc,
      extraTaken usm tables fault.address answer i = extraFrame answer.slots i)
    (hfits : ∀ i < answer.furtherAlloc, TargetFits usm tables fault.address answer.slots i) :
    LandsRight usm tables fault answer result := by
  have hlt := fault.vmEnd.isLt
  have hindexLt := (pteOffset fault.address).isLt
  refine ⟨?_, htaken, ?_⟩
  · intro pmd index hchanged
    by_contra houtside
    refine hchanged (result_tables_of_ne hresult fun hpmd i hi hindex => ?_)
    by_cases hregion : (pteOffset fault.address).toNat + i ≤ 511
    · refine houtside ⟨target fault.address i, ?_, ?_, ?_, hindex⟩
      · rw [toNat_target, Nat.mod_eq_of_lt (by omega)]
        omega
      · rw [toNat_target, Nat.mod_eq_of_lt (by omega)]
        omega
      · rw [hpmd, pmdOffset_target hregion]
    · obtain ⟨j, rfl⟩ : ∃ j, i = j + 1 := ⟨i - 1, by omega⟩
      have hkept := (hfits j (by omega)).kept (htaken j (by omega)) (by omega) hresult hmax
        (by omega)
      rw [← hindex, ← hpmd] at hkept
      exact hchanged hkept
  · intro i hi hunmapped
    have hfit := hfits i hi
    rw [TargetFits] at hfit
    split at hfit
    · rename_i hregion
      have husm := hfit hunmapped
      rw [PageTables.pte_target _ hregion] at hunmapped ⊢
      rw [result_tables_target hresult hmax hi, hunmapped, htaken i hi, settled, if_pos husm]
    · exact absurd hunmapped hfit.1

end

/-- A first touch of the page at `address` in a mapping of `pages` pages from there on. -/
def touchAt (address : BitVec 64) (pages : BitVec 64) : Fault :=
  ⟨.firstTouch, address, address + 4096 * pages, true⟩

/-- The frame 100 for the fault and `further` frames from 200 on. -/
def oneRun (further : Nat) (remSize : BitVec 64) : ExtraAnswer :=
  ⟨100, further, remSize, fun _ => ⟨200, further - 1⟩⟩

def emptyTables : PageTables := fun _ _ => none

def skippedFrames (tables : PageTables) (address : BitVec 64) (answer : ExtraAnswer) :
    List (BitVec 64) :=
  ((List.range answer.furtherAlloc).filter fun i =>
    (tables.pte (target address (i + 1))).isSome).map (extraFrame answer.slots)

structure SkipsCleanly (tables : PageTables) (address : BitVec 64) (answer : ExtraAnswer)
    (result : FaultResult) : Prop where
  installed : ∀ i < answer.furtherAlloc, tables.pte (target address (i + 1)) = none →
    result.tables.pte (target address (i + 1)) = some (extraFrame answer.slots i)
  kept : ∀ i < answer.furtherAlloc, tables.pte (target address (i + 1)) ≠ none →
    result.tables.pte (target address (i + 1)) = tables.pte (target address (i + 1))
  count : result.remSize = BitVec.ofNat 64 (skippedFrames tables address answer).length
  frames : ∀ pos frame, (skippedFrames tables address answer)[pos]? = some frame →
    (result.slots pos).first = frame

section

variable {usm : BitVec 64 → Bool} {tables : PageTables} {address : BitVec 64}
  {answer : ExtraAnswer} {result : FaultResult}

private theorem skippedFrames_eq_nil_iff :
    skippedFrames tables address answer = [] ↔
      ∀ i < answer.furtherAlloc, tables.pte (target address (i + 1)) = none := by
  simp [skippedFrames, List.filter_eq_nil_iff]

private theorem length_skippedFrames_le :
    (skippedFrames tables address answer).length ≤ answer.furtherAlloc := by
  simpa [skippedFrames] using
    List.length_filter_le (fun i => (tables.pte (target address (i + 1))).isSome)
      (List.range answer.furtherAlloc)

end

/-- The frames 200, 201 in a run of two and 300 alone, for three targets of which the
first two are mapped. -/
def twoMapped : PageTables :=
  (emptyTables.setPte 0 2 900).setPte 0 3 901

def twoRuns : ExtraAnswer :=
  ⟨100, 3, 3, fun pos => if pos = 0 then ⟨200, 1⟩ else ⟨300, 0⟩⟩

end UserPaging.Usm
