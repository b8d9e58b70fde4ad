import Mathlib.Data.List.Forall2
import Mathlib.Tactic.Tauto
import UserPaging.Usm.SwapEntry

/-!
# The page that a faulting thread shares with the daemon

A thread's faults travel through one page of shared words.  The kernel handlers
`handle_usm_fault`, `handle_usm_shared` and `handle_usm_swap` post a request
there and `usm_mem_ret_ev` builds the daemon's event from it.  The words are
reused by every fault of the thread: `paddr` carries a swap entry one way and a
page frame the other way, and `flags` is only ever updated by a read and an or.
-/

namespace UserPaging.Usm

def flagWrite : BitVec 64 := 1 <<< 0

def flagSwap : BitVec 64 := 1 <<< 3

def flagShared : BitVec 64 := 1 <<< 4

structure SharedPage where
  status : BitVec 32
  vaddr : BitVec 64
  paddr : BitVec 64
  flags : BitVec 64
  state : BitVec 32
  remSize : BitVec 64
  furtherAlloc : BitVec 32
  deriving DecidableEq, Repr

/-- The part of `struct usm_event` that a fault on a memory channel uses. -/
structure Event where
  origin : Nat
  vaddr : BitVec 64
  paddr : BitVec 64
  flags : BitVec 64
  offst : BitVec 64
  length : BitVec 64
  deriving DecidableEq, Repr

def hasFlag (flags mask : BitVec 64) : Bool := flags &&& mask != 0#64

namespace Event

def isSwap (event : Event) : Bool := hasFlag event.flags flagSwap

def isWrite (event : Event) : Bool := hasFlag event.flags flagWrite

def isShared (event : Event) : Bool := hasFlag event.flags flagShared

end Event

inductive FaultKind where
  | firstTouch
  | shared
  | swap (origPte : BitVec 64)
  deriving DecidableEq, Repr

structure Fault where
  kind : FaultKind
  address : BitVec 64
  vmEnd : BitVec 64
  write : Bool
  deriving DecidableEq, Repr

namespace Fault

def isSwap (fault : Fault) : Bool :=
  match fault.kind with
  | .swap _ => true
  | .firstTouch | .shared => false

def isShared (fault : Fault) : Bool :=
  match fault.kind with
  | .shared => true
  | .firstTouch | .swap _ => false

def flags (fault : Fault) : BitVec 64 :=
  (if fault.isSwap then flagSwap else 0) ||| (if fault.isShared then flagShared else 0) |||
    (if fault.write then flagWrite else 0)

end Fault

namespace SharedPage

def orFlags (page : SharedPage) (mask : BitVec 64) : SharedPage :=
  { page with flags := page.flags ||| mask }

def orWrite (page : SharedPage) (write : Bool) : SharedPage :=
  if write then page.orFlags flagWrite else page

def post (page : SharedPage) (fault : Fault) : SharedPage :=
  match fault.kind with
  | .firstTouch =>
      let page := { page with
        vaddr := fault.address
        remSize := (fault.vmEnd - fault.address) / 4096#64 - 1 }
      { page.orWrite fault.write with status := 1 }
  | .shared =>
      let page := { page with
        vaddr := fault.address
        remSize := (fault.vmEnd - fault.address) / 4096#64 - 1 }
      { (page.orWrite fault.write).orFlags flagShared with status := 1 }
  | .swap origPte =>
      let page := { page with vaddr := fault.address, paddr := origPte }
      { (page.orFlags flagSwap).orWrite fault.write with status := 1 }

/-- The words as a served fault leaves them: the submission and the answer
overwrite `paddr` and `further_alloc`, and `status` ends at `0`.  `handle_usm_swap`
has no access to `rem_size`. -/
def settle (page : SharedPage) (fault : Fault) (paddr remSize : BitVec 64)
    (furtherAlloc : BitVec 32) : SharedPage :=
  { page with
    paddr, furtherAlloc, status := 0
    remSize := if fault.isSwap then page.remSize else remSize }

end SharedPage

def usmMemRetEv (page : SharedPage) (event : Event) : Event :=
  { event with
    vaddr := page.vaddr
    flags := page.flags
    offst := if hasFlag page.flags flagSwap then swapOffst page.paddr else event.offst
    length := page.remSize }

/-! ## The events of a sequence of faults -/

structure Answer where
  paddr : BitVec 64
  remSize : BitVec 64
  furtherAlloc : BitVec 32
  deriving DecidableEq, Repr

/-- The event built for each fault of a thread, in order.  The event record is
reused as well; `usm_mem_subm_ev` leaves `rem_size` in its `flags`. -/
def serveFaults (page : SharedPage) (event : Event) :
    List (Fault × Answer) → List Event
  | [] => []
  | (fault, answer) :: rest =>
      let posted := page.post fault
      let built := usmMemRetEv posted event
      let settled := posted.settle fault answer.paddr answer.remSize answer.furtherAlloc
      built :: serveFaults settled
        { built with paddr := answer.paddr, flags := settled.remSize } rest

/-- The words that `usm_mem_ret_ev` fills in: all but `origin` and `paddr`. -/
def Event.request (event : Event) : BitVec 64 × BitVec 64 × BitVec 64 × BitVec 64 :=
  (event.vaddr, event.flags, event.offst, event.length)

/-- The event describes the fault.  It is the one that the fault would have had as the
first of the thread, on the page and with the record that the thread started with. -/
structure Classified (start : SharedPage) (record : Event) (fault : Fault)
    (event : Event) : Prop where
  swap : event.isSwap = fault.isSwap
  write : event.isWrite = fault.write
  shared : event.isShared = fault.isShared
  entry : event.isSwap = true →
    ∃ origPte, fault.kind = .swap origPte ∧ event.offst = swapOffst origPte
  alone : event.request = (usmMemRetEv (start.post fault) record).request

def RaisesAgain (earlier later : Fault) : Prop :=
  (earlier.isSwap = true → later.isSwap = true) ∧
    (earlier.write = true → later.write = true) ∧
    (earlier.isShared = true → later.isShared = true)

def Covers (fault : Fault) (flags : BitVec 64) : Prop :=
  (hasFlag flags flagSwap = true → fault.isSwap = true) ∧
    (hasFlag flags flagWrite = true → fault.write = true) ∧
    (hasFlag flags flagShared = true → fault.isShared = true)

/-- The `rem_size` after the faults. -/
def remSizeAfter (remSize : BitVec 64) : List (Fault × Answer) → BitVec 64
  | [] => remSize
  | (fault, answer) :: rest =>
      remSizeAfter (if fault.isSwap then remSize else answer.remSize) rest

/-- Every swap fault finds the length `length` in the page, whose `rem_size` is `remSize`. -/
def FindsLength (length remSize : BitVec 64) (faults : List (Fault × Answer)) : Prop :=
  ∀ before fault answer after, faults = before ++ (fault, answer) :: after →
    fault.isSwap = true → remSizeAfter remSize before = length

/-! ### Words of flags -/

theorem hasFlag_or (flags other mask : BitVec 64) :
    hasFlag (flags ||| other) mask = (hasFlag flags mask || hasFlag other mask) := by
  have hdistrib : (flags ||| other) &&& mask = (flags &&& mask) ||| (other &&& mask) := by
    ext bit
    simp [Bool.and_or_distrib_right]
  rw [Bool.eq_iff_iff]
  simp only [hasFlag, hdistrib, bne_iff_ne, ne_eq, BitVec.or_eq_zero_iff,
    Bool.or_eq_true, not_and_or]

private theorem or_or_eq_iff (x y z : BitVec 64) :
    (x ||| y) ||| z = z ↔ x ||| z = z ∧ y ||| z = z := by
  simp only [BitVec.eq_of_getLsbD_eq_iff, BitVec.getLsbD_or]
  constructor
  · intro h
    refine ⟨fun i hi => ?_, fun i hi => ?_⟩ <;> have := h i hi <;>
      revert this <;> cases x.getLsbD i <;> cases y.getLsbD i <;> simp
  · rintro ⟨hx, hy⟩ i hi
    rw [Bool.or_assoc, hy i hi, hx i hi]

private theorem twoPow_or_eq_iff (word : BitVec 64) {i : Nat} (hi : i < 64) :
    BitVec.twoPow 64 i ||| word = word ↔ hasFlag word (BitVec.twoPow 64 i) = true := by
  have hbit : hasFlag word (BitVec.twoPow 64 i) = word.getLsbD i := by
    have hne : BitVec.twoPow 64 i ≠ 0 := fun hzero => by
      have hset := congrArg (fun x : BitVec 64 => x.getLsbD i) hzero
      simp [hi] at hset
    rw [hasFlag, BitVec.and_twoPow]
    cases word.getLsbD i
    · simp
    · simpa using hne
  rw [hbit]
  constructor
  · intro heq
    rw [← heq]
    simp [hi]
  · intro hset
    ext j hj
    by_cases heq : j = i
    · subst heq
      simpa [BitVec.getLsbD_eq_getElem hj] using hset
    · simp [heq]

namespace Fault

private theorem hasFlag_flags (fault : Fault) :
    hasFlag fault.flags flagSwap = fault.isSwap ∧
      hasFlag fault.flags flagWrite = fault.write ∧
      hasFlag fault.flags flagShared = fault.isShared := by
  unfold flags
  cases fault.isSwap <;> cases fault.isShared <;> cases fault.write <;> decide

private theorem flags_or_eq_iff (fault : Fault) (word : BitVec 64) :
    fault.flags ||| word = word ↔ (fault.isSwap = true → hasFlag word flagSwap = true) ∧
      (fault.write = true → hasFlag word flagWrite = true) ∧
      (fault.isShared = true → hasFlag word flagShared = true) := by
  have hoption : ∀ (set : Bool) (i : Nat), i < 64 →
      ((if set then BitVec.twoPow 64 i else 0) ||| word = word ↔
        (set = true → hasFlag word (BitVec.twoPow 64 i) = true)) := by
    intro set i hi
    cases set
    · simp
    · simpa using twoPow_or_eq_iff word hi
  have hswap : flagSwap = BitVec.twoPow 64 3 := by decide
  have hwrite : flagWrite = BitVec.twoPow 64 0 := by decide
  have hshared : flagShared = BitVec.twoPow 64 4 := by decide
  rw [flags, or_or_eq_iff, or_or_eq_iff, hswap, hwrite, hshared, hoption _ 3 (by decide),
    hoption _ 4 (by decide), hoption _ 0 (by decide)]
  tauto

end Fault

namespace SharedPage

private theorem post_flags (page : SharedPage) (fault : Fault) :
    (page.post fault).flags = page.flags ||| fault.flags := by
  rcases fault with ⟨kind, address, vmEnd, write⟩
  cases kind <;> cases write <;>
    simp [post, orWrite, orFlags, Fault.flags, Fault.isSwap, Fault.isShared, BitVec.or_assoc]
  exact congrArg _ (BitVec.or_comm _ _)

private theorem post_remSize (page : SharedPage) (fault : Fault) :
    (page.post fault).remSize = if fault.isSwap then page.remSize
      else (fault.vmEnd - fault.address) / 4096#64 - 1 := by
  rcases fault with ⟨kind, address, vmEnd, write⟩
  cases kind <;> cases write <;> rfl

private theorem post_vaddr (page : SharedPage) (fault : Fault) :
    (page.post fault).vaddr = fault.address := by
  rcases fault with ⟨kind, address, vmEnd, write⟩
  cases kind <;> cases write <;> rfl

private theorem post_paddr_swap (page : SharedPage) {fault : Fault} {origPte : BitVec 64}
    (hkind : fault.kind = .swap origPte) : (page.post fault).paddr = origPte := by
  cases hwrite : fault.write <;> simp [post, hkind, orWrite, orFlags, hwrite]

end SharedPage

/-! ### One fault -/

private theorem exists_swap {fault : Fault} (hswap : fault.isSwap = true) :
    ∃ origPte, fault.kind = .swap origPte := by
  cases hkind : fault.kind with
  | firstTouch => simp [Fault.isSwap, hkind] at hswap
  | shared => simp [Fault.isSwap, hkind] at hswap
  | swap origPte => exact ⟨origPte, rfl⟩

private theorem covers_iff (fault : Fault) (flags : BitVec 64) :
    Covers fault flags ↔ hasFlag (flags ||| fault.flags) flagSwap = fault.isSwap ∧
      hasFlag (flags ||| fault.flags) flagWrite = fault.write ∧
      hasFlag (flags ||| fault.flags) flagShared = fault.isShared := by
  obtain ⟨hswap, hwrite, hshared⟩ := fault.hasFlag_flags
  simp only [Covers, hasFlag_or, hswap, hwrite, hshared, Bool.or_eq_right_iff_imp]

/-- An event with the swap flag has the entry of its own fault. -/
private theorem offst_of_isSwap {fault : Fault} (hfault : fault.isSwap = true) (page : SharedPage)
    (event : Event) (hflag : hasFlag (page.flags ||| fault.flags) flagSwap = true) :
    ∃ origPte, fault.kind = .swap origPte ∧
      (usmMemRetEv (page.post fault) event).offst = swapOffst origPte := by
  obtain ⟨origPte, hkind⟩ := exists_swap hfault
  refine ⟨origPte, hkind, ?_⟩
  rw [usmMemRetEv, page.post_flags, if_pos hflag, page.post_paddr_swap hkind]

/-- With the flags of the fault alone, the offset is that of the fault or of the record. -/
private theorem offst_eq {start page : SharedPage} {record event : Event} {fault : Fault}
    (hswap : hasFlag (start.flags ||| fault.flags) flagSwap = fault.isSwap)
    (hsame : page.flags ||| fault.flags = start.flags ||| fault.flags)
    (hoffst : hasFlag page.flags flagSwap = false → event.offst = record.offst) :
    (usmMemRetEv (page.post fault) event).offst =
      (usmMemRetEv (start.post fault) record).offst := by
  cases hfault : fault.isSwap with
  | true =>
      rw [hfault] at hswap
      obtain ⟨origPte, hkind, hpage⟩ := offst_of_isSwap hfault page event (by rw [hsame, hswap])
      obtain ⟨origPte', hkind', hstart⟩ := offst_of_isSwap hfault start record hswap
      obtain rfl : origPte = origPte' := by simpa [hkind] using hkind'
      rw [hpage, hstart]
  | false =>
      rw [hfault] at hswap
      have hclear : hasFlag page.flags flagSwap = false := by
        rw [← hsame, hasFlag_or, Bool.or_eq_false_iff] at hswap
        exact hswap.1
      simp [usmMemRetEv, SharedPage.post_flags, hsame, hswap, hoffst hclear]

/-- The page has the flags it started with and perhaps others.  The event of the next fault
shows none of these others exactly if the fault raises them too. -/
private theorem classified_usmMemRetEv_iff {start page : SharedPage} {record event : Event}
    (fault : Fault) (hsub : start.flags ||| page.flags = page.flags)
    (hoffst : hasFlag page.flags flagSwap = false → event.offst = record.offst) :
    Classified start record fault (usmMemRetEv (page.post fault) event) ↔
      Covers fault start.flags ∧
      page.flags ||| (start.flags ||| fault.flags) = start.flags ||| fault.flags ∧
      (fault.isSwap = true → page.remSize = start.remSize) := by
  have habsorb : page.flags ||| (start.flags ||| fault.flags) = page.flags ||| fault.flags := by
    rw [← BitVec.or_assoc, BitVec.or_comm page.flags, hsub]
  rw [habsorb, covers_iff]
  have hflags : ∀ (x : SharedPage) (y : Event),
      (usmMemRetEv (x.post fault) y).flags = x.flags ||| fault.flags :=
    fun x _ => x.post_flags fault
  constructor
  · intro hclassified
    have halone := hclassified.alone
    simp only [Event.request, Prod.mk.injEq, hflags] at halone
    obtain ⟨-, hsame, -, hlength⟩ := halone
    have hswap := hclassified.swap
    have hwrite := hclassified.write
    have hshared := hclassified.shared
    simp only [Event.isSwap, Event.isWrite, Event.isShared, hflags, hsame] at hswap hwrite hshared
    refine ⟨⟨hswap, hwrite, hshared⟩, hsame, fun hfault => ?_⟩
    simpa [usmMemRetEv, SharedPage.post_remSize, hfault] using hlength
  · rintro ⟨⟨hswap, hwrite, hshared⟩, hsame, hlength⟩
    refine ⟨?_, ?_, ?_, ?_, ?_⟩
    · rw [Event.isSwap, hflags, hsame, hswap]
    · rw [Event.isWrite, hflags, hsame, hwrite]
    · rw [Event.isShared, hflags, hsame, hshared]
    · intro hflag
      rw [Event.isSwap, hflags] at hflag
      exact offst_of_isSwap (by rw [← hswap, ← hsame, hflag]) page event hflag
    · simp only [Event.request, hflags, hsame, Prod.mk.injEq, true_and]
      refine ⟨?_, ?_, ?_⟩
      · exact (page.post_vaddr fault).trans (start.post_vaddr fault).symm
      · exact offst_eq hswap hsame hoffst
      · simp only [usmMemRetEv, SharedPage.post_remSize]
        split
        · next hfault => exact hlength hfault
        · rfl

/-! ### A sequence of faults -/

private theorem findsLength_cons_iff (length remSize : BitVec 64) (fault : Fault)
    (answer : Answer) (rest : List (Fault × Answer)) :
    FindsLength length remSize ((fault, answer) :: rest) ↔
      (fault.isSwap = true → remSize = length) ∧
        FindsLength length (if fault.isSwap then remSize else answer.remSize) rest := by
  constructor
  · intro hfinds
    refine ⟨fun hfault => hfinds [] fault answer rest rfl hfault, ?_⟩
    intro before fault' answer' after hsplit hswap
    subst hsplit
    exact hfinds ((fault, answer) :: before) fault' answer' after rfl hswap
  · rintro ⟨hhead, hrest⟩ before fault' answer' after hsplit hswap
    cases before with
    | nil =>
        obtain ⟨rfl, rfl⟩ : fault = fault' ∧ answer = answer' := by
          simpa using (List.cons.inj hsplit).1
        exact hhead hswap
    | cons first before =>
        obtain ⟨rfl, htail⟩ := List.cons.inj hsplit
        exact hrest before fault' answer' after htail hswap

private theorem raisesAgain_iff {start : BitVec 64} {fault later : Fault}
    (hcovers : Covers later start) :
    fault.flags ||| (start ||| later.flags) = start ||| later.flags ↔
      RaisesAgain fault later := by
  obtain ⟨hswap, hwrite, hshared⟩ := (covers_iff later start).1 hcovers
  rw [Fault.flags_or_eq_iff, hswap, hwrite, hshared, RaisesAgain]

private theorem classified_from_iff {start page : SharedPage} {record event : Event}
    (faults : List (Fault × Answer)) (hsub : start.flags ||| page.flags = page.flags)
    (hoffst : hasFlag page.flags flagSwap = false → event.offst = record.offst) :
    List.Forall₂ (Classified start record) (faults.map Prod.fst)
        (serveFaults page event faults) ↔
      (faults.map Prod.fst).Pairwise RaisesAgain ∧
        (∀ fault ∈ faults.map Prod.fst, Covers fault start.flags ∧
          page.flags ||| (start.flags ||| fault.flags) = start.flags ||| fault.flags) ∧
        FindsLength start.remSize page.remSize faults := by
  induction faults generalizing page event with
  | nil => simp [serveFaults, FindsLength]
  | cons head rest ih =>
      obtain ⟨fault, answer⟩ := head
      have hflags := page.post_flags fault
      have hremSize : (if fault.isSwap then (page.post fault).remSize else answer.remSize) =
          if fault.isSwap then page.remSize else answer.remSize := by
        rw [page.post_remSize]
        split <;> rfl
      simp only [List.map_cons, serveFaults, List.forall₂_cons, List.pairwise_cons,
        List.forall_mem_cons, findsLength_cons_iff]
      rw [classified_usmMemRetEv_iff fault hsub hoffst, ih]
      · simp only [SharedPage.settle, hflags, hremSize, or_or_eq_iff]
        constructor
        · rintro ⟨⟨hcovers, hsame, hlength⟩, hpairs, hrest, hfinds⟩
          refine ⟨⟨fun later hlater => ?_, hpairs⟩, ⟨⟨hcovers, hsame⟩, fun later hlater => ?_⟩,
            hlength, hfinds⟩
          · exact (raisesAgain_iff (hrest later hlater).1).1 (hrest later hlater).2.2
          · exact ⟨(hrest later hlater).1, (hrest later hlater).2.1⟩
        · rintro ⟨⟨hraises, hpairs⟩, ⟨⟨hcovers, hsame⟩, hrest⟩, hlength, hfinds⟩
          refine ⟨⟨hcovers, hsame, hlength⟩, hpairs, fun later hlater => ?_, hfinds⟩
          have hlater' := hrest later hlater
          exact ⟨hlater'.1, hlater'.2, (raisesAgain_iff hlater'.1).2 (hraises later hlater)⟩
      · simp only [SharedPage.settle, hflags, ← BitVec.or_assoc, hsub]
      · intro hclear
        simp only [SharedPage.settle, hflags] at hclear
        have hpage : hasFlag page.flags flagSwap = false := by
          rw [hasFlag_or, Bool.or_eq_false_iff] at hclear
          exact hclear.1
        simp [usmMemRetEv, hflags, hclear, hoffst hpage]

/--
The events of a sequence of faults describe the faults, each for itself, exactly when
no raised flag is ever missing from a later fault and every swap fault finds the
`rem_size` that the thread started with: the flags word of the shared page is never
cleared, and `handle_usm_swap` does not write the length.
-/
theorem classified_iff_raisesAgain (page : SharedPage) (event : Event)
    (faults : List (Fault × Answer)) :
    List.Forall₂ (Classified page event) (faults.map Prod.fst)
        (serveFaults page event faults) ↔
      (faults.map Prod.fst).Pairwise RaisesAgain ∧
        (∀ fault ∈ faults.map Prod.fst, Covers fault page.flags) ∧
        FindsLength page.remSize page.remSize faults := by
  rw [classified_from_iff faults (BitVec.or_self) fun _ => rfl]
  have hself : ∀ fault : Fault,
      page.flags ||| (page.flags ||| fault.flags) = page.flags ||| fault.flags := fun fault => by
    rw [← BitVec.or_assoc, BitVec.or_self]
  simp only [hself, and_true]

def zeroPage : SharedPage := ⟨0, 0, 0, 0, 0, 0, 0⟩

/-- A read swap fault is followed by a first touch of the next page, whose event
still has the swap flag. -/
theorem swap_flag_outlives_its_fault :
    ¬ List.Forall₂ (Classified zeroPage ⟨0, 0, 0, 0, 0, 0⟩)
      [⟨.swap (swapValue 0 1), 0x1000, 0x3000, false⟩, ⟨.firstTouch, 0x2000, 0x3000, false⟩]
      (serveFaults zeroPage ⟨0, 0, 0, 0, 0, 0⟩
        [(⟨.swap (swapValue 0 1), 0x1000, 0x3000, false⟩, ⟨7, 0, 0⟩),
          (⟨.firstTouch, 0x2000, 0x3000, false⟩, ⟨8, 0, 0⟩)]) := by
  intro hclassified
  simp only [serveFaults, List.forall₂_cons] at hclassified
  have hswap := hclassified.2.1.swap
  revert hswap
  decide

end UserPaging.Usm
