import UserPaging.Extmem.Replay
import UserPaging.Gem5.UserAccess

/-!
# When a replay is transparent

Loads and stores are replayed as what they are.  A read-modify-write and a fetch
are replayed as a read: that lets the kernel bring the page in, but a page that can
already be read is left as it is, and the access raises the same fault for ever.
-/

namespace UserPaging.Extmem

open UserPaging.Foundation UserPaging.Gem5

variable {base : PageFaults} {regs : ControlState} {kernel : Kernel} {vaddr : BitVec 64}
  {page page' : PageView} {access : UserAccess} {request : Access}

/-! ## Accesses of one request -/

def PageView.done (page : PageView) (mode : Mode) (vaddr : BitVec 64) (access : UserAccess) :
    PageView :=
  { page.fill mode with memory := access.effect vaddr page.memory }

@[simp] theorem PageView.fill_memory (page : PageView) (mode : Mode) :
    (page.fill mode).memory = page.memory := by
  cases mode <;> rfl

private theorem PageView.lookup_fill (page : PageView) (mode : Mode) :
    (page.fill mode).lookup mode = .hit (page.lookup mode).entry := by
  cases mode <;> simp only [fill, lookup, cached] <;> split <;> simp_all [Lookup.entry]

private theorem perform_of_requests (hrequests : access.requests vaddr = [request]) :
    perform base regs vaddr access page =
      match translate base regs request (page.lookup request.mode) with
      | some fault => .error fault
      | none => .ok (page.done request.mode vaddr access) := by
  rw [perform, hrequests, List.foldlM_cons, issue]
  cases translate base regs request (page.lookup request.mode) with
  | some fault => rfl
  | none => simp [PageView.done, bind, Except.bind, pure, Except.pure]

private theorem perform_of_admitted (hrequests : access.requests vaddr = [request])
    (hcpl : regs.cpl = 3) (hcpl0 : request.cpl0 = false)
    (hadmitted : Admitted regs request (page.lookup request.mode)) :
    perform base regs vaddr access page = .ok (page.done request.mode vaddr access) := by
  rw [perform_of_requests hrequests, (translate_eq_none_iff hcpl hcpl0).2 hadmitted]

private theorem faultMode_code (base : PageFaults) (present : Bool) (mode : Mode)
    (user reserved : Bool) :
    faultMode (base.code present mode user reserved) = mode := by
  rw [faultMode, base.code_write, base.code_fetch]
  cases mode <;> rfl

theorem PageView.Present.lookup (hpresent : page.Present) (mode : Mode) :
    page.lookup mode = .miss page.walk page.filled := by
  cases mode <;> simp [PageView.lookup, PageView.cached, hpresent.dtb, hpresent.itb]

private theorem PageView.Present.lookup_done (hpresent : page.Present) (mode : Mode)
    (vaddr : BitVec 64) (access : UserAccess) :
    (page.done mode vaddr access).lookup mode = .hit page.filled := by
  have hlookup := page.lookup_fill mode
  rw [hpresent.lookup] at hlookup
  exact hlookup

private theorem PageView.Present.admitted (hpresent : page.Present)
    (hexecute : request.mode = .execute → ∀ step ∈ page.walk,
      entryFaults regs request step = false)
    (hwritable : request.mode = .write ∨ request.storeCheck = true →
      page.filled.writable = true) :
    Admitted regs request (page.lookup request.mode) := by
  rw [hpresent.lookup]
  refine ⟨fun step hstep => ?_, hpresent.user, hwritable⟩
  by_cases hmode : request.mode = .execute
  · exact hexecute hmode step hstep
  · obtain ⟨state, entry⟩ := step
    have hp : entry.p = true := hpresent.present _ hstep
    cases state <;> simp [entryFaults, walkFaults, badNX, hmode, hp]

/-! ## Under the kernel -/

private theorem underKernel_of_admitted (hrequests : access.requests vaddr = [request])
    (hcpl : regs.cpl = 3) (hcpl0 : request.cpl0 = false)
    (hadmitted : Admitted regs request (page.lookup request.mode)) (attempts : Nat) :
    underKernel base regs kernel vaddr access (attempts + 1) page =
      .completed (page.done request.mode vaddr access) := by
  have hperform : perform base (userFaultsOff regs) vaddr access page =
      .ok (page.done request.mode vaddr access) :=
    perform_of_admitted hrequests hcpl hcpl0 ⟨hadmitted.walk, hadmitted.user, hadmitted.writable⟩
  rw [underKernel, hperform]

def reportedMode (base : PageFaults) (regs : ControlState) (vaddr : BitVec 64)
    (access : UserAccess) (page : PageView) : Mode :=
  match perform base (userFaultsOff regs) vaddr access page with
  | .error (.pageFault _ code) => faultMode code
  | _ => .read

private theorem underKernel_of_fault {addr : BitVec 64} {code : PageFaultCode}
    (hperform : perform base (userFaultsOff regs) vaddr access page =
      .error (.pageFault addr code)) (attempts : Nat) :
    underKernel base regs kernel vaddr access (attempts + 1) page =
      match kernel.fault (reportedMode base regs vaddr access page) page with
      | .ok page' => underKernel base regs kernel vaddr access attempts page'
      | .error signal => .signalled signal := by
  cases hkernel : kernel.fault (faultMode code) page <;>
    simp only [underKernel, reportedMode, hperform, hkernel]

private theorem perform_refused (base : PageFaults) (hrequests : access.requests vaddr = [request])
    (hcpl : regs.cpl = 3) (hcpl0 : request.cpl0 = false)
    (hrefused : ¬ Admitted regs request (page.lookup request.mode)) :
    (∃ addr code, perform base (userFaultsOff regs) vaddr access page =
        .error (.pageFault addr code)) ∧
      (request.mode = .write → reportedMode base regs vaddr access page = .write) ∧
      (request.mode = .read → request.storeCheck = false →
        reportedMode base regs vaddr access page = .read) ∧
      (request.mode = .execute → request.storeCheck = false →
        reportedMode base regs vaddr access page = .execute ∨
          reportedMode base regs vaddr access page = .read ∧ regs.enableNX = false) := by
  have hadmitted : ¬ Admitted (userFaultsOff regs) request (page.lookup request.mode) :=
    fun h => hrefused ⟨h.walk, h.user, h.writable⟩
  have hsome : translate base (userFaultsOff regs) request (page.lookup request.mode) ≠ none :=
    fun h => hadmitted
      ((translate_eq_none_iff (show (userFaultsOff regs).cpl = 3 from hcpl) hcpl0).1 h)
  obtain ⟨fault, hfault⟩ := Option.ne_none_iff_exists'.1 hsome
  obtain ⟨present, mode, user, rfl, hwrite, hread, hexecute⟩ := translate_pageFault rfl hfault
  have hperform : perform base (userFaultsOff regs) vaddr access page =
      .error (.pageFault request.vaddr (base.code present mode user false)) := by
    rw [perform_of_requests hrequests, hfault]
  have hmode : reportedMode base regs vaddr access page = mode := by
    simp only [reportedMode, hperform, faultMode_code]
  rw [hmode]
  refine ⟨⟨_, _, hperform⟩, hwrite, fun hmode hplain => hread hmode hcpl hcpl0 fun h => ?_,
    hexecute⟩
  refine hrefused ⟨h.walk, h.user, fun hstore => h.writable ?_⟩
  simpa [hplain] using hstore

private theorem underKernel_of_refused (base : PageFaults) (kernel : Kernel)
    (hrequests : access.requests vaddr = [request])
    (hcpl : regs.cpl = 3) (hcpl0 : request.cpl0 = false)
    (hrefused : ¬ Admitted regs request (page.lookup request.mode))
    (hserved : ∀ page', kernel.fault (reportedMode base regs vaddr access page) page = .ok page' →
      Admitted regs request (page'.lookup request.mode)) (attempts : Nat) :
    underKernel base regs kernel vaddr access (attempts + 2) page =
      match kernel.fault (reportedMode base regs vaddr access page) page with
      | .ok page' => .completed (page'.done request.mode vaddr access)
      | .error signal => .signalled signal := by
  obtain ⟨⟨addr, code, hperform⟩, -⟩ :=
    perform_refused base hrequests hcpl hcpl0 hrefused
  rw [underKernel_of_fault hperform]
  cases hkernel : kernel.fault (reportedMode base regs vaddr access page) page with
  | error signal => rfl
  | ok page' => exact underKernel_of_admitted hrequests hcpl hcpl0 (hserved page' hkernel) attempts

def readRequest (vaddr : BitVec 64) : Access := ⟨vaddr, .read, false, false⟩

def writeRequest (vaddr : BitVec 64) : Access := ⟨vaddr, .write, false, false⟩

def fetchRequest (vaddr : BitVec 64) : Access := ⟨vaddr, .execute, false, false⟩

private theorem requests_load : UserAccess.load.requests vaddr = [readRequest vaddr] := rfl

private theorem requests_store (first : BitVec 8) (rest : List (BitVec 8)) :
    (UserAccess.store first rest).requests vaddr = [writeRequest vaddr] := rfl

private theorem requests_fetch : UserAccess.fetch.requests vaddr = [fetchRequest vaddr] := rfl

private theorem underKernel_load (hcpl : regs.cpl = 3)
    (hrefused : ¬ Admitted regs (readRequest vaddr) (page.lookup .read)) (attempts : Nat) :
    underKernel base regs kernel vaddr .load (attempts + 2) page =
      match kernel.fault .read page with
      | .ok page' => .completed (page'.done .read vaddr .load)
      | .error signal => .signalled signal := by
  have hmode : reportedMode base regs vaddr .load page = .read :=
    (perform_refused base requests_load hcpl rfl hrefused).2.2.1 rfl rfl
  rw [underKernel_of_refused base kernel requests_load hcpl rfl hrefused ?_ attempts, hmode]
  · rfl
  · intro page' hkernel
    refine (kernel.present _ _ _ hkernel).admitted (fun hmode => ?_) (fun hstore => ?_)
    · simp [readRequest] at hmode
    · simp [readRequest] at hstore

private theorem underKernel_store (hcpl : regs.cpl = 3)
    (hrefused : ¬ Admitted regs (writeRequest vaddr) (page.lookup .write))
    (first : BitVec 8) (rest : List (BitVec 8)) (attempts : Nat) :
    underKernel base regs kernel vaddr (.store first rest) (attempts + 2) page =
      match kernel.fault .write page with
      | .ok page' => .completed (page'.done .write vaddr (.store first rest))
      | .error signal => .signalled signal := by
  have hmode : reportedMode base regs vaddr (.store first rest) page = .write :=
    (perform_refused base (requests_store first rest) hcpl rfl hrefused).2.1 rfl
  rw [underKernel_of_refused base kernel (requests_store first rest) hcpl rfl hrefused ?_ attempts,
    hmode]
  · rfl
  · intro page' hkernel
    rw [hmode] at hkernel
    refine (kernel.present _ _ _ hkernel).admitted (fun hmode => ?_) (fun _ => ?_)
    · simp [writeRequest] at hmode
    · exact kernel.writable _ _ hkernel

private theorem underKernel_fetch (hcpl : regs.cpl = 3)
    (hrefused : ¬ Admitted regs (fetchRequest vaddr) (page.lookup .execute)) (attempts : Nat) :
    underKernel base regs kernel vaddr .fetch (attempts + 2) page =
      match kernel.fault (reportedMode base regs vaddr .fetch page) page with
      | .ok page' => .completed (page'.done .execute vaddr .fetch)
      | .error signal => .signalled signal := by
  have hmode := (perform_refused base requests_fetch hcpl rfl hrefused).2.2.2 rfl rfl
  refine underKernel_of_refused base kernel requests_fetch hcpl rfl hrefused ?_ attempts
  intro page' hkernel
  have hpresent := kernel.present _ _ _ hkernel
  refine hpresent.admitted (fun _ step hstep => ?_) (fun hstore => ?_)
  · obtain ⟨state, entry⟩ := step
    have hp : entry.p = true := hpresent.present _ hstep
    rcases hmode with hmode | ⟨-, hnx⟩
    · rw [hmode] at hkernel
      have hnx : entry.nx = false := kernel.executable _ _ hkernel _ hstep
      cases state <;> simp [entryFaults, walkFaults, badNX, hp, hnx]
    · cases state <;> simp [entryFaults, walkFaults, badNX, hp, hnx]
  · simp [fetchRequest] at hstore

/-! ## Read-modify-writes -/

def storeCheckRequest (vaddr : BitVec 64) : Access := ⟨vaddr, .read, true, false⟩

private theorem requests_readModifyWrite (modify : Memory 64 → Memory 64) :
    (UserAccess.readModifyWrite modify).requests vaddr =
      [storeCheckRequest vaddr, writeRequest vaddr] := rfl

private theorem issue_of_fault {fault : Fault}
    (hfault : translate base regs request (page.lookup request.mode) = some fault) :
    issue base regs page request = .error fault := by
  simp only [issue, hfault]

private theorem issue_of_admitted (hcpl : regs.cpl = 3) (hcpl0 : request.cpl0 = false)
    (hadmitted : Admitted regs request (page.lookup request.mode)) :
    issue base regs page request = .ok (page.fill request.mode) := by
  have hnone : translate base regs request (page.lookup request.mode) = none :=
    (translate_eq_none_iff hcpl hcpl0).2 hadmitted
  simp only [issue, hnone]

private theorem perform_readModifyWrite_of_fault {fault : Fault}
    (hfault : translate base regs (storeCheckRequest vaddr) (page.lookup .read) = some fault)
    (modify : Memory 64 → Memory 64) :
    perform base regs vaddr (.readModifyWrite modify) page = .error fault := by
  have hload : issue base regs page (storeCheckRequest vaddr) = .error fault :=
    issue_of_fault hfault
  rw [perform, requests_readModifyWrite, List.foldlM_cons, hload]
  rfl

private theorem perform_readModifyWrite (hcpl : regs.cpl = 3)
    (hadmitted : Admitted regs (storeCheckRequest vaddr) (page.lookup .read))
    (modify : Memory 64 → Memory 64) :
    perform base regs vaddr (.readModifyWrite modify) page =
      .ok { (page.fill .read).fill .write with memory := modify page.memory } := by
  have hload : issue base regs page (storeCheckRequest vaddr) = .ok (page.fill .read) :=
    issue_of_admitted hcpl rfl hadmitted
  have hlookup : (page.fill .read).lookup .write = .hit (page.lookup .read).entry :=
    page.lookup_fill .read
  have hwrite : Admitted regs (writeRequest vaddr) ((page.fill .read).lookup .write) := by
    rw [hlookup]
    exact ⟨by simp [Lookup.walk], hadmitted.user, fun _ => hadmitted.writable (.inr rfl)⟩
  have hstore : issue base regs (page.fill .read) (writeRequest vaddr) =
      .ok ((page.fill .read).fill .write) :=
    issue_of_admitted hcpl rfl hwrite
  have hrequests : [storeCheckRequest vaddr, writeRequest vaddr].foldlM (issue base regs) page =
      .ok ((page.fill .read).fill .write) := by
    rw [List.foldlM_cons, hload]
    change [writeRequest vaddr].foldlM (issue base regs) (page.fill .read) = _
    rw [List.foldlM_cons, hstore]
    rfl
  rw [perform, requests_readModifyWrite, hrequests]
  simp [UserAccess.effect, bind, Except.bind, pure, Except.pure]

/-! ## The fault that brought the handler in -/

private theorem exists_request_of_error {requests : List Access} {fault : Fault}
    (herror : requests.foldlM (issue base regs) page = .error fault) :
    ∃ request ∈ requests, ∃ page : PageView,
      translate base regs request (page.lookup request.mode) = some fault := by
  induction requests generalizing page with
  | nil => cases herror
  | cons request requests ih =>
      cases htranslate : translate base regs request (page.lookup request.mode) with
      | some fault' =>
          rw [List.foldlM_cons, issue_of_fault htranslate] at herror
          cases herror
          exact ⟨request, List.mem_cons_self, page, htranslate⟩
      | none =>
          have hissue : issue base regs page request = .ok (page.fill request.mode) := by
            simp only [issue, htranslate]
          rw [List.foldlM_cons, hissue] at herror
          obtain ⟨request', hmem, hfault⟩ := ih herror
          exact ⟨request', List.mem_cons_of_mem _ hmem, hfault⟩

private theorem requests_vaddr (hmem : request ∈ access.requests vaddr) :
    request.vaddr = vaddr := by
  cases access <;>
    simp only [UserAccess.requests, List.mem_cons, List.not_mem_nil, or_false] at hmem
  case readModifyWrite modify => rcases hmem with rfl | rfl <;> rfl
  all_goals rw [hmem]

variable {addr : BitVec 64} {code : BitVec 8}

private theorem vaddr_of_userFault
    (hfault : perform base regs vaddr access page = .error (.userFault addr code)) :
    addr = vaddr ∧ regs.cpl = 3 := by
  rw [perform] at hfault
  cases hrequests : (access.requests vaddr).foldlM (issue base regs) page with
  | ok page' =>
      rw [hrequests] at hfault
      cases hfault
  | error fault =>
      rw [hrequests] at hfault
      cases hfault
      obtain ⟨request, hmem, page', htranslate⟩ := exists_request_of_error hrequests
      obtain ⟨haddr, hcpl, -⟩ := translate_userFault htranslate
      exact ⟨haddr.trans (requests_vaddr hmem), hcpl⟩

private theorem refused_of_userFault (hrequests : access.requests vaddr = [request])
    (hcpl0 : request.cpl0 = false)
    (hfault : perform base regs vaddr access page = .error (.userFault addr code)) :
    ¬ Admitted regs request (page.lookup request.mode) ∧
      (code &&& 2 ≠ 0 ↔ request.mode = .write) := by
  obtain ⟨-, hcpl⟩ := vaddr_of_userFault hfault
  rw [perform_of_requests hrequests] at hfault
  cases htranslate : translate base regs request (page.lookup request.mode) with
  | none => simp [htranslate] at hfault
  | some fault =>
      simp only [htranslate, Except.error.injEq] at hfault
      subst hfault
      refine ⟨fun hadmitted => ?_, (translate_userFault htranslate).2.2⟩
      simp [(translate_eq_none_iff hcpl hcpl0).2 hadmitted] at htranslate

private theorem refused_of_readModifyWrite {modify : Memory 64 → Memory 64}
    (hfault : perform base regs vaddr (.readModifyWrite modify) page =
      .error (.userFault addr code)) :
    ¬ Admitted regs (storeCheckRequest vaddr) (page.lookup .read) ∧ ¬ code &&& 2 ≠ 0 := by
  obtain ⟨-, hcpl⟩ := vaddr_of_userFault hfault
  have hrefused : ¬ Admitted regs (storeCheckRequest vaddr) (page.lookup .read) := by
    intro hadmitted
    rw [perform_readModifyWrite hcpl hadmitted] at hfault
    cases hfault
  cases hload : translate base regs (storeCheckRequest vaddr) (page.lookup .read) with
  | none => exact absurd ((translate_eq_none_iff hcpl rfl).1 hload) hrefused
  | some fault =>
      rw [perform_readModifyWrite_of_fault hload] at hfault
      cases hfault
      refine ⟨hrefused, fun hwrite => ?_⟩
      have hmode := (translate_userFault hload).2.2.1 hwrite
      cases hmode

/-! ## Transparency -/

def Readable (regs : ControlState) (vaddr : BitVec 64) (page : PageView) : Prop :=
  Admitted regs (readRequest vaddr) (page.lookup .read)

def Replayable (base : PageFaults) (regs : ControlState) (kernel : Kernel) (vaddr : BitVec 64)
    (page : PageView) : UserAccess → Prop
  | .load | .store _ _ => True
  | .readModifyWrite _ => ¬ Readable regs vaddr page ∧
      ∀ page', kernel.fault .read page = .ok page' → page'.filled.writable = true
  | .fetch => ¬ Readable regs vaddr page ∧
      match kernel.fault .read page,
        kernel.fault (reportedMode base regs vaddr .fetch page) page with
      | .ok page', .ok _ => ∀ step ∈ page'.walk, entryFaults regs (fetchRequest vaddr) step = false
      | .error signal, .error signal' => signal = signal'
      | _, _ => False

private theorem effect_store_after_zero (memory : Memory 64) (first : BitVec 8)
    (rest : List (BitVec 8)) :
    (UserAccess.store first rest).effect vaddr
        ((UserAccess.store 0 []).effect vaddr memory) =
      (UserAccess.store first rest).effect vaddr memory := by
  funext addr
  simp only [UserAccess.effect]
  cases (addr - vaddr).toNat with
  | zero => rfl
  | succ offset => simp

private theorem transparent_load (hcpl : regs.cpl = 3)
    (hrefused : ¬ Admitted regs (readRequest vaddr) (page.lookup .read)) (attempts : Nat) :
    Transparent (underKernel base regs kernel vaddr .load (attempts + 2) page)
      (underKernel base regs kernel vaddr .load (attempts + 2) page)
      (perform base regs vaddr .load) := by
  rw [underKernel_load hcpl hrefused]
  cases hkernel : kernel.fault .read page with
  | error signal => rfl
  | ok page' =>
      have hadmitted : Admitted regs (readRequest vaddr)
          ((page'.done .read vaddr .load).lookup .read) := by
        have hpresent := kernel.present _ _ _ hkernel
        rw [hpresent.lookup_done]
        exact ⟨by simp [Lookup.walk], hpresent.user, by simp [readRequest]⟩
      exact ⟨_, _, perform_of_admitted requests_load hcpl rfl hadmitted, rfl, rfl⟩

private theorem transparent_store (hcpl : regs.cpl = 3)
    (hrefused : ¬ Admitted regs (writeRequest vaddr) (page.lookup .write))
    (first : BitVec 8) (rest : List (BitVec 8)) (attempts : Nat) :
    Transparent (underKernel base regs kernel vaddr (.store first rest) (attempts + 2) page)
      (underKernel base regs kernel vaddr (.store 0 []) (attempts + 2) page)
      (perform base regs vaddr (.store first rest)) := by
  rw [underKernel_store hcpl hrefused, underKernel_store hcpl hrefused]
  cases hkernel : kernel.fault .write page with
  | error signal => rfl
  | ok page' =>
      have hadmitted : Admitted regs (writeRequest vaddr)
          ((page'.done .write vaddr (.store 0 [])).lookup .write) := by
        have hpresent := kernel.present _ _ _ hkernel
        rw [hpresent.lookup_done]
        exact ⟨by simp [Lookup.walk], hpresent.user, fun _ => kernel.writable _ _ hkernel⟩
      -- The store writes over the zero that the replay has left.
      exact ⟨_, _, perform_of_admitted (requests_store first rest) hcpl rfl hadmitted, rfl,
        effect_store_after_zero page'.memory first rest⟩

private theorem perform_readModifyWrite_refused (base : PageFaults) (hcpl : regs.cpl = 3)
    (hrefused : ¬ Admitted regs (storeCheckRequest vaddr) (page.lookup .read))
    (modify : Memory 64 → Memory 64) (final : PageView) :
    perform base regs vaddr (.readModifyWrite modify) page ≠ .ok final := by
  cases hload : translate base regs (storeCheckRequest vaddr) (page.lookup .read) with
  | none => exact absurd ((translate_eq_none_iff hcpl rfl).1 hload) hrefused
  | some fault =>
      rw [perform_readModifyWrite_of_fault hload]
      intro hok
      cases hok

private theorem underKernel_readModifyWrite (base : PageFaults) (kernel : Kernel)
    (hcpl : regs.cpl = 3)
    (hunreadable : ¬ Readable regs vaddr page) (modify : Memory 64 → Memory 64)
    (attempts : Nat) :
    underKernel base regs kernel vaddr (.readModifyWrite modify) (attempts + 1) page =
      match kernel.fault .read page with
      | .ok page' => underKernel base regs kernel vaddr (.readModifyWrite modify) attempts page'
      | .error signal => .signalled signal := by
  have hcplOff : (userFaultsOff regs).cpl = 3 := hcpl
  have hread : ¬ Admitted (userFaultsOff regs) (readRequest vaddr) (page.lookup .read) :=
    fun h => hunreadable ⟨h.walk, h.user, h.writable⟩
  cases hload : translate base (userFaultsOff regs) (storeCheckRequest vaddr)
      (page.lookup .read) with
  | none =>
      have h := (translate_eq_none_iff hcplOff rfl).1 hload
      exact absurd ⟨h.walk, h.user, by simp [readRequest]⟩ hread
  | some fault =>
      obtain ⟨present, mode, user, rfl, -, hmode, -⟩ := translate_pageFault rfl hload
      obtain rfl := hmode rfl hcpl rfl hread
      have hperform := perform_readModifyWrite_of_fault hload modify
      have hreported : reportedMode base regs vaddr (.readModifyWrite modify) page = .read := by
        simp only [reportedMode, hperform, faultMode_code]
      rw [underKernel_of_fault hperform, hreported]

/-- A page that was brought in for a read and is writable serves the access itself, at the
kernel's hands as well as after the replay. -/
private theorem transparent_readModifyWrite_of_writable (hcpl : regs.cpl = 3)
    (hpresent : page.Present)
    (hwritable : page.filled.writable = true) (modify : Memory 64 → Memory 64)
    (attempts : Nat) :
    Transparent (underKernel base regs kernel vaddr (.readModifyWrite modify) (attempts + 1) page)
      (.completed (page.done .read vaddr .load))
      (perform base regs vaddr (.readModifyWrite modify)) := by
  have hretry : Admitted regs (storeCheckRequest vaddr)
      ((page.done .read vaddr .load).lookup .read) := by
    rw [hpresent.lookup_done]
    exact ⟨by simp [Lookup.walk], hpresent.user, fun _ => hwritable⟩
  have hdirect : Admitted (userFaultsOff regs) (storeCheckRequest vaddr) (page.lookup .read) :=
    hpresent.admitted (fun h => by simp [storeCheckRequest] at h) fun _ => hwritable
  refine ⟨_, _, perform_readModifyWrite hcpl hretry modify, ?_, rfl⟩
  simp only [underKernel,
    perform_readModifyWrite (show (userFaultsOff regs).cpl = 3 from hcpl) hdirect]
  rfl

private theorem transparent_readModifyWrite_iff (hcpl : regs.cpl = 3)
    (hrefused : ¬ Admitted regs (storeCheckRequest vaddr) (page.lookup .read))
    (modify : Memory 64 → Memory 64) (attempts : Nat) :
    Transparent (underKernel base regs kernel vaddr (.readModifyWrite modify) (attempts + 2) page)
        (underKernel base regs kernel vaddr .load (attempts + 2) page)
        (perform base regs vaddr (.readModifyWrite modify)) ↔
      Replayable base regs kernel vaddr page (.readModifyWrite modify) := by
  by_cases hread : Readable regs vaddr page
  · -- The replay passes and leaves the page as it was.
    rw [underKernel_of_admitted requests_load hcpl rfl hread]
    refine iff_of_false ?_ fun hreplayable => hreplayable.1 hread
    rintro ⟨final, -, hretry, -⟩
    refine perform_readModifyWrite_refused base hcpl (fun h => hrefused ?_) modify final hretry
    have hlookup : (page.done .read vaddr .load).lookup .read = .hit (page.lookup .read).entry :=
      page.lookup_fill .read
    have hwritable := h.writable
    rw [show (page.done (readRequest vaddr).mode vaddr .load).lookup .read = _ from hlookup]
      at hwritable
    exact ⟨hread.walk, hread.user, hwritable⟩
  · rw [underKernel_load hcpl hread, underKernel_readModifyWrite base kernel hcpl hread]
    cases hkernel : kernel.fault .read page with
    | error signal => exact iff_of_true rfl ⟨hread, fun page' hok => by simp [hkernel] at hok⟩
    | ok page' =>
        have hpresent := kernel.present _ _ _ hkernel
        cases hwritable : page'.filled.writable with
        | false =>
            refine iff_of_false ?_ fun hreplayable => ?_
            · rintro ⟨final, -, hretry, -⟩
              refine perform_readModifyWrite_refused base hcpl (fun h => ?_) modify final hretry
              have hfilled := h.writable (.inr rfl)
              rw [hpresent.lookup_done] at hfilled
              simp [Lookup.entry, hwritable] at hfilled
            · have hfilled := hreplayable.2 page' hkernel
              simp [hwritable] at hfilled
        | true =>
            refine iff_of_true ?_ ⟨hread, fun page'' hok => ?_⟩
            · exact transparent_readModifyWrite_of_writable hcpl hpresent hwritable modify attempts
            · rw [hkernel] at hok
              cases hok
              exact hwritable

private theorem perform_ne_ok (base : PageFaults) (hrequests : access.requests vaddr = [request])
    (hcpl : regs.cpl = 3) (hcpl0 : request.cpl0 = false)
    (hrefused : ¬ Admitted regs request (page.lookup request.mode)) (final : PageView) :
    perform base regs vaddr access page ≠ .ok final := by
  rw [perform_of_requests hrequests]
  cases htranslate : translate base regs request (page.lookup request.mode) with
  | none => exact absurd ((translate_eq_none_iff hcpl hcpl0).1 htranslate) hrefused
  | some fault =>
      intro hok
      cases hok

private theorem transparent_fetch_iff (hcpl : regs.cpl = 3)
    (hrefused : ¬ Admitted regs (fetchRequest vaddr) (page.lookup .execute)) (attempts : Nat) :
    Transparent (underKernel base regs kernel vaddr .fetch (attempts + 2) page)
        (underKernel base regs kernel vaddr .load (attempts + 2) page)
        (perform base regs vaddr .fetch) ↔
      Replayable base regs kernel vaddr page .fetch := by
  by_cases hread : Readable regs vaddr page
  · -- The replay passes and leaves what a fetch looks at as it was.
    rw [underKernel_of_admitted requests_load hcpl rfl hread]
    refine iff_of_false ?_ fun hreplayable => hreplayable.1 hread
    rintro ⟨final, -, hretry, -⟩
    refine perform_ne_ok base requests_fetch hcpl rfl (fun h => hrefused ?_) final hretry
    exact ⟨h.walk, h.user, h.writable⟩
  · rw [underKernel_load hcpl hread, underKernel_fetch hcpl hrefused, Replayable,
      and_iff_right hread]
    cases hkernel : kernel.fault .read page with
    | error signal =>
        cases hdirect : kernel.fault (reportedMode base regs vaddr .fetch page) page with
        | error signal' => simp [Transparent, eq_comm]
        | ok page'' => simp [Transparent]
    | ok page' =>
        have hpresent := kernel.present _ _ _ hkernel
        have hlookup : (page'.done .read vaddr .load).lookup .execute =
            .miss page'.walk page'.filled := hpresent.lookup .execute
        cases hdirect : kernel.fault (reportedMode base regs vaddr .fetch page) page with
        | error signal' => simp [Transparent]
        | ok page'' =>
            constructor
            · rintro ⟨final, -, hretry, -⟩ step hstep
              by_contra hfaults
              refine perform_ne_ok base requests_fetch hcpl rfl (fun h => ?_) final hretry
              have hwalk := h.walk
              rw [show (page'.done .read vaddr .load).lookup (fetchRequest vaddr).mode = _
                from hlookup] at hwalk
              exact hfaults (hwalk step hstep)
            · intro hwalk
              have hadmitted : Admitted regs (fetchRequest vaddr)
                  ((page'.done .read vaddr .load).lookup .execute) := by
                rw [hlookup]
                exact ⟨hwalk, hpresent.user, by simp [fetchRequest]⟩
              refine ⟨_, _, perform_of_admitted requests_fetch hcpl rfl hadmitted, rfl, ?_⟩
              have hsame := (kernel.memory _ _ _ hkernel).trans (kernel.memory _ _ _ hdirect).symm
              exact hsame

/--
Exactly when the replay of a fault outside the managed ranges is transparent: always
for loads and stores, and for the rest only while the page cannot be read and if what
the kernel does for a read is enough for the access itself.
-/
theorem replay_transparent_iff (base : PageFaults) (regs : ControlState) (kernel : Kernel)
    (calls : List Mapping) (managed : BitVec 64 → PageView → Outcome) {attempts : Nat}
    (hattempts : 2 ≤ attempts)
    (hunmanaged : ∀ call ∈ calls, ¬ call.Covers addr)
    (hfault : perform base regs vaddr access page = .error (.userFault addr code)) :
    Transparent (underKernel base regs kernel vaddr access attempts page)
        (uswapUfaultHandler base regs kernel (registered calls) managed attempts page addr code)
        (perform base regs vaddr access) ↔
      Replayable base regs kernel vaddr page access := by
  obtain ⟨rfl, hcpl⟩ := vaddr_of_userFault hfault
  obtain ⟨attempts, rfl⟩ := Nat.exists_eq_add_of_le' hattempts
  have hcheck : userfaultRangeCheck (registered calls) addr = false := by
    by_contra hcheck
    obtain ⟨call, hmem, hcovers⟩ := exists_covers_of_check (Bool.not_eq_false _ ▸ hcheck)
    exact hunmanaged call hmem hcovers
  have hreplay : uswapUfaultHandler base regs kernel (registered calls) managed (attempts + 2)
      page addr code =
        underKernel base regs kernel addr (replayedAccess code) (attempts + 2) page := by
    simp only [uswapUfaultHandler, hcheck, Bool.not_false, if_true]
  rw [hreplay]
  cases access with
  | load =>
      obtain ⟨hrefused, hcode⟩ := refused_of_userFault requests_load rfl hfault
      have hload : replayedAccess code = .load := if_neg fun hwrite => by cases hcode.1 hwrite
      rw [hload]
      exact iff_of_true (transparent_load hcpl hrefused attempts) trivial
  | store first rest =>
      obtain ⟨hrefused, hcode⟩ := refused_of_userFault (requests_store first rest) rfl hfault
      have hstore : replayedAccess code = .store 0 [] := if_pos (hcode.2 rfl)
      rw [hstore]
      exact iff_of_true (transparent_store hcpl hrefused first rest attempts) trivial
  | readModifyWrite modify =>
      obtain ⟨hrefused, hcode⟩ := refused_of_readModifyWrite hfault
      have hload : replayedAccess code = .load := if_neg hcode
      rw [hload]
      exact transparent_readModifyWrite_iff hcpl hrefused modify attempts
  | fetch =>
      obtain ⟨hrefused, hcode⟩ := refused_of_userFault requests_fetch rfl hfault
      have hload : replayedAccess code = .load := if_neg fun hwrite => by cases hcode.1 hwrite
      rw [hload]
      exact transparent_fetch_iff hcpl hrefused attempts

/-- A kernel for mappings of data: a page becomes writable when it is written, and a
fetch from it is an error. -/
def demandPaging : Kernel where
  fault
    | .execute, _ => .error .sigsegv
    | mode, page => .ok { page with
        walk := page.walk.map fun step => (step.1, ⟨true, true⟩)
        filled := ⟨true, mode == .write || page.filled.writable⟩
        dtb := none
        itb := none }
  present := by
    intro mode page page' hok
    cases mode <;> cases hok
    all_goals
      refine ⟨fun step hstep => ?_, rfl, rfl, rfl⟩
      obtain ⟨step', -, rfl⟩ := List.mem_map.1 hstep
      rfl
  writable := by
    rintro page page' ⟨⟩
    rfl
  executable := by
    rintro page page' ⟨⟩
  memory := by
    intro mode page page' hok
    cases mode <;> cases hok <;> rfl

def absentPage : PageView where
  walk := [(.longPML4, ⟨true, false⟩), (.longPDP, ⟨false, false⟩)]
  filled := ⟨true, false⟩
  dtb := none
  itb := none
  memory := fun _ => 0

def cowPage : PageView where
  walk := [(.longPML4, ⟨true, false⟩), (.longPDP, ⟨true, false⟩), (.longPD, ⟨true, false⟩),
    (.longPTE, ⟨true, true⟩)]
  filled := ⟨true, false⟩
  dtb := none
  itb := none
  memory := fun _ => 0

theorem replay_transparent_iff_absentPage :
    perform documentedPageFaults userFaultsOn 0x2000 (.store 7 []) absentPage =
        .error (.userFault 0x2000 2) ∧
      Transparent
        (underKernel documentedPageFaults userFaultsOn demandPaging 0x2000 (.store 7 []) 3
          absentPage)
        (uswapUfaultHandler documentedPageFaults userFaultsOn demandPaging
          (registered [highMapping]) (fun _ _ => .unfinished) 3 absentPage 0x2000 2)
        (perform documentedPageFaults userFaultsOn 0x2000 (.store 7 [])) :=
  ⟨rfl, (replay_transparent_iff documentedPageFaults userFaultsOn demandPaging [highMapping]
    (fun _ _ => .unfinished) (by decide) (by decide) rfl).2 trivial⟩

def increment : UserAccess :=
  .readModifyWrite fun memory => Function.update memory 0x2000 (memory 0x2000 + 1)

/-- The replay of an increment of a copy-on-write page is a read, which succeeds and
changes nothing: the increment raises the same fault again.  So does a fetch from the
page, where the kernel would have sent a signal. -/
theorem increment_and_fetch_of_cowPage_repeat :
    (perform documentedPageFaults userFaultsOn 0x2000 increment cowPage =
        .error (.userFault 0x2000 1) ∧
      ¬ Transparent
        (underKernel documentedPageFaults userFaultsOn demandPaging 0x2000 increment 3 cowPage)
        (uswapUfaultHandler documentedPageFaults userFaultsOn demandPaging
          (registered [highMapping]) (fun _ _ => .unfinished) 3 cowPage 0x2000 1)
        (perform documentedPageFaults userFaultsOn 0x2000 increment)) ∧
      perform documentedPageFaults userFaultsOn 0x2000 .fetch cowPage =
        .error (.userFault 0x2000 5) ∧
      ¬ Transparent
        (underKernel documentedPageFaults userFaultsOn demandPaging 0x2000 .fetch 3 cowPage)
        (uswapUfaultHandler documentedPageFaults userFaultsOn demandPaging
          (registered [highMapping]) (fun _ _ => .unfinished) 3 cowPage 0x2000 5)
        (perform documentedPageFaults userFaultsOn 0x2000 .fetch) := by
  refine ⟨⟨rfl, ?_⟩, rfl, ?_⟩
  · rintro ⟨final, -, hretry, -⟩
    cases hretry
  · rintro ⟨final, -, hretry, -⟩
    cases hretry

end UserPaging.Extmem
