import Mathlib.Data.BitVec
import Mathlib.Data.List.Pairwise

/-!
# The device that hands out the pool

`usm_mmap` of the kernel module maps frames of the pool that the module reserved.
It checks the length of a request against `index` and places the request at
`pgoff`.  Nothing but the release of the file writes `index`, so both variables
stay 0: where a request lands is what the caller's `vm_pgoff` says.
-/

namespace UserPaging.Usm

def usmMemSize : BitVec 64 := 512 * 1024 * 1024

def poolPages : Nat := usmMemSize.toNat / 4096

/-- The fields of a `vm_area_struct` that `usm_mmap` reads. -/
structure Vma where
  vmStart : BitVec 64
  vmEnd : BitVec 64
  vmPgoff : BitVec 64
  nonempty : vmStart < vmEnd
  aligned : (vmEnd - vmStart).toNat % 4096 = 0

def Vma.pages (vma : Vma) : Nat := (vma.vmEnd - vma.vmStart).toNat / 4096

private theorem Vma.pages_pos (vma : Vma) : 0 < vma.pages := by
  have haligned := vma.aligned
  have hlt : vma.vmStart.toNat < vma.vmEnd.toNat := vma.nonempty
  have hlength : (vma.vmEnd - vma.vmStart).toNat = vma.vmEnd.toNat - vma.vmStart.toNat :=
    BitVec.toNat_sub_of_le (BitVec.le_of_lt vma.nonempty)
  rw [Vma.pages]
  omega

structure PoolGlobals where
  index : BitVec 64
  indext : BitVec 64
  pgoff : BitVec 64
  deriving DecidableEq, Repr

def usmMmap (paddr : BitVec 64) (s : PoolGlobals) (vma : Vma) (remapFails : Bool) :
    Except Int (PoolGlobals × BitVec 64) :=
  let page := (paddr >>> 12) + vma.vmPgoff + s.pgoff
  if usmMemSize < s.index + (vma.vmEnd - vma.vmStart) then .error (-12)
  else if remapFails then .error (-1)
  else .ok
    ({ s with
        indext := s.indext + (vma.vmEnd - vma.vmStart)
        pgoff := s.index / 4096 }, page)

def usmMiscFRelease (s : PoolGlobals) : PoolGlobals := { s with index := 0 }

/-! ## Runs -/

structure PoolMapping where
  period : Nat
  page : BitVec 64
  pages : Nat
  deriving DecidableEq, Repr

inductive PoolOp where
  | mmap (vma : Vma) (remapFails : Bool)
  | release

structure PoolDevice where
  globals : PoolGlobals
  releases : Nat
  mapped : List PoolMapping
  deriving DecidableEq, Repr

namespace PoolDevice

def initial : PoolDevice := ⟨⟨0, 0, 0⟩, 0, []⟩

def step (paddr : BitVec 64) (s : PoolDevice) : PoolOp → PoolDevice
  | .mmap vma remapFails =>
      match usmMmap paddr s.globals vma remapFails with
      | .error _ => s
      | .ok (globals, page) =>
          { s with
            globals := globals
            mapped := s.mapped ++ [⟨s.releases, page, vma.pages⟩] }
  | .release => { s with globals := usmMiscFRelease s.globals, releases := s.releases + 1 }

def run (paddr : BitVec 64) (s : PoolDevice) (ops : List PoolOp) : PoolDevice :=
  ops.foldl (step paddr) s

end PoolDevice

def PoolMapping.frame (mapping : PoolMapping) (k : Nat) : BitVec 64 :=
  mapping.page + BitVec.ofNat 64 k

/-- The frame belongs to the pool that starts at the physical address `paddr`. -/
def InPool (paddr frame : BitVec 64) : Prop := (frame - (paddr >>> 12)).toNat < poolPages

instance (paddr frame : BitVec 64) : Decidable (InPool paddr frame) :=
  inferInstanceAs (Decidable (_ < _))

/-- All mapped frames belong to the pool, and two calls with no release between them share
none. -/
structure HandsOutSafely (paddr : BitVec 64) (mapped : List PoolMapping) : Prop where
  inside : ∀ mapping ∈ mapped, ∀ k < mapping.pages, InPool paddr (mapping.frame k)
  apart : mapped.Pairwise fun mapping later => mapping.period = later.period →
    ∀ k < mapping.pages, ∀ k' < later.pages, mapping.frame k ≠ later.frame k'

/-! ## What the callers ask for -/

/-- A call that is neither too long nor refused by `remap_pfn_range`. -/
structure PoolRequest where
  period : Nat
  vmPgoff : BitVec 64
  pages : Nat
  pos : 0 < pages

def PoolRequest.mapping (paddr : BitVec 64) (request : PoolRequest) : PoolMapping :=
  ⟨request.period, (paddr >>> 12) + request.vmPgoff, request.pages⟩

def requests : Nat → List PoolOp → List PoolRequest
  | _, [] => []
  | period, .release :: ops => requests (period + 1) ops
  | period, .mmap vma remapFails :: ops =>
      if usmMemSize < vma.vmEnd - vma.vmStart ∨ remapFails = true then requests period ops
      else ⟨period, vma.vmPgoff, vma.pages, vma.pages_pos⟩ :: requests period ops

private theorem usmMmap_eq (paddr : BitVec 64) (indext : BitVec 64) (vma : Vma)
    (remapFails : Bool) :
    usmMmap paddr ⟨0, indext, 0⟩ vma remapFails =
      if usmMemSize < vma.vmEnd - vma.vmStart then .error (-12)
      else if remapFails then .error (-1)
      else .ok (⟨0, indext + (vma.vmEnd - vma.vmStart), 0⟩, (paddr >>> 12) + vma.vmPgoff) := by
  unfold usmMmap
  simp only [BitVec.add_zero, BitVec.zero_add, BitVec.ofNat_eq_ofNat, BitVec.zero_udiv]

private theorem mapped_run (paddr : BitVec 64) (ops : List PoolOp) (indext : BitVec 64)
    (releases : Nat) (mapped : List PoolMapping) :
    (PoolDevice.run paddr ⟨⟨0, indext, 0⟩, releases, mapped⟩ ops).mapped =
      mapped ++ (requests releases ops).map (PoolRequest.mapping paddr) := by
  induction ops generalizing indext releases mapped with
  | nil => simp [PoolDevice.run, requests]
  | cons op ops ih =>
      cases op with
      | release => exact ih indext (releases + 1) mapped
      | mmap vma remapFails =>
          have hcall := usmMmap_eq paddr indext vma remapFails
          rw [PoolDevice.run, List.foldl_cons, ← PoolDevice.run, PoolDevice.step]
          by_cases hlong : usmMemSize < vma.vmEnd - vma.vmStart
          · rw [if_pos hlong] at hcall
            simp only [hcall, requests, hlong, true_or, if_true]
            exact ih indext releases mapped
          · rw [if_neg hlong] at hcall
            cases remapFails with
            | true =>
                simp only [hcall, requests, if_true, or_true]
                exact ih indext releases mapped
            | false =>
                simp only [hcall, requests, hlong, Bool.false_eq_true, if_false, or_self]
                rw [ih, List.map_cons, List.append_assoc]
                rfl

namespace PoolRequest

def Fits (request : PoolRequest) : Prop := request.vmPgoff.toNat + request.pages ≤ poolPages

def Apart (request later : PoolRequest) : Prop :=
  request.vmPgoff.toNat + request.pages ≤ later.vmPgoff.toNat ∨
    later.vmPgoff.toNat + later.pages ≤ request.vmPgoff.toNat

instance (request : PoolRequest) : Decidable request.Fits :=
  inferInstanceAs (Decidable (_ ≤ _))

instance (request later : PoolRequest) : Decidable (request.Apart later) :=
  inferInstanceAs (Decidable (_ ∨ _))

variable {request later : PoolRequest} {paddr : BitVec 64}

private theorem inPool_frame (k : Nat) :
    InPool paddr ((request.mapping paddr).frame k) ↔
      (request.vmPgoff.toNat + k) % 2 ^ 64 < poolPages := by
  have hframe : (request.mapping paddr).frame k - (paddr >>> 12) =
      request.vmPgoff + BitVec.ofNat 64 k := by
    rw [PoolMapping.frame, mapping, add_assoc, add_sub_cancel_left]
  rw [InPool, hframe, BitVec.toNat_add, BitVec.toNat_ofNat, Nat.add_mod_mod]

private theorem fits_iff :
    (∀ k < request.pages, InPool paddr ((request.mapping paddr).frame k)) ↔ request.Fits := by
  have hpos := request.pos
  have hpool : poolPages = 131072 := rfl
  have hpgoff := request.vmPgoff.isLt
  simp only [inPool_frame, Fits]
  constructor
  · intro hframes
    have hfirst := hframes 0 hpos
    by_contra hout
    -- the frame right behind the pool is among those of the request
    have hbehind := hframes (poolPages - request.vmPgoff.toNat) (by omega)
    omega
  · intro hfits k hk
    omega

private theorem apart_iff (hfits : request.Fits) (hlater : later.Fits) :
    (∀ k < request.pages, ∀ k' < later.pages,
        (request.mapping paddr).frame k ≠ (later.mapping paddr).frame k') ↔
      request.Apart later := by
  have hpool : poolPages = 131072 := rfl
  rw [Fits, hpool] at hfits hlater
  have hframe : ∀ k < request.pages, ∀ k' < later.pages,
      (request.mapping paddr).frame k = (later.mapping paddr).frame k' ↔
        request.vmPgoff.toNat + k = later.vmPgoff.toNat + k' := by
    intro k hk k' hk'
    rw [PoolMapping.frame, PoolMapping.frame, mapping, mapping, add_assoc, add_assoc,
      add_right_inj, ← BitVec.toNat_inj, BitVec.toNat_add, BitVec.toNat_add,
      BitVec.toNat_ofNat, BitVec.toNat_ofNat]
    omega
  have hpos := request.pos
  have hpos' := later.pos
  constructor
  · intro hne
    by_contra hoverlap
    rw [Apart] at hoverlap
    -- the first frame of the request that starts later is in both
    by_cases horder : request.vmPgoff.toNat ≤ later.vmPgoff.toNat
    · have hk : later.vmPgoff.toNat - request.vmPgoff.toNat < request.pages := by omega
      exact hne _ hk 0 hpos' ((hframe _ hk 0 hpos').2 (by omega))
    · have hk' : request.vmPgoff.toNat - later.vmPgoff.toNat < later.pages := by omega
      exact hne 0 hpos _ hk' ((hframe 0 hpos _ hk').2 (by omega))
  · intro hapart k hk k' hk' heq
    have hsame := (hframe k hk k' hk').1 heq
    rcases hapart with h | h <;> omega

end PoolRequest

structure CallersAgree (asked : List PoolRequest) : Prop where
  fits : ∀ request ∈ asked, request.Fits
  apart : asked.Pairwise fun request later =>
    request.period = later.period → request.Apart later

/-- The pool is handed out safely exactly when the page offsets that the callers choose
make it so. -/
theorem handsOutSafely_iff (paddr : BitVec 64) (ops : List PoolOp) :
    HandsOutSafely paddr (PoolDevice.run paddr .initial ops).mapped ↔
      CallersAgree (requests 0 ops) := by
  have hmapped := mapped_run paddr ops 0 0 []
  rw [PoolDevice.initial, hmapped, List.nil_append]
  generalize requests 0 ops = asked
  constructor
  · rintro ⟨hinside, hapart⟩
    have hfits : ∀ request ∈ asked, request.Fits := fun request hrequest =>
      PoolRequest.fits_iff.1 (hinside _ (List.mem_map_of_mem hrequest))
    refine ⟨hfits, ?_⟩
    rw [List.pairwise_map] at hapart
    refine hapart.imp_of_mem fun {request later} hrequest hlater h hperiod => ?_
    exact (PoolRequest.apart_iff (hfits request hrequest) (hfits later hlater)).1 (h hperiod)
  · rintro ⟨hfits, hapart⟩
    constructor
    · intro mapping hmapping
      obtain ⟨request, hrequest, rfl⟩ := List.mem_map.1 hmapping
      exact PoolRequest.fits_iff.2 (hfits request hrequest)
    · rw [List.pairwise_map]
      refine hapart.imp_of_mem fun {request later} hrequest hlater h hperiod => ?_
      exact (PoolRequest.apart_iff (hfits request hrequest) (hfits later hlater)).2 (h hperiod)

def onePage (pgoff : BitVec 64) : Vma := ⟨0x1000, 0x2000, pgoff, by decide, by decide⟩

theorem onePage_shared :
    let s := PoolDevice.run 0x40000000 .initial
      [.mmap (onePage 0) false, .mmap (onePage 0) false, .mmap (onePage 131072) false]
    s.mapped = [⟨0, 0x40000, 1⟩, ⟨0, 0x40000, 1⟩, ⟨0, 0x60000, 1⟩] ∧
      ¬ InPool 0x40000000 0x60000 ∧ ¬ HandsOutSafely 0x40000000 s.mapped := by
  refine ⟨by decide, by decide, fun hsafe => ?_⟩
  have hfirst := List.pairwise_cons.1 hsafe.apart
  exact hfirst.1 ⟨0, 0x40000, 1⟩ (by decide) rfl 0 (by decide) 0 (by decide) rfl

end UserPaging.Usm
