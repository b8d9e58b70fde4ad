import UserPaging.Linux.UintrSafety

/-!
# What the three calls can do

The hypotheses of a careful run cannot be dropped.  From any state that a careful
run reaches, a task that has one sender connection can make the kernel write behind
a table with one index, and a receiver that calls `uintr_register_self` often enough
makes it use its own UPID after it has been freed: the calls fill the table, every
call after that drops a reference, and in the end there is none.
-/

namespace UserPaging.Linux.Uintr

open UserPaging.Foundation

variable {s : State} {t : Task} {th : Thread}

private theorem State.onCpu_eq (ht : s.tasks t = some th) (hrunning : th.running = true)
    (call : Except Fault State) : s.onCpu t call = call := by
  have hcpu : s.isRunning t = true := by simp only [State.isRunning, ht, hrunning]
  rw [State.onCpu, if_pos hcpu]

/-! ### Indices -/

/-- The last bit of the pointer that entry `i` keeps, as an index into the mask. -/
def pointerBit (i : Nat) : Nat := uintrMaxUittNr + 64 * i + 63

namespace Inv

variable {mm : MmStruct} {w : Table} {tab : UittCtx} {i : Nat}

private theorem pointerBit_valid (hinv : Inv s) (htab : s.uitts w = some tab)
    (hbit : tab.uittMask.getLsbD i = true) :
    State.uintrCheckUitteValid tab (pointerBit i) = .ok true := by
  have hi : i < 256 := BitVec.lt_of_getLsbD hbit
  obtain ⟨c, hu⟩ := hinv.upid_of_entry htab hbit
  have hbase : (pointerBit i - uintrMaxUittNr) / 64 = i := by
    simp only [pointerBit, uintrMaxUittNr]
    omega
  have hoff : pointerBit i % 64 = 63 := by
    simp only [pointerBit, uintrMaxUittNr]
    omega
  rw [State.uintrCheckUitteValid, if_neg (by simp only [pointerBit]; omega),
    if_pos (by simp only [pointerBit, uintrMaxUittNr]; omega), hbase, hoff,
    hinv.kernel _ c hu]

private theorem pointerBit_ge (i : Nat) : uintrMaxUittNr ≤ pointerBit i := by
  simp only [pointerBit]
  omega

private theorem unregisterSender_outOfBounds (hinv : Inv s) (ht : s.tasks t = some th)
    (hm : s.mms th.mm = some mm) (hw : mm.uittCtx = some w) (htab : s.uitts w = some tab)
    (hbit : tab.uittMask.getLsbD i = true) (fput : Bool) :
    s.uintrUnregisterSender t (pointerBit i) 0 fput = .error .outOfBounds := by
  have hcall : s.doUintrUnregisterSender w (pointerBit i) = .error .outOfBounds := by
    simp only [State.doUintrUnregisterSender, State.table_eq htab, ok_bind,
      hinv.pointerBit_valid htab hbit]
    rw [if_neg (by simp), if_pos (pointerBit_ge i)]
  rw [State.uintrUnregisterSender, if_neg (by simp)]
  simp only [State.thread_eq ht, State.mm_eq hm, hw, ok_bind, hcall]
  rfl

private theorem senduipi_outOfBounds (hinv : Inv s) (ht : s.tasks t = some th)
    (hactive : th.uittActivated = true) (hm : s.mms th.mm = some mm) (hw : mm.uittCtx = some w)
    (htab : s.uitts w = some tab) (hbit : tab.uittMask.getLsbD i = true) :
    s.senduipi t (pointerBit i) = .error .outOfBounds := by
  have hi : i < 256 := BitVec.lt_of_getLsbD hbit
  have hsmall : pointerBit i < 2 ^ 32 := by
    simp only [pointerBit, uintrMaxUittNr]
    omega
  obtain ⟨w', htt⟩ := Option.isSome_iff_exists.1 ((hinv.threads t th ht).sender ▸ hactive)
  simp only [State.senduipi, State.thread_eq ht, htt, ok_bind]
  rw [if_pos (pointerBit_ge i)]
  simp only [State.fixupUintrGpException, State.thread_eq ht, State.mm_eq hm, hw,
    State.deref_some, State.table_eq htab, ok_bind, hactive, Nat.mod_eq_of_lt hsmall,
    hinv.pointerBit_valid htab hbit]
  rw [if_neg (by simp; omega), if_neg (by simp), if_pos (pointerBit_ge i)]

end Inv

/-- A task that has connected one sender in a careful run faults the kernel with one
`uintr_unregister_sender`, or with one `SENDUIPI`. -/
theorem index_outOfBounds {events : List Event} {mm : MmStruct} {w : Table} {tab : UittCtx}
    {i : Nat} (hcareful : State.boot.AllCareful events) (hrun : State.boot.run events = .ok s)
    (ht : s.tasks t = some th) (hrunning : th.running = true)
    (hm : s.mms th.mm = some mm) (hw : mm.uittCtx = some w) (htab : s.uitts w = some tab)
    (hbit : tab.uittMask.getLsbD i = true) :
    (∀ fput, s.step (.unregisterSender t (pointerBit i) 0 fput) = .error .outOfBounds) ∧
      (th.uittActivated = true → s.step (.senduipi t (pointerBit i)) = .error .outOfBounds) := by
  obtain ⟨s', hrun', hinv⟩ := Inv.boot.run hcareful
  obtain rfl : s = s' := Except.ok.inj (hrun.symm.trans hrun')
  constructor
  · intro fput
    rw [State.step, State.onCpu_eq ht hrunning,
      hinv.unregisterSender_outOfBounds ht hm hw htab hbit fput]
    rfl
  · intro hactive
    rw [State.step, State.onCpu_eq ht hrunning,
      hinv.senduipi_outOfBounds ht hactive hm hw htab hbit]

theorem index_outOfBounds_oneSender :
    (∀ fput, oneSenderState.step (.unregisterSender 0 319 0 fput) = .error .outOfBounds) ∧
      oneSenderState.step (.senduipi 0 319) = .error .outOfBounds := by
  obtain ⟨hunregister, hsend⟩ := index_outOfBounds (i := 0) oneSender_careful oneSender_run
    (rfl : oneSenderState.tasks 0 = some _) rfl rfl rfl rfl rfl
  exact ⟨hunregister, hsend rfl⟩

/-! ### `uintr_register_self` -/

def UpidCtx.registered (c : UpidCtx) (uvec : Nat) : UpidCtx :=
  { c with uvecMask := setBit c.uvecMask uvec }

structure State.Receives (s : State) (t : Task) (th : Thread) (u : Addr) : Prop where
  task : s.tasks t = some th
  running : th.running = true
  active : th.upidActivated = true
  ctx : th.upidCtx = some u

section RegisterSelf

variable {u : Addr} {c : UpidCtx} {vector : Nat} {mem : Option Table}

private theorem State.Receives.registerVector (hreceives : s.Receives t th u)
    (hu : s.upids u = some c)
    (hvector : vector < uintrMaxUvecNr) :
    s.doUintrRegisterVector t vector false =
      .ok (s.setUpid u (some (c.registered vector)), .ok u) := by
  simp only [State.doUintrRegisterVector, State.thread_eq hreceives.task, hreceives.active,
    hreceives.ctx, State.deref_some, State.upid_eq hu, ok_bind]
  rw [if_neg (by simp), if_neg (Nat.not_le.2 hvector)]
  rfl

private theorem State.Receives.step_refused (hreceives : s.Receives t th u)
    (hu : s.upids u = some c)
    (hvector : vector < uintrMaxUvecNr) (hrefuses : s.Refuses th mem c.receiverActive) :
    s.step (.registerSelf t vector 0 mem) = .ok (s.setUpid u (c.registered vector).put) := by
  have hset : (s.setUpid u (some (c.registered vector))).upids u = some (c.registered vector) :=
    Function.update_self _ _ _
  obtain ⟨errno, hcall⟩ := State.Refuses.call (s := s.setUpid u (some (c.registered vector)))
    hreceives.task hset hrefuses vector
  rw [State.step, State.onCpu_eq hreceives.task hreceives.running, State.uintrRegisterSelf,
    if_neg (by simp)]
  simp only [hreceives.registerVector hu hvector, hcall, State.doUintrUnregisterVector,
    putUpidRef_eq hset, setUpid_setUpid, ok_bind]
  rfl

private theorem State.Receives.step_freed (hreceives : s.Receives t th u) (hu : s.upids u = none)
    (hvector : vector < uintrMaxUvecNr) :
    s.step (.registerSelf t vector 0 mem) = .error .freed := by
  rw [State.step, State.onCpu_eq hreceives.task hreceives.running, State.uintrRegisterSelf,
    if_neg (by simp)]
  simp only [State.doUintrRegisterVector, State.thread_eq hreceives.task, hreceives.active,
    hreceives.ctx, State.deref_some, ok_bind, State.upid, hu]
  rw [if_neg (by simp), if_neg (Nat.not_le.2 hvector)]
  rfl

private theorem State.Receives.run_refused {n : Nat} (hreceives : s.Receives t th u)
    (hu : s.upids u = some c) (hrefs : c.refs = n + 1) (hvector : vector < uintrMaxUvecNr)
    (hrefuses : s.Refuses th mem c.receiverActive) :
    s.run (List.replicate (n + 2) (.registerSelf t vector 0 mem)) = .error .freed := by
  induction n generalizing s c with
  | zero =>
      have hput : (c.registered vector).put = none := if_pos hrefs
      have hgone : (s.setUpid u none).Receives t th u :=
        ⟨hreceives.task, hreceives.running, hreceives.active, hreceives.ctx⟩
      have hfreed : (s.setUpid u none).step (.registerSelf t vector 0 mem) = .error .freed :=
        hgone.step_freed (Function.update_self _ _ _) hvector
      simp only [List.replicate, State.run, hreceives.step_refused hu hvector hrefuses, hput,
        hfreed, ok_bind]
      rfl
  | succ n ih =>
      have hput : (c.registered vector).put = some ((c.registered vector).setRefs (n + 1)) := by
        have hmany : (c.registered vector).refs = n + 2 := hrefs
        rw [UpidCtx.put, if_neg (by omega), hmany]
        rfl
      rw [List.replicate_succ]
      simp only [State.run, hreceives.step_refused hu hvector hrefuses, hput, ok_bind]
      exact ih ⟨hreceives.task, hreceives.running, hreceives.active, hreceives.ctx⟩
        (Function.update_self _ _ _) rfl hrefuses

def State.room (s : State) (m : Mm) : Nat :=
  match s.tableHolder (.mm m) with
  | none => uintrMaxUittNr + 1
  | some w =>
      match s.uitts w with
      | none => 0
      | some tab => clearBits tab.uittMask

private theorem State.room_eq {mm : MmStruct} {w : Table} {tab : UittCtx}
    (hm : s.mms th.mm = some mm)
    (hw : mm.uittCtx = some w) (htab : s.uitts w = some tab) :
    s.room th.mm = clearBits tab.uittMask := by
  simp only [State.room, State.tableHolder, hm, hw, htab, Option.bind_some]

private theorem Inv.step_registerSelf (hinv : Inv s) (hreceives : s.Receives t th u)
    (hu : s.upids u = some c) (hvector : vector < uintrMaxUvecNr) (mem : Option Table) :
    s.Refuses th mem c.receiverActive ∨
      ∃ s' th', s.step (.registerSelf t vector 0 mem) = .ok s' ∧ Inv s' ∧ s'.Receives t th' u ∧
        th'.mm = th.mm ∧ s'.room th.mm < s.room th.mm := by
  have hset : Inv (s.setUpid u (some (c.registered vector))) :=
    ⟨hinv.edit hu rfl rfl, hinv.wait.edit hu rfl rfl rfl rfl⟩
  rcases hset.doUintrRegisterSender_cases hreceives.task hreceives.running
    (Function.update_self _ _ _) vector mem with
    hrefuses | ⟨s', mm, w, tab, i, hupids, htasks, hm, hw, htab, hi, hfree, hsame, hcall, hinv'⟩
  · exact .inl hrefuses
  refine .inr ⟨_, _, ?_, hinv', ⟨Function.update_self _ _ _, hreceives.running, hreceives.active,
    hreceives.ctx⟩, rfl, ?_⟩
  · rw [State.step, State.onCpu_eq hreceives.task hreceives.running, State.uintrRegisterSelf,
      if_neg (by simp)]
    simp only [hreceives.registerVector hu hvector, hcall, ok_bind]
    rfl
  · have hless : clearBits (tab.program i vector u).uittMask < clearBits tab.uittMask :=
      clearBits_setBit_lt hi hfree
    have hafter : (s'.connected t th w tab i vector u (c.registered vector)).room th.mm =
        clearBits (tab.program i vector u).uittMask :=
      State.room_eq hm hw (Function.update_self _ _ _)
    rw [hafter]
    rcases hsame with rfl | ⟨mm', hm', hnone⟩
    · have hbefore : s.room th.mm = clearBits tab.uittMask := State.room_eq hm hw htab
      rwa [hbefore]
    · have hbefore : s.room th.mm = uintrMaxUittNr + 1 := by
        have hm'' : s.mms th.mm = some mm' := hm'
        simp only [State.room, State.tableHolder, hm'', hnone, Option.bind_some]
      rw [hbefore]
      exact Nat.lt_succ_of_le (clearBits_le _)

private theorem Inv.run_registerSelf (hinv : Inv s) (hreceives : s.Receives t th u)
    (hvector : vector < uintrMaxUvecNr) (mem : Option Table) :
    ∃ n, s.run (List.replicate n (.registerSelf t vector 0 mem)) = .error .freed := by
  induction hroom : s.room th.mm using Nat.strong_induction_on generalizing s th with
  | _ room ih =>
      obtain ⟨u', c, hctx, -, hu, -⟩ := hinv.active hreceives.task hreceives.active
      obtain rfl : u = u' := Option.some.inj (hreceives.ctx.symm.trans hctx)
      rcases hinv.step_registerSelf hreceives hu hvector mem with
        hrefuses | ⟨s', th', hstep, hinv', hreceives', hmm, hless⟩
      · obtain ⟨n, hn⟩ := Nat.exists_eq_add_of_lt (hinv.upidHeld u c hu)
        exact ⟨n + 2, hreceives.run_refused hu (by omega) hvector hrefuses⟩
      · obtain ⟨n, hrun⟩ := ih _ (hroom ▸ hless) hinv' hreceives' (by rw [hmm])
        refine ⟨n + 1, ?_⟩
        rw [List.replicate_succ]
        simp only [State.run, hstep, ok_bind]
        exact hrun

end RegisterSelf

/-- In every state of a careful run, a receiver that repeats `uintr_register_self` makes the
kernel use its UPID after the UPID has been freed. -/
theorem registerSelf_frees {events : List Event} {u : Addr} {vector : Nat}
    (hcareful : State.boot.AllCareful events) (hrun : State.boot.run events = .ok s)
    (hreceives : s.Receives t th u) (hvector : vector < uintrMaxUvecNr) (mem : Option Table) :
    ∃ n, s.run (List.replicate n (.registerSelf t vector 0 mem)) = .error .freed := by
  obtain ⟨s', hrun', hinv⟩ := Inv.boot.run hcareful
  obtain rfl : s = s' := Except.ok.inj (hrun.symm.trans hrun')
  exact hinv.run_registerSelf hreceives hvector mem

theorem registerSelf_frees_oneSender :
    ∃ n, oneSenderState.run (List.replicate n (.registerSelf 0 5 0 none)) = .error .freed :=
  registerSelf_frees oneSender_careful oneSender_run
    ⟨(rfl : oneSenderState.tasks 0 = some _), rfl, rfl, rfl⟩ (by decide) none

end UserPaging.Linux.Uintr
