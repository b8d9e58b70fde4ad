import UserPaging.Linux.UintrCalls

/-!
# Tables and address spaces

The calls of senders, and what happens to the tables when tasks and address
spaces come and go.  A table that loses its last reference gives up the UPIDs that
its entries hold, one after the other, before it is freed.
-/

namespace UserPaging.Linux.Uintr

open UserPaging.Foundation

variable {s : State}

private theorem UittCtx.wf_alloc : UittCtx.Wf { refs := 1 } :=
  ⟨fun i => by simp, fun i => by simp⟩

private theorem setTable_setTable (w : Table) (x y : Option UittCtx) :
    (s.setTable w x).setTable w y = s.setTable w y := by
  simp [State.setTable, Function.update_idem]

namespace Lives

variable {w : Table} {tab tab' : UittCtx}

private theorem wf_setTable (hlives : Lives s) (htab' : tab'.Wf) :
    ∀ v c, Function.update s.uitts w (some tab') v = some c → c.Wf := by
  intro v c hc
  by_cases hv : v = w
  · subst hv
    simp only [Function.update_self, Option.some.injEq] at hc
    exact hc ▸ htab'
  · exact hlives.wf v c (by simpa [hv] using hc)

private theorem tableHeld_setTable (hlives : Lives s) (hpos : 0 < tab'.refs) :
    ∀ v c, Function.update s.uitts w (some tab') v = some c → 0 < c.refs := by
  intro v c hc
  by_cases hv : v = w
  · subst hv
    simp only [Function.update_self, Option.some.injEq] at hc
    exact hc ▸ hpos
  · exact hlives.tableHeld v c (by simpa [hv] using hc)

end Lives

namespace Inv

variable {u : Addr} {c : UpidCtx} {t : Task} {th : Thread} {m : Mm} {mm : MmStruct} {w : Table}
  {tab : UittCtx}

private theorem init_table (hinv : Inv s) (hm : s.mms m = some mm) (hnone : mm.uittCtx = none)
    (hw : s.uitts w = none) :
    Inv ((s.setTable w (some { refs := 1 })).setMm m (some { mm with uittCtx := some w })) where
  upids := by
    rw [State.holder_setMm, State.holder_setTable_same (by simp [hw, UittCtx.target])]
    exact hinv.upids
  tables := by
    rw [State.tableHolder_setMm]
    exact hinv.tables.alloc (by simp [State.tableHolder, hm, hnone]) hw rfl
  mms := hinv.mms.edit hm rfl
  threads := by
    intro t th ht
    refine (hinv.threads t th ht).congr (fun u c _ hu => ⟨c, hu, rfl⟩) fun w' mm' hm' hw' => ?_
    by_cases hth : th.mm = m
    · rw [hth, hm] at hm'
      cases hm'
      simp [hnone] at hw'
    · exact ⟨mm', by simpa [hth] using hm', hw'⟩
  wf := hinv.wf_setTable UittCtx.wf_alloc
  kernel := hinv.kernel
  upidHeld := hinv.upidHeld
  tableHeld := hinv.tableHeld_setTable Nat.one_pos
  wait := hinv.wait

/-- `uintr_init_sender` fails without effect, finds the table of the address space, or makes
one. -/
theorem uintrInitSender (hinv : Inv s) (ht : s.tasks t = some th) (mem : Option Table) :
    ∃ mm, s.mms th.mm = some mm ∧
      (mm.uittCtx = none ∧ s.kzallocUitt mem = none ∧
          s.uintrInitSender t mem = .ok (s, .error .ENOMEM) ∨
        ∃ s' w mm' tab, s.uintrInitSender t mem = .ok (s', .ok w) ∧ Inv s' ∧
          s'.upids = s.upids ∧ s'.tasks = s.tasks ∧ s'.mms th.mm = some mm' ∧
          mm'.uittCtx = some w ∧ s'.uitts w = some tab ∧
          (s' = s ∨ mm.uittCtx = none ∧ tab.uittMask = 0)) := by
  obtain ⟨mm, hm⟩ := hinv.mm_of_task ht
  refine ⟨mm, hm, ?_⟩
  simp only [State.uintrInitSender, State.thread_eq ht, State.mm_eq hm, ok_bind]
  cases hw : mm.uittCtx with
  | some w =>
      obtain ⟨tab, htab⟩ := hinv.table_of_mm hm hw
      exact .inr ⟨s, w, mm, tab, rfl, hinv, rfl, rfl, hm, hw, htab, .inl rfl⟩
  | none =>
      cases hmem : s.kzallocUitt mem with
      | none => exact .inl ⟨rfl, rfl, rfl⟩
      | some w =>
          simp only [State.kzallocUitt, Option.filter_eq_some_iff,
            Option.isNone_iff_eq_none] at hmem
          exact .inr ⟨_, w, _, _, rfl, hinv.init_table hm hw hmem.2, rfl, rfl,
            Function.update_self _ _ _, rfl, Function.update_self _ _ _, .inr ⟨rfl, rfl⟩⟩

end Inv

/-! ### Entries -/

namespace UittCtx

variable {tab : UittCtx} {i j uvec : Nat} {u : Addr}

private theorem target_program (hi : i < 256) : (tab.program i uvec u).target i = some u := by
  simp [target, program, getLsbD_setBit_self hi]

private theorem target_program_of_ne (hne : j ≠ i) :
    (tab.program i uvec u).target j = tab.target j := by
  simp [target, program, getLsbD_setBit_of_ne hne.symm, hne]

theorem Wf.program (hwf : tab.Wf) (hi : i < 256) : (tab.program i uvec u).Wf := by
  constructor
  · intro j
    by_cases hj : j = i
    · subst hj
      simp [UittCtx.program, getLsbD_setBit_self hi]
    · simp [UittCtx.program, hj, getLsbD_setBit_of_ne (Ne.symm hj), hwf.valid j]
  · intro j hbit
    by_cases hj : j = i
    · subst hj
      simp [UittCtx.program]
    · have hold : tab.uittMask.getLsbD j = true := by
        simpa [UittCtx.program, getLsbD_setBit_of_ne (Ne.symm hj)] using hbit
      simpa [UittCtx.program, hj] using hwf.target j hold

private theorem target_erase : (tab.erase i).target i = none := by
  simp [target, erase, getLsbD_clearBit_self]

private theorem target_erase_of_ne (hne : j ≠ i) : (tab.erase i).target j = tab.target j := by
  simp [target, erase, getLsbD_clearBit_of_ne hne.symm]

theorem Wf.erase (hwf : tab.Wf) : (tab.erase i).Wf := by
  constructor
  · intro j
    by_cases hj : j = i
    · subst hj
      simp [UittCtx.erase, getLsbD_clearBit_self]
    · simp [UittCtx.erase, hj, getLsbD_clearBit_of_ne (Ne.symm hj), hwf.valid j]
  · intro j hbit
    obtain ⟨hold, hne⟩ := getLsbD_of_clearBit hbit
    simpa [UittCtx.erase, hne.symm] using hwf.target j hold

private theorem erase_markInvalid : (tab.markInvalid i).erase i = tab.erase i := by
  simp [UittCtx.erase, UittCtx.markInvalid, Function.update_idem]

end UittCtx

namespace Inv

variable {u : Addr} {c : UpidCtx} {t : Task} {th : Thread} {w : Table} {tab : UittCtx} {i : Nat}

private theorem use_entry (hinv : Inv s) (htab : s.uitts w = some tab) (hi : i < 256)
    (hfree : tab.uittMask.getLsbD i = false) (hu : s.upids u = some c) (uvec : Nat) :
    Inv ((s.setTable w (some (tab.program i uvec u))).setUpid u
      (some (c.setRefs (c.refs + 1)))) where
  upids := by
    rw [State.holder_setUpid, State.holder_setTable htab
      (fun j hj => UittCtx.target_program_of_ne hj), UittCtx.target_program hi]
    exact hinv.upids.get (by simp [State.holder, htab, UittCtx.target, hfree]) hu rfl
  tables := hinv.tables.edit htab rfl
  mms := hinv.mms
  threads := fun _ _ ht => hinv.threads_setUpid hu (Lives.get_kept c) ht
  wf := hinv.wf_setTable ((hinv.wf w tab htab).program hi)
  kernel := hinv.kernel_setUpid hu _
  upidHeld := hinv.upidHeld_setUpid hu (Lives.get_kept c)
  tableHeld := hinv.tableHeld_setTable (hinv.tableHeld w tab htab)
  wait := hinv.wait.edit hu rfl rfl rfl rfl

private theorem free_entry (hinv : Inv s) (htab : s.uitts w = some tab)
    (hbit : tab.uittMask.getLsbD i = true) (hu : s.upids (tab.rUpidCtx i) = some c) :
    Inv ((s.setUpid (tab.rUpidCtx i) c.put).setTable w (some (tab.erase i))) where
  upids := by
    rw [State.holder_setTable (s := s.setUpid _ _) htab
      (fun j hj => UittCtx.target_erase_of_ne hj), UittCtx.target_erase, State.holder_setUpid]
    exact hinv.put_upids hu (by simp [State.holder, htab, UittCtx.target, hbit])
  tables := hinv.tables.edit htab rfl
  mms := hinv.mms
  threads := fun _ _ ht => hinv.threads_setUpid hu (hinv.put_kept hu) ht
  wf := hinv.wf_setTable (hinv.wf w tab htab).erase
  kernel := hinv.kernel_setUpid hu _
  upidHeld := hinv.upidHeld_setUpid hu (hinv.put_kept hu)
  tableHeld := hinv.tableHeld_setTable (hinv.tableHeld w tab htab)
  wait := hinv.wait_put hu

theorem freeUittEntry (hinv : Inv s) (htab : s.uitts w = some tab)
    (hbit : tab.uittMask.getLsbD i = true) :
    ∃ c, s.upids (tab.rUpidCtx i) = some c ∧
      s.freeUittEntry w i =
        .ok ((s.setUpid (tab.rUpidCtx i) c.put).setTable w (some (tab.erase i))) := by
  have hi : i < 256 := by
    by_contra hge
    rw [BitVec.getLsbD_of_ge _ _ (by omega)] at hbit
    cases hbit
  obtain ⟨c, hu⟩ := hinv.upid_of_entry htab hbit
  refine ⟨c, hu, ?_⟩
  simp only [State.freeUittEntry, if_neg (Nat.not_le.2 (show i < uintrMaxUittNr from hi)),
    State.table_eq htab, ok_bind, putUpidRef_eq hu]
  rfl

end Inv

/-! ### Giving up a table -/

structure SameRest (s s' : State) : Prop where
  tasks : s'.tasks = s.tasks
  mms : s'.mms = s.mms
  uvecfds : s'.uvecfds = s.uvecfds
  uipifds : s'.uipifds = s.uipifds

private theorem SameRest.refl (s : State) : SameRest s s := ⟨rfl, rfl, rfl, rfl⟩

/-- The loop that frees the entries of a table clears them from below, so that one round for
each entry is enough. -/
private theorem freeAllUittEntries_spec {w : Table} {fuel below : Nat} (hbelow : below ≤ 256)
    (hfuel : 256 < below + fuel) {tab : UittCtx} (hinv : Inv s) (htab : s.uitts w = some tab)
    (hclear : ∀ i < below, tab.uittMask.getLsbD i = false) :
    ∃ s' tab', State.freeAllUittEntries w fuel s = .ok s' ∧ Inv s' ∧ SameRest s s' ∧
      s'.uitts w = some tab' ∧ tab'.refs = tab.refs ∧ tab'.uittMask = 0 := by
  induction fuel generalizing s tab below with
  | zero => omega
  | succ fuel ih =>
      simp only [State.freeAllUittEntries, State.table_eq htab, ok_bind]
      rcases findFirst_cases tab.uittMask true with ⟨hnone, hempty⟩ | ⟨hlt, hbit, hleast⟩
      · rw [if_pos (show findFirst tab.uittMask true = uintrMaxUittNr from hnone)]
        refine ⟨s, tab, rfl, hinv, .refl s, htab, rfl, ?_⟩
        apply BitVec.eq_of_getLsbD_eq
        intro i hi
        simpa using hempty i hi
      · rw [if_neg (show findFirst tab.uittMask true ≠ uintrMaxUittNr from Nat.ne_of_lt hlt)]
        obtain ⟨c, hu, hfree⟩ := hinv.freeUittEntry htab hbit
        simp only [hfree, ok_bind]
        have hge : below ≤ findFirst tab.uittMask true := by
          by_contra hsmall
          rw [hclear _ (by omega)] at hbit
          cases hbit
        have hclear' : ∀ i < findFirst tab.uittMask true + 1,
            (tab.erase (findFirst tab.uittMask true)).uittMask.getLsbD i = false := by
          intro i hi
          rw [UittCtx.erase, getLsbD_clearBit]
          rcases Nat.lt_succ_iff_lt_or_eq.1 hi with hi | hi
          · simp [hleast i hi]
          · simp [hi]
        obtain ⟨s', tab', hloop, hinv', hsame, htab', hrefs, hempty⟩ :=
          ih hlt (by omega) (hinv.free_entry htab hbit hu) (Function.update_self _ _ _) hclear'
        exact ⟨s', tab', hloop, hinv', ⟨hsame.tasks, hsame.mms, hsame.uvecfds, hsame.uipifds⟩,
          htab', hrefs, hempty⟩

private theorem putUittRef_spec {w : Table} {tab : UittCtx} (hinv : Inv s)
    (htab : s.uitts w = some tab) :
    ∃ s' tab', s.putUittRef w =
        .ok (s'.setTable w (if tab'.refs = 1 then none else some (tab'.setRefs (tab'.refs - 1)))) ∧
      Inv s' ∧ SameRest s s' ∧ s'.uitts w = some tab' ∧
      (tab'.refs = 1 → tab'.uittMask = 0) := by
  simp only [State.putUittRef, State.table_eq htab, ok_bind]
  split
  · next hone =>
      simp only [State.freeUitt, State.table_eq htab, ok_bind]
      split
      · next hempty =>
          exact ⟨s, tab, by rw [if_pos hone]; rfl, hinv, .refl s, htab, fun _ => hempty⟩
      · obtain ⟨s', tab', hloop, hinv', hsame, htab', hrefs, hempty⟩ :=
          freeAllUittEntries_spec (Nat.zero_le 256) (show 256 < 0 + (uintrMaxUittNr + 1) by decide)
            hinv htab (by simp)
        rw [hloop, ok_bind]
        exact ⟨s', tab', by rw [if_pos (hrefs.trans hone)]; rfl, hinv', hsame, htab',
          fun _ => hempty⟩
  · next hmany =>
      exact ⟨s, tab, by rw [if_neg hmany]; rfl, hinv, .refl s, htab, fun hone => absurd hone hmany⟩

section Drop

/- A table loses one reference. -/
variable {w : Table} {tab : UittCtx} (hlives : Lives s) (htab : s.uitts w = some tab)
include hlives htab

private theorem Lives.put_tables {h : TableHolder} (hheld : s.tableHolder h = some w) :
    Counted UittCtx.refs
      (Function.update s.uitts w
        (if tab.refs = 1 then none else some (tab.setRefs (tab.refs - 1))))
      (Function.update s.tableHolder h none) := by
  have hpos := hlives.tableHeld w tab htab
  exact hlives.tables.put hheld htab (show tab.refs = tab.refs - 1 + 1 by omega)

private theorem Lives.wf_put :
    ∀ v c, Function.update s.uitts w
      (if tab.refs = 1 then none else some (tab.setRefs (tab.refs - 1))) v = some c → c.Wf := by
  have hwf := hlives.wf w tab htab
  intro v c hc
  split at hc
  · exact hlives.wf v c (by
      by_cases hv : v = w
      · simp [hv] at hc
      · simpa [hv] using hc)
  · have hwf' : (tab.setRefs (tab.refs - 1)).Wf := ⟨hwf.valid, hwf.target⟩
    exact hlives.wf_setTable hwf' v c hc

private theorem Lives.tableHeld_put :
    ∀ v c, Function.update s.uitts w
      (if tab.refs = 1 then none else some (tab.setRefs (tab.refs - 1))) v = some c →
      0 < c.refs := by
  have hpos := hlives.tableHeld w tab htab
  intro v c hc
  split at hc
  · exact hlives.tableHeld v c (by
      by_cases hv : v = w
      · simp [hv] at hc
      · simpa [hv] using hc)
  · have hpos' : 0 < (tab.setRefs (tab.refs - 1)).refs := by
      simp only [UittCtx.setRefs_refs]
      omega
    exact hlives.tableHeld_setTable hpos' v c hc

omit hlives in
private theorem holder_put (hempty : tab.refs = 1 → tab.uittMask = 0) :
    (s.setTable w (if tab.refs = 1 then none else some (tab.setRefs (tab.refs - 1)))).holder =
      s.holder := by
  apply State.holder_setTable_same
  intro i
  split
  · next hone => simp [htab, UittCtx.target, hempty hone]
  · simp [htab, UittCtx.target]

end Drop

namespace Inv

variable {u : Addr} {c : UpidCtx} {t : Task} {th : Thread} {w : Table} {tab : UittCtx}

theorem uipifdRelease (hinv : Inv s) (f : File) : Keeps (s.uipifdRelease f) := by
  unfold State.uipifdRelease
  cases hf : s.uipifds f with
  | none => exact hinv.keeps
  | some w =>
      obtain ⟨tab, htab⟩ : ∃ tab, s.uitts w = some tab :=
        hinv.tables.live (.uipifd f) w hf
      obtain ⟨s', tab', hput, hinv', hsame, htab', hempty⟩ := putUittRef_spec hinv htab
      have hf' : s'.uipifds f = some w := by rw [hsame.uipifds, hf]
      simp only [hput, ok_bind]
      exact Inv.keeps {
        upids := by
          rw [State.holder_setUipifd, holder_put htab' hempty]
          exact hinv'.upids
        tables := by
          rw [State.tableHolder_setUipifd]
          exact hinv'.put_tables htab' hf'
        mms := hinv'.mms
        threads := hinv'.threads
        wf := hinv'.wf_put htab'
        kernel := hinv'.kernel
        upidHeld := hinv'.upidHeld
        tableHeld := hinv'.tableHeld_put htab'
        wait := hinv'.wait }

private theorem mm_ne_of_users (hinv : Inv s) {m : Mm} {mm : MmStruct} (hm : s.mms m = some mm)
    (husers : mm.users = 0) (ht : s.tasks t = some th) : th.mm ≠ m := by
  rintro rfl
  have hpos := hinv.mms.refs_pos (State.mmHolder_eq ht) hm
  omega

section Destroy

variable {m : Mm} {mm : MmStruct} (hinv : Inv s) (hm : s.mms m = some mm) (husers : mm.users = 0)
include hinv hm husers

private theorem threads_destroyed (ht : s.tasks t = some th) :
    ThreadOk s.upids (Function.update s.mms m none) t th := by
  have hne := hinv.mm_ne_of_users hm husers ht
  refine (hinv.threads t th ht).congr (fun u c _ hu => ⟨c, hu, rfl⟩) fun w mm' hm' hw => ?_
  exact ⟨mm', by simpa [hne] using hm', hw⟩

private theorem destroy_mm (hw : mm.uittCtx = none) : Inv (s.setMm m none) :=
  { hinv with
    upids := by
      rw [State.holder_setMm]
      exact hinv.upids
    tables := by
      have hnone : s.tableHolder (.mm m) = none := by simp [State.tableHolder, hm, hw]
      rw [State.tableHolder_setMm, Option.bind_none, ← hnone, Function.update_eq_self]
      exact hinv.tables
    mms := hinv.mms.remove hm husers
    threads := fun _ _ ht => hinv.threads_destroyed hm husers ht }

private theorem destroy_mm_table (hw : mm.uittCtx = some w) (htab : s.uitts w = some tab)
    (hempty : tab.refs = 1 → tab.uittMask = 0) :
    Inv ((s.setTable w (if tab.refs = 1 then none else some (tab.setRefs (tab.refs - 1)))).setMm m
      none) where
  upids := by
    rw [State.holder_setMm, holder_put htab hempty]
    exact hinv.upids
  tables := by
    rw [State.tableHolder_setMm]
    exact hinv.put_tables htab (by simp [State.tableHolder, hm, hw])
  mms := hinv.mms.remove hm husers
  threads := fun _ _ ht => hinv.threads_destroyed hm husers ht
  wf := hinv.wf_put htab
  kernel := hinv.kernel
  upidHeld := hinv.upidHeld
  tableHeld := hinv.tableHeld_put htab
  wait := hinv.wait

end Destroy

private theorem setMm_setMm (m : Mm) (x y : Option MmStruct) :
    (s.setMm m x).setMm m y = s.setMm m y := by
  simp [State.setMm, Function.update_idem]

theorem destroyContext (hinv : Inv s) (m : Mm) : Keeps (s.destroyContext m) := by
  unfold State.destroyContext
  cases hm : s.mms m with
  | none => exact hinv.keeps
  | some mm =>
      simp only
      split
      · next husers =>
          simp only [State.uintrDestroyUittCtx, State.mm_eq hm, ok_bind]
          cases hw : mm.uittCtx with
          | none => exact Inv.keeps (hinv.destroy_mm hm husers hw)
          | some w =>
              obtain ⟨tab, htab⟩ := hinv.table_of_mm hm hw
              obtain ⟨s', tab', hput, hinv', hsame, htab', hempty⟩ := putUittRef_spec hinv htab
              have hm' : s'.mms m = some mm := by rw [hsame.mms, hm]
              have hfinal := hinv'.destroy_mm_table hm' husers hw htab' hempty
              simp only [hput, ok_bind, pure_eq, setMm_setMm]
              exact hfinal.keeps
      · exact hinv.keeps

/-! ### Sharing a table -/

private theorem share_table (hinv : Inv s) {m : Mm} {mm : MmStruct} (hm : s.mms m = some mm)
    (hnone : mm.uittCtx = none) (htab : s.uitts w = some tab) :
    Inv ((s.setTable w (some (tab.setRefs (tab.refs + 1)))).setMm m
      (some { mm with uittCtx := some w })) where
  upids := by
    rw [State.holder_setMm, State.holder_setTable_same (by simp [htab, UittCtx.target])]
    exact hinv.upids
  tables := by
    rw [State.tableHolder_setMm]
    exact hinv.tables.get (by simp [State.tableHolder, hm, hnone]) htab rfl
  mms := hinv.mms.edit hm rfl
  threads := by
    intro t th ht
    refine (hinv.threads t th ht).congr (fun u c _ hu => ⟨c, hu, rfl⟩) fun w' mm' hm' hw' => ?_
    by_cases hth : th.mm = m
    · rw [hth, hm] at hm'
      cases hm'
      simp [hnone] at hw'
    · exact ⟨mm', by simpa [hth] using hm', hw'⟩
  wf := hinv.wf_setTable ⟨(hinv.wf w tab htab).valid, (hinv.wf w tab htab).target⟩
  kernel := hinv.kernel
  upidHeld := hinv.upidHeld
  tableHeld := hinv.tableHeld_setTable (Nat.succ_pos _)
  wait := hinv.wait

private theorem open_uipifd (hinv : Inv s) {f : File} (hf : s.uipifds f = none)
    (htab : s.uitts w = some tab) :
    Inv ((s.setTable w (some (tab.setRefs (tab.refs + 1)))).setUipifd f (some w)) where
  upids := by
    rw [State.holder_setUipifd, State.holder_setTable_same (by simp [htab, UittCtx.target])]
    exact hinv.upids
  tables := by
    rw [State.tableHolder_setUipifd]
    exact hinv.tables.get (show s.tableHolder (.uipifd f) = none from hf) htab rfl
  mms := hinv.mms
  threads := hinv.threads
  wf := hinv.wf_setTable ⟨(hinv.wf w tab htab).valid, (hinv.wf w tab htab).target⟩
  kernel := hinv.kernel
  upidHeld := hinv.upidHeld
  tableHeld := hinv.tableHeld_setTable (Nat.succ_pos _)
  wait := hinv.wait

private theorem getUittRef_eq (htab : s.uitts w = some tab) :
    s.getUittRef w = .ok (s.setTable w (some (tab.setRefs (tab.refs + 1)))) := by
  simp only [State.getUittRef, State.table_eq htab, ok_bind]
  rfl

private theorem putUittRef_get (htab : s.uitts w = some tab) (hpos : 0 < tab.refs) :
    (s.setTable w (some (tab.setRefs (tab.refs + 1)))).putUittRef w = .ok s := by
  have hmany : (tab.setRefs (tab.refs + 1)).refs ≠ 1 := by
    simp only [UittCtx.setRefs_refs]
    omega
  simp only [State.putUittRef, State.table_setTable, ok_bind, if_neg hmany, setTable_setTable,
    pure_eq]
  congr 1
  simp [State.setTable, UittCtx.setRefs, ← htab]

theorem uintrIpiFd (hinv : Inv s) (ht : s.tasks t = some th) (flags : BitVec 32)
    (mem : Option Table) (file : Option File) :
    Keeps ((s.uintrIpiFd t flags mem file).map Prod.fst) := by
  unfold State.uintrIpiFd
  split
  · exact hinv.keeps
  · obtain ⟨mm, -, ⟨-, -, hcall⟩ | ⟨s', w, mm', tab, hcall, hinv', -, -, -, -, htab, -⟩⟩ :=
      hinv.uintrInitSender ht mem
    · rw [hcall]
      exact hinv.keeps
    · rw [hcall, ok_bind]
      simp only [getUittRef_eq htab, ok_bind]
      cases hfile : State.anonInodeGetfd _ file with
      | some f =>
          have hf : s'.uipifds f = none := (fresh_file hfile).2
          exact Inv.keeps (hinv'.open_uipifd hf htab)
      | none =>
          simp only [putUittRef_get htab (hinv'.tableHeld w tab htab), ok_bind]
          exact hinv'.keeps

theorem uipifdIoctl (hinv : Inv s) (ht : s.tasks t = some th) (hrunning : th.running = true)
    (f : File) (setTargetTable : Bool) :
    Keeps ((s.uipifdIoctl t f setTargetTable).map Prod.fst) := by
  unfold State.uipifdIoctl
  cases hf : s.uipifds f with
  | none => exact hinv.keeps
  | some w =>
      simp only
      split
      · exact hinv.keeps
      · obtain ⟨mm, hm⟩ := hinv.mm_of_task ht
        obtain ⟨tab, htab⟩ : ∃ tab, s.uitts w = some tab := hinv.tables.live (.uipifd f) w hf
        simp only [State.thread_eq ht, State.mm_eq hm, ok_bind]
        split
        · exact hinv.keeps
        · next hnone =>
            have hinv' := hinv.share_table hm (by simpa using hnone) htab
            have hm' := Function.update_self th.mm (some { mm with uittCtx := some w }) s.mms
            simp only [getUittRef_eq htab, ok_bind]
            rw [uintrSetSenderMsrs_eq (s := (s.setTable w _).setMm th.mm _) ht hm' rfl]
            exact (hinv'.set_sender_msrs ht hrunning hm' rfl).keeps

/-! ### Connecting a sender -/

end Inv

/-- Why no sender can be connected: the receiver is gone, there is no memory for a table, or the
table is full. -/
def State.Refuses (s : State) (th : Thread) (mem : Option Table) (receiverActive : Bool) : Prop :=
  receiverActive = false ∨ ∃ mm, s.mms th.mm = some mm ∧
    (mm.uittCtx = none ∧ s.kzallocUitt mem = none ∨
      ∃ w tab, mm.uittCtx = some w ∧ s.uitts w = some tab ∧
        findFirst tab.uittMask false = uintrMaxUittNr)

/-- The state after entry `i` of the table `w` has been given to the UPID `u`. -/
def State.connected (s : State) (t : Task) (th : Thread) (w : Table) (tab : UittCtx) (i uvec : Nat)
    (u : Addr) (c : UpidCtx) : State :=
  ((s.setTable w (some (tab.program i uvec u))).setUpid u (some (c.setRefs (c.refs + 1)))).setTask t
    (some { th with uintrTt := some w, uittActivated := true })

theorem State.Refuses.call {t : Task} {th : Thread} {mem : Option Table} {u : Addr} {c : UpidCtx}
    (ht : s.tasks t = some th) (hu : s.upids u = some c)
    (hrefuses : s.Refuses th mem c.receiverActive) (uvec : Nat) :
    ∃ errno, s.doUintrRegisterSender t uvec u mem = .ok (s, .error errno) := by
  simp only [State.doUintrRegisterSender, State.upid_eq hu, ok_bind]
  rcases hrefuses with hgone | ⟨mm, hm, ⟨hnone, hmem⟩ | ⟨w, tab, hw, htab, hfull⟩⟩
  · exact ⟨.ESHUTDOWN, by simp [hgone, pure_eq]⟩
  · cases hactive : c.receiverActive with
    | false => exact ⟨.ESHUTDOWN, rfl⟩
    | true =>
        refine ⟨.ENOMEM, ?_⟩
        simp only [State.uintrInitSender, State.thread_eq ht, State.mm_eq hm, hnone, hmem, ok_bind,
          pure_eq]
        rfl
  · cases hactive : c.receiverActive with
    | false => exact ⟨.ESHUTDOWN, rfl⟩
    | true =>
        refine ⟨.ENOSPC, ?_⟩
        simp only [State.uintrInitSender, State.thread_eq ht, State.mm_eq hm, hw, ok_bind, pure_eq,
          State.table_eq htab, hfull, Nat.le_refl, if_true]
        rfl

namespace Inv

variable {u : Addr} {c : UpidCtx} {t : Task} {th : Thread} {w : Table} {tab : UittCtx}

theorem doUintrRegisterSender_cases (hinv : Inv s) (ht : s.tasks t = some th)
    (hrunning : th.running = true) (hu : s.upids u = some c) (uvec : Nat) (mem : Option Table) :
    s.Refuses th mem c.receiverActive ∨
      ∃ s' mm w tab i, s'.upids = s.upids ∧ s'.tasks = s.tasks ∧ s'.mms th.mm = some mm ∧
        mm.uittCtx = some w ∧ s'.uitts w = some tab ∧ i < 256 ∧ tab.uittMask.getLsbD i = false ∧
        (s' = s ∨ ∃ mm, s.mms th.mm = some mm ∧ mm.uittCtx = none) ∧
        s.doUintrRegisterSender t uvec u mem =
          .ok (s'.connected t th w tab i uvec u c, .ok i) ∧
        Inv (s'.connected t th w tab i uvec u c) := by
  cases hactive : c.receiverActive with
  | false => exact .inl (.inl rfl)
  | true =>
      obtain ⟨mm, hm, ⟨hnone, hmem, -⟩ |
        ⟨s', w, mm', tab, hinit, hinv', hupids, htasks, hm', hw, htab, hsame⟩⟩ :=
        hinv.uintrInitSender ht mem
      · exact .inl (.inr ⟨mm, hm, .inl ⟨hnone, hmem⟩⟩)
      rcases findFirst_cases tab.uittMask false with ⟨hfull, hall⟩ | ⟨hlt, hfree, -⟩
      · rcases hsame with rfl | ⟨-, hempty⟩
        · exact .inl (.inr ⟨mm', hm', .inr ⟨w, tab, hw, htab, hfull⟩⟩)
        · exact absurd (by simp [hempty]) (hall 0 (by decide))
      · have hu' : s'.upids u = some c := by rw [hupids, hu]
        have ht' : s'.tasks t = some th := by rw [htasks, ht]
        have hused := hinv'.use_entry htab hlt hfree hu' uvec
        refine .inr ⟨s', mm', w, tab, findFirst tab.uittMask false, hupids, htasks, hm', hw, htab,
          hlt, hfree, ?_, ?_, hused.set_sender_msrs ht' hrunning hm' hw⟩
        · exact hsame.imp_right fun hnew => ⟨mm, hm, hnew.1⟩
        · simp only [State.doUintrRegisterSender, State.upid_eq hu, hactive, hinit, ok_bind,
            State.table_eq htab, getUpidRef_eq (s := s'.setTable w _) hu', State.thread_setUpid,
            State.thread_setTable, State.thread_eq ht',
            if_neg (show ¬uintrMaxUittNr ≤ findFirst tab.uittMask false from Nat.not_le.2 hlt)]
          have hset := hused.sender_msrs_set ht' hm' hw
          split at hset
          · next hset' =>
              rw [if_pos hset', hset]
              rfl
          · next hset' =>
              rw [if_neg hset', hset]
              rfl

theorem doUintrRegisterSender (hinv : Inv s) (ht : s.tasks t = some th)
    (hrunning : th.running = true) (hu : s.upids u = some c) (uvec : Nat) (mem : Option Table) :
    ∃ s' ret, s.doUintrRegisterSender t uvec u mem = .ok (s', ret) ∧ Inv s' := by
  rcases hinv.doUintrRegisterSender_cases ht hrunning hu uvec mem with
    hrefuses | ⟨s', mm, w, tab, i, -, -, -, -, -, -, -, -, hcall, hinv'⟩
  · obtain ⟨errno, hcall⟩ := hrefuses.call ht hu uvec
    exact ⟨s, _, hcall, hinv⟩
  · exact ⟨_, _, hcall, hinv'⟩

theorem uintrRegisterSender (hinv : Inv s) (ht : s.tasks t = some th)
    (hrunning : th.running = true) (f : File) (flags : BitVec 32) (mem : Option Table) :
    Keeps ((s.uintrRegisterSender t f flags mem).map Prod.fst) := by
  unfold State.uintrRegisterSender
  split
  · exact hinv.keeps
  · cases hf : s.uvecfds f with
    | none =>
        simp only
        split <;> exact hinv.keeps
    | some ctx =>
        obtain ⟨c, hu⟩ : ∃ c, s.upids ctx.upidCtx = some c :=
          hinv.live (show s.holder (.uvecfd f) = some ctx.upidCtx by simp [State.holder, hf])
        obtain ⟨s', ret, hcall, hinv'⟩ :=
          hinv.doUintrRegisterSender ht hrunning hu ctx.uvec mem
        simp only [hcall]
        exact hinv'.keeps

theorem uintrUnregisterSender (hinv : Inv s) (ht : s.tasks t = some th) {index : Nat}
    (hindex : index < uintrMaxUittNr) (flags : BitVec 32) :
    Keeps ((s.uintrUnregisterSender t index flags false).map Prod.fst) := by
  obtain ⟨mm, hm⟩ := hinv.mm_of_task ht
  unfold State.uintrUnregisterSender
  split
  · exact hinv.keeps
  · simp only [State.thread_eq ht, State.mm_eq hm, ok_bind]
    cases hw : mm.uittCtx with
    | none => exact hinv.keeps
    | some w =>
        obtain ⟨tab, htab⟩ := hinv.table_of_mm hm hw
        have hcheck : State.uintrCheckUitteValid tab index = .ok (tab.uittMask.getLsbD index) := by
          rw [State.uintrCheckUitteValid, if_pos hindex]
        simp only [State.doUintrUnregisterSender, State.table_eq htab, hcheck, ok_bind]
        cases hbit : tab.uittMask.getLsbD index with
        | false => exact hinv.keeps
        | true =>
            obtain ⟨c, hu⟩ := hinv.upid_of_entry htab hbit
            have hfree : (s.setTable w (some (tab.markInvalid index))).freeUittEntry w index =
                .ok ((s.setUpid (tab.rUpidCtx index) c.put).setTable w
                  (some (tab.erase index))) := by
              have hput := putUpidRef_eq (s := s.setTable w (some (tab.markInvalid index))) hu
              simp only [State.freeUittEntry, if_neg (Nat.not_le.2 hindex), State.table_setTable,
                ok_bind, show (tab.markInvalid index).rUpidCtx = tab.rUpidCtx from rfl, hput,
                UittCtx.erase_markInvalid]
              exact congrArg Except.ok (setTable_setTable (s := s.setUpid _ _) w _ _)
            simp only [Bool.not_true, Bool.false_eq_true, if_false, if_neg (Nat.not_le.2 hindex),
              hfree, ok_bind]
            exact Inv.keeps (hinv.free_entry htab hbit hu)

end Inv

/-- `uintr_register_self` has registered the vector and then fails to make the connection. -/
def State.SelfFails (s : State) (t : Task) (vector : Nat) (mem : Option Table) : Prop :=
  match s.doUintrRegisterVector t vector false with
  | .ok (s', .ok u) =>
      match s'.doUintrRegisterSender t vector u mem with
      | .ok (_, .error _) => True
      | _ => False
  | _ => False

namespace Inv

variable {u : Addr} {c : UpidCtx} {t : Task} {th : Thread} {m : Mm} {mm : MmStruct} {w : Table}
  {tab : UittCtx}

theorem uintrRegisterSelf (hinv : Inv s) (ht : s.tasks t = some th)
    (hrunning : th.running = true) (vector : Nat) (flags : BitVec 32) (mem : Option Table)
    (hworks : ¬s.SelfFails t vector mem) :
    Keeps ((s.uintrRegisterSelf t vector flags mem).map Prod.fst) := by
  unfold State.uintrRegisterSelf
  split
  · exact hinv.keeps
  · rcases hinv.doUintrRegisterVector ht vector false with
      ⟨errno, hcall⟩ | ⟨u, c, -, hset, hcall⟩
    · rw [hcall]
      exact hinv.keeps
    · rw [if_neg (by simp)] at hcall
      obtain ⟨s', ret, hsender, hfinal⟩ := hset.doUintrRegisterSender ht hrunning
        (Function.update_self _ _ _) vector mem
      cases ret with
      | ok entry =>
          simp only [hcall, hsender, ok_bind]
          exact hfinal.keeps
      | error errno => simp [State.SelfFails, hcall, hsender] at hworks

/-! ### Tasks -/

section Fork

variable {child : Task} (hchild : s.tasks child = none)
include hchild

omit hchild in
private theorem threadOk_new (upids : Addr → Option UpidCtx) (mms : Mm → Option MmStruct) (m : Mm) :
    ThreadOk upids mms child { mm := m } :=
  ⟨by simp, by simp, rfl, by simp, rfl⟩

private theorem holder_new (m : Mm) : (s.setTask child (some { mm := m })).holder = s.holder := by
  have htask : s.holder (.task child) = none := by simp [State.holder, hchild]
  have hmsr : s.holder (.msr child) = none := by simp [State.holder, hchild]
  rw [State.holder_setTask, Option.bind_some, Option.bind_some, ← htask,
    Function.update_eq_self, htask, ← hmsr, Function.update_eq_self]

private theorem wait_new (hinv : Inv s) (th : Thread) :
    WaitOk s.upids (Function.update s.tasks child (some th)) s.waitList := by
  refine hinv.wait.setTask fun u c hu htask => ?_
  by_contra hwaiting
  obtain ⟨th', ht', -⟩ := hinv.wait.asleep u c hu (by simpa using hwaiting)
  rw [htask, hchild] at ht'
  cases ht'

private theorem mmHolder_new : s.mmHolder child = none := by simp [State.mmHolder, hchild]

private theorem newTask (hinv : Inv s) {mm : MmStruct} (htable : s.tableHolder (.mm m) = mm.uittCtx)
    (hmms : Counted MmStruct.users (Function.update s.mms m (some mm))
      (Function.update s.mmHolder child (some m))) :
    Inv ((s.setMm m (some mm)).setTask child (some { mm := m })) where
  upids := by
    rw [holder_new (s := s.setMm m _) hchild, State.holder_setMm]
    exact hinv.upids
  tables := by
    show Counted UittCtx.refs s.uitts (s.setMm m _).tableHolder
    rw [State.tableHolder_setMm, Option.bind_some, ← htable, Function.update_eq_self]
    exact hinv.tables
  mms := by
    rw [State.mmHolder_setTask]
    exact hmms
  threads := by
    intro t th ht
    by_cases hne : t = child
    · subst hne
      simp only [State.setTask_tasks, Function.update_self, Option.some.injEq] at ht
      exact ht ▸ threadOk_new _ _ m
    · have hold : s.tasks t = some th := by simpa [hne] using ht
      refine (hinv.threads t th hold).congr (fun u c _ hu => ⟨c, hu, rfl⟩) fun w mm' hm' hw => ?_
      by_cases hth : th.mm = m
      · have hsame : mm'.uittCtx = mm.uittCtx := by
          rw [← htable, State.tableHolder, ← hth, hm', Option.bind_some]
        exact ⟨mm, by simp [hth], hsame ▸ hw⟩
      · exact ⟨mm', by simpa [hth] using hm', hw⟩
  wf := hinv.wf
  kernel := hinv.kernel
  upidHeld := hinv.upidHeld
  tableHeld := hinv.tableHeld
  wait := wait_new hchild hinv _

private theorem clone_vm (hinv : Inv s) (hm : s.mms m = some mm) :
    Inv ((s.setMm m (some { mm with users := mm.users + 1 })).setTask child
      (some { mm := m })) :=
  newTask hchild hinv (by simp [State.tableHolder, hm])
    (hinv.mms.get (mmHolder_new hchild) hm rfl)

private theorem new_mm (hinv : Inv s) (hm : s.mms m = none) :
    Inv ((s.setMm m (some { users := 1 })).setTask child (some { mm := m })) :=
  newTask hchild hinv (by simp [State.tableHolder, hm])
    (hinv.mms.alloc (mmHolder_new hchild) hm rfl)

end Fork

theorem fork (hinv : Inv s) (ht : s.tasks t = some th) (child : Task) (copy : Option Mm) :
    Keeps (s.fork t child copy) := by
  obtain ⟨mm, hm⟩ := hinv.mm_of_task ht
  simp only [State.fork, State.thread_eq ht, State.mm_eq hm, ok_bind]
  cases hchild : s.tasks child with
  | some th' => exact hinv.keeps
  | none =>
      simp only [Option.isSome_none, Bool.false_eq_true, if_false]
      cases copy with
      | none => exact Inv.keeps (clone_vm hchild hinv hm)
      | some m =>
          cases hm' : s.mms m with
          | some mm' =>
              simp only [hm', Option.isSome_some, if_true]
              exact hinv.keeps
          | none =>
              have hnew := new_mm hchild hinv hm'
              simp only [hm', Option.isSome_none, Bool.false_eq_true, if_false]
              cases hw : mm.uittCtx with
              | none => exact hnew.keeps
              | some w =>
                  obtain ⟨tab, htab⟩ := hinv.table_of_mm hm hw
                  have hshared := hnew.share_table (Function.update_self _ _ _) rfl htab
                  simp only [getUittRef_eq htab, ok_bind, pure_eq]
                  convert hshared.keeps using 2
                  exact (setMm_setMm (s := (s.setTable w _).setTask child _) m _ _).symm

/-- What is left when `uintr_free` has run: the task and its MSR hold nothing any more. -/
structure Freed (s : State) (t : Task) (upids : Addr → Option UpidCtx) : Prop where
  counted : Counted UpidCtx.refs upids
    (Function.update (Function.update s.holder (.task t) none) (.msr t) none)
  kept : ∀ u d, upids u = some d → 0 < d.refs ∧ ∃ c, s.upids u = some c ∧ c.task = d.task
  wait : WaitOk upids (Function.update s.tasks t none) s.waitList

private theorem exit_task (hinv : Inv s) (ht : s.tasks t = some th) (hm : s.mms th.mm = some mm)
    {upids : Addr → Option UpidCtx} (hfreed : Freed s t upids) :
    Inv (({ s with upids := upids }.setMm th.mm
      (some { mm with users := mm.users - 1 })).setTask t none) where
  upids := by
    have hsame : (({ s with upids := upids } : State).setMm th.mm
        (some { mm with users := mm.users - 1 })).holder = s.holder := by
      funext h
      cases h <;> rfl
    rw [State.holder_setTask, hsame]
    exact hfreed.counted
  tables := by
    have hsame : s.tableHolder (.mm th.mm) = mm.uittCtx := by simp [State.tableHolder, hm]
    show Counted UittCtx.refs s.uitts (s.setMm th.mm _).tableHolder
    rw [State.tableHolder_setMm, Option.bind_some, ← hsame, Function.update_eq_self]
    exact hinv.tables
  mms := by
    have hpos := hinv.mms.refs_pos (State.mmHolder_eq ht) hm
    show Counted MmStruct.users (Function.update s.mms th.mm _) (s.setTask t none).mmHolder
    rw [State.mmHolder_setTask]
    exact hinv.mms.release (State.mmHolder_eq ht) hm (show mm.users = mm.users - 1 + 1 by omega)
  threads := by
    intro t' th' ht'
    have hne : t' ≠ t := by
      rintro rfl
      simp at ht'
    have hold : s.tasks t' = some th' := by simpa [hne] using ht'
    refine (hinv.threads t' th' hold).congr
      (fun u d _ hd => (hfreed.kept u d hd).2) fun w mm' hm' hw => ?_
    by_cases hth : th'.mm = th.mm
    · rw [hth, hm] at hm'
      cases hm'
      exact ⟨{ mm with users := mm.users - 1 }, by simp [hth], hw⟩
    · exact ⟨mm', by simpa [hth] using hm', hw⟩
  wf := hinv.wf
  kernel := by
    intro u d hd
    obtain ⟨-, c, hu, -⟩ := hfreed.kept u d hd
    exact hinv.kernel u c hu
  upidHeld := fun u d hd => (hfreed.kept u d hd).1
  tableHeld := hinv.tableHeld
  wait := hfreed.wait

private theorem kept_of_own (hinv : Inv s) {x : Option UpidCtx} (hu : s.upids u = some c)
    (hx : ∀ d, x = some d → d.task = c.task ∧ 0 < d.refs) :
    ∀ v d, Function.update s.upids u x v = some d →
      0 < d.refs ∧ ∃ c, s.upids v = some c ∧ c.task = d.task := by
  intro v d hd
  by_cases hv : v = u
  · subst hv
    obtain ⟨htask, hpos⟩ := hx d (by simpa using hd)
    exact ⟨hpos, c, hu, htask.symm⟩
  · have hd : s.upids v = some d := by simpa [hv] using hd
    exact ⟨hinv.upidHeld v d hd, d, hd, rfl⟩

section Free

variable (hinv : Inv s) (ht : s.tasks t = some th) (hrunning : th.running = true)
include hinv ht hrunning

private theorem freed_none (hctx : th.upidCtx = none) : Freed s t s.upids := by
  have hthread := hinv.threads t th ht
  have hinactive : ¬th.upidActivated = true := by
    intro hactive
    obtain ⟨u, hu⟩ := hthread.active hactive
    rw [hctx] at hu
    cases hu
  have htask : s.holder (.task t) = none := (State.holder_task ht).trans hctx
  have hmsr : s.holder (.msr t) = none := by
    rw [State.holder_msr ht, hthread.pd, if_neg hinactive]
  refine ⟨?_, fun u d hd => ⟨hinv.upidHeld u d hd, d, hd, rfl⟩,
    hinv.wait.setTask (hinv.wait.awake ht hrunning)⟩
  rw [← htask, Function.update_eq_self, htask, ← hmsr, Function.update_eq_self]
  exact hinv.upids

private theorem freed_inactive (hctx : th.upidCtx = some u) (hinactive : ¬th.upidActivated = true)
    (hu : s.upids u = some c) : Freed s t (Function.update s.upids u c.put) := by
  have hthread := hinv.threads t th ht
  have hmsr : Function.update s.holder (.task t) none (.msr t) = none := by
    rw [Function.update_of_ne (by simp), State.holder_msr ht, hthread.pd, if_neg hinactive]
  obtain ⟨hcalm, hfree⟩ := hinv.calm ht hrunning hu (hthread.owner u c hctx hu)
  refine ⟨?_, hinv.kept_of_own hu (hinv.put_kept hu),
    hinv.wait_own ht hrunning (fun d => hthread.owner u d hctx) ?_ none⟩
  · have hsame : Function.update (Function.update s.holder (.task t) none) (.msr t) none =
        Function.update s.holder (.task t) none := by
      rw [Function.update_eq_self_iff, hmsr]
    rw [hsame]
    exact hinv.put_upids hu ((State.holder_task ht).trans hctx)
  · intro d hd
    unfold UpidCtx.put at hd
    split at hd
    · cases hd
    · cases hd
      exact ⟨hcalm, hfree⟩

private theorem freed_active (hctx : th.upidCtx = some u) (hpd : th.uintrPd = some u)
    (hu : s.upids u = some c) (hrefs : 2 ≤ c.refs) :
    Freed s t (Function.update s.upids u
      ((c.setSn true).setInactive.setRefs (c.refs - 1)).put) := by
  have hthread := hinv.threads t th ht
  obtain ⟨hcalm, hfree⟩ := hinv.calm ht hrunning hu (hthread.owner u c hctx hu)
  have hlast : ∀ d, ((c.setSn true).setInactive.setRefs (c.refs - 1)).put = some d →
      d.waiting = false ∧ d.upid.blkd = false ∧ d.task = c.task ∧ 0 < d.refs := by
    intro d hd
    unfold UpidCtx.put at hd
    split at hd
    · cases hd
    · next hmany =>
        simp only [UpidCtx.setRefs_refs] at hmany
        cases hd
        exact ⟨hcalm, hfree, rfl, by simp only [UpidCtx.setRefs_refs]; omega⟩
  refine ⟨?_, hinv.kept_of_own hu fun d hd => (hlast d hd).2.2,
    hinv.wait_own ht hrunning (fun d => hthread.owner u d hctx)
      (fun d hd => ⟨(hlast d hd).1, (hlast d hd).2.1⟩) none⟩
  have hquiet := hinv.upids.edit hu
    (show (c.setSn true).setInactive.refs = c.refs from rfl)
  have hmsr := hquiet.release ((State.holder_msr ht).trans hpd) (Function.update_self _ _ _)
    (show (c.setSn true).setInactive.refs =
      ((c.setSn true).setInactive.setRefs (c.refs - 1)).refs + 1 by
        show c.refs = c.refs - 1 + 1
        omega)
  rw [Function.update_idem] at hmsr
  have htask : Function.update s.holder (.msr t) none (.task t) = some u := by
    rw [Function.update_of_ne (by simp), State.holder_task ht, hctx]
  have hput := hmsr.put htask (Function.update_self _ _ _)
    (show ((c.setSn true).setInactive.setRefs (c.refs - 1)).refs =
      ((c.setSn true).setInactive.setRefs (c.refs - 1 - 1)).refs + 1 by
        show c.refs - 1 = c.refs - 1 - 1 + 1
        omega)
  rw [Function.update_idem, Function.update_comm (by simp)] at hput
  exact hput

private theorem uintrClearMsrs_active (hctx : th.upidCtx = some u)
    (hactive : th.upidActivated = true)
    (hu : s.upids u = some c) (hrefs : 2 ≤ c.refs) :
    s.uintrClearMsrs t th =
      .ok ((s.setUpid u (some ((c.setSn true).setInactive.setRefs (c.refs - 1)))).setTask t
        (some { th with
          uintrPd := none, uintrTt := none, upidActivated := false, uittActivated := false })) := by
  have hthread := hinv.threads t th ht
  have hderef : State.deref th.upidCtx = .ok u := by rw [hctx, State.deref_some]
  have hremove : ∀ th', th'.running = true →
      ((s.setTask t (some th')).setUpid u (some (c.setSn true))).uintrRemoveTaskWait t =
        .ok ((s.setTask t (some th')).setUpid u (some (c.setSn true))) := by
    intro th' hrunning'
    obtain ⟨hcalm, hfree⟩ := hinv.calm ht hrunning hu (hthread.owner u c hctx hu)
    have hwait := hinv.wait_own ht hrunning (fun d => hthread.owner u d hctx)
      (show ∀ d, some (c.setSn true) = some d → d.waiting = false ∧ d.upid.blkd = false by
        rintro d ⟨⟩
        exact ⟨hcalm, hfree⟩) (some th')
    exact uintrRemoveTaskWait_awake (hwait.others (Function.update_self _ _ _) hrunning')
  simp only [State.uintrClearMsrs, hactive, Bool.true_or, if_true, hderef, ok_bind,
    State.upid_setTask, State.upid_eq hu, hremove, hrunning, State.upid_setUpid, setUpid_setUpid,
    putUpidRef_setUpid, put_of_two (show 2 ≤ (c.setSn true).setInactive.refs from hrefs), pure_eq]
  simp only [State.setTask, State.setUpid, Function.update_idem]
  rfl

omit hinv hrunning in
private theorem uintrClearMsrs_inactive (hinactive : th.upidActivated = false) :
    ∃ th', s.uintrClearMsrs t th = .ok (s.setTask t (some th')) := by
  have hself : s.setTask t (some th) = s := by simp [State.setTask, ← ht]
  cases hsender : th.uittActivated with
  | false => exact ⟨th, by simp [State.uintrClearMsrs, hinactive, hsender, hself, pure_eq]⟩
  | true =>
      refine ⟨{ th with
        uintrPd := none, uintrTt := none, upidActivated := false, uittActivated := false }, ?_⟩
      simp [State.uintrClearMsrs, hinactive, hsender, pure_eq, ok_bind, State.setTask,
        Function.update_idem]

theorem uintrFree : ∃ upids th', s.uintrFree t =
    .ok (({ s with upids := upids } : State).setTask t (some th')) ∧ Freed s t upids := by
  have hthread := hinv.threads t th ht
  simp only [State.uintrFree, State.thread_eq ht, ok_bind]
  cases hactive : th.upidActivated with
  | true =>
      obtain ⟨u, c, hctx, hpd, hu, -⟩ := hinv.active ht hactive
      have hrefs := hinv.refs_of_active ht hctx hpd hu
      rw [hinv.uintrClearMsrs_active ht hrunning hctx hactive hu hrefs, ok_bind, hctx]
      simp only [putUpidRef_setUpid_setTask]
      exact ⟨_, _, rfl, hinv.freed_active ht hrunning hctx hpd hu hrefs⟩
  | false =>
      obtain ⟨th', hclear⟩ := uintrClearMsrs_inactive ht hactive
      rw [hclear, ok_bind]
      cases hctx : th.upidCtx with
      | none => exact ⟨s.upids, th', rfl, hinv.freed_none ht hrunning hctx⟩
      | some u =>
          obtain ⟨c, hu⟩ := hinv.live ((State.holder_task ht).trans hctx)
          simp only [putUpidRef_eq (s := s.setTask t _) hu]
          exact ⟨_, th', rfl, hinv.freed_inactive ht hrunning hctx (by simp [hactive]) hu⟩

end Free

theorem exit (hinv : Inv s) (ht : s.tasks t = some th) (hrunning : th.running = true) :
    Keeps (s.exit t) := by
  obtain ⟨mm, hm⟩ := hinv.mm_of_task ht
  obtain ⟨upids, th', hfree, hfreed⟩ := hinv.uintrFree ht hrunning
  have hm' : (({ s with upids := upids } : State).setTask t (some th')).mms th.mm = some mm := hm
  simp only [State.exit, State.thread_eq ht, ok_bind, hfree, State.mm_eq hm', pure_eq]
  convert (hinv.exit_task ht hm hfreed).keeps using 2
  simp [State.setTask, State.setMm, Function.update_idem]

end Inv

end UserPaging.Linux.Uintr
