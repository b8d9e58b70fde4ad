import UserPaging.Linux.UintrTables

/-!
# Runs of the user interrupt calls

From boot, and in any order of the calls of any number of tasks, the kernel never
touches a UPID or a table that it has freed, and frees each with its last
reference.  Three things have to be excluded.  An index that is not below 256 is
tested against the memory behind the mask.  `uintr_unregister_sender` ends with an
`fdput` of a variable that it has not set.  And `uintr_register_self` drops a
reference that it has not taken when the connection fails, so that a task which
repeats the call loses its UPID while its MSR still points at it.
-/

namespace UserPaging.Linux.Uintr

open UserPaging.Foundation

variable {s : State}

namespace State

def Careful (s : State) : Event → Prop
  | .unregisterSender _ index _ fput => index < uintrMaxUittNr ∧ fput = false
  | .senduipi _ index => index < uintrMaxUittNr
  | .registerSelf t vector _ mem => ¬s.SelfFails t vector mem
  | _ => True

def AllCareful (s : State) : List Event → Prop
  | [] => True
  | event :: events => s.Careful event ∧ ∀ s', s.step event = .ok s' → s'.AllCareful events

end State

namespace Inv

theorem boot : Inv State.boot where
  upids := by
    refine ⟨by simp [State.boot], ?_⟩
    rintro (t | t | f | ⟨w, i⟩) u hheld
    · by_cases ht : t = 0 <;> simp [State.holder, State.boot, ht] at hheld
    · by_cases ht : t = 0 <;> simp [State.holder, State.boot, ht] at hheld
    · simp [State.holder, State.boot] at hheld
    · simp [State.holder, State.boot] at hheld
  tables := by
    refine ⟨by simp [State.boot], ?_⟩
    rintro (m | f) w hheld
    · by_cases hm : m = 0 <;> simp [State.tableHolder, State.boot, hm] at hheld
    · simp [State.tableHolder, State.boot] at hheld
  mms := by
    have hempty : Counted MmStruct.users (fun _ => none : Mm → Option MmStruct)
        (fun _ => none : Task → Option Mm) := ⟨by simp, by simp⟩
    have hholder : State.boot.mmHolder = Function.update (fun _ => none) 0 (some 0) := by
      funext t
      by_cases ht : t = 0 <;> simp [State.mmHolder, State.boot, ht]
    rw [hholder]
    exact hempty.alloc rfl rfl rfl
  threads := by
    intro t th ht
    by_cases hzero : t = 0
    · subst hzero
      simp only [State.boot, Function.update_self, Option.some.injEq] at ht
      subst ht
      exact ⟨by simp, by simp, rfl, by simp, rfl⟩
    · simp [State.boot, hzero] at ht
  wf := by simp [State.boot]
  kernel := by simp [State.boot]
  upidHeld := by simp [State.boot]
  tableHeld := by simp [State.boot]
  wait := ⟨List.nodup_nil, by simp [State.boot], by simp [State.boot], by simp [State.boot]⟩

theorem onCpu (hinv : Inv s) (t : Task) {call : Except Fault State}
    (hcall : ∀ th, s.tasks t = some th → th.running = true → Keeps call) :
    Keeps (s.onCpu t call) := by
  unfold State.onCpu
  split
  · next hrunning =>
      unfold State.isRunning at hrunning
      cases ht : s.tasks t with
      | none => simp [ht] at hrunning
      | some th => exact hcall th ht (by simpa [ht] using hrunning)
  · exact hinv.keeps

theorem step (hinv : Inv s) {event : Event} (hcareful : s.Careful event) :
    Keeps (s.step event) := by
  cases event with
  | fork t child copy => exact hinv.onCpu t fun th ht _ => hinv.fork ht child copy
  | exit t => exact hinv.onCpu t fun th ht hrunning => hinv.exit ht hrunning
  | destroyContext m => exact hinv.destroyContext m
  | switchOut t interruptible =>
      exact hinv.onCpu t fun th ht hrunning => hinv.switchOut ht hrunning interruptible
  | switchIn t =>
      simp only [State.step]
      split
      · exact hinv.keeps
      · next hsleeps =>
          cases ht : s.tasks t with
          | none => simp [ht] at hsleeps
          | some th => exact hinv.switchIn ht
  | returnToUser t ndst => exact hinv.onCpu t fun th ht _ => hinv.switchUintrReturn ht ndst
  | wakeUp => exact hinv.uintrWakeUpProcess
  | registerHandler t handler flags ndst mem =>
      exact hinv.onCpu t fun th ht hrunning =>
        hinv.uintrRegisterHandler ht hrunning handler flags ndst mem
  | unregisterHandler t flags =>
      exact hinv.onCpu t fun th ht hrunning => hinv.uintrUnregisterHandler ht hrunning flags
  | vectorFd t vector flags mem file =>
      exact hinv.onCpu t fun th ht _ => hinv.uintrVectorFd ht vector flags mem file
  | closeUvecfd f => exact hinv.uvecfdRelease f
  | notify f => exact hinv.uintrNotify f
  | registerSender t f flags mem =>
      exact hinv.onCpu t fun th ht hrunning => hinv.uintrRegisterSender ht hrunning f flags mem
  | unregisterSender t index flags fput =>
      obtain ⟨hindex, rfl⟩ := hcareful
      exact hinv.onCpu t fun th ht _ => hinv.uintrUnregisterSender ht hindex flags
  | registerSelf t vector flags mem =>
      exact hinv.onCpu t fun th ht hrunning =>
        hinv.uintrRegisterSelf ht hrunning vector flags mem hcareful
  | ipiFd t flags mem file => exact hinv.onCpu t fun th ht _ => hinv.uintrIpiFd ht flags mem file
  | ioctl t f setTargetTable =>
      exact hinv.onCpu t fun th ht hrunning => hinv.uipifdIoctl ht hrunning f setTargetTable
  | closeUipifd f => exact hinv.uipifdRelease f
  | senduipi t index =>
      exact hinv.onCpu t fun th ht hrunning => hinv.senduipi ht hrunning hcareful

theorem run {events : List Event} (hinv : Inv s) (hcareful : s.AllCareful events) :
    Keeps (s.run events) := by
  induction events generalizing s with
  | nil => exact hinv.keeps
  | cons event events ih =>
      obtain ⟨s', hstep, hinv'⟩ := hinv.step hcareful.1
      simp only [State.run, hstep, ok_bind]
      exact ih hinv' (hcareful.2 s' hstep)

end Inv

def oneSender : List Event :=
  [.registerHandler 0 0x400000 0 0 (some 0xffff888000001000), .vectorFd 0 5 0 true (some 3),
    .registerSender 0 3 0 (some 7), .senduipi 0 0]

theorem oneSender_careful : State.boot.AllCareful oneSender := by
  refine ⟨trivial, fun _ _ => ⟨trivial, fun _ _ => ⟨trivial, fun _ _ => ⟨?_, fun _ _ => trivial⟩⟩⟩⟩
  show 0 < uintrMaxUittNr
  decide

def oneSenderState : State :=
  match State.boot.run oneSender with
  | .ok s => s
  | .error _ => State.boot

theorem oneSender_run : State.boot.run oneSender = .ok oneSenderState := by rfl

end UserPaging.Linux.Uintr
