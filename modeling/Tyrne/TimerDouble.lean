import Tyrne.Lib.Saturating
import Tyrne.OneShot

/-!
# The timer of the host tests

`FakeTimer` of `test-hal/src/timer.rs`. It implements no expiry: a test reads off the armed
deadline and sets the clock itself. Given the calls the board is given, that tells whether
the interrupt of the board is raised, whenever the test has the clock where the board's is.
-/

namespace Tyrne.TimerDouble

open Tyrne.Lib.Runs
open Tyrne.Lib.Saturating
open Tyrne.Timer
open Tyrne.Deadline
open Tyrne.OneShot

set_option autoImplicit false

structure FakeTimer where
  resolutionNs : UInt64
  nowNs : UInt64
  armedDeadline : Option UInt64
  cancelCount : UInt64
  deriving DecidableEq, Repr

namespace FakeTimer

def new (resolutionNs : UInt64) : FakeTimer := ⟨resolutionNs, 0, none, 0⟩

def advance (deltaNs : UInt64) (timer : FakeTimer) : FakeTimer :=
  { timer with nowNs := ⟨saturatingAdd timer.nowNs.toBitVec deltaNs.toBitVec⟩ }

def setNow (ns : UInt64) (timer : FakeTimer) : FakeTimer := { timer with nowNs := ns }

def armDeadline (deadlineNs : UInt64) (timer : FakeTimer) : FakeTimer :=
  { timer with armedDeadline := some deadlineNs }

def cancelDeadline (timer : FakeTimer) : FakeTimer :=
  { timer with armedDeadline := none, cancelCount := timer.cancelCount + 1 }

def due (timer : FakeTimer) : Prop :=
  ∃ deadlineNs, timer.armedDeadline = some deadlineNs ∧ deadlineNs ≤ timer.nowNs

end FakeTimer

/-- The calls a test can make. -/
inductive TestCall where
  | advance (deltaNs : UInt64)
  | setNow (ns : UInt64)
  | armDeadline (deadlineNs : UInt64)
  | cancelDeadline
  deriving DecidableEq, Repr

def FakeTimer.perform (timer : FakeTimer) : TestCall → FakeTimer
  | .advance deltaNs => timer.advance deltaNs
  | .setNow ns => timer.setNow ns
  | .armDeadline deadlineNs => timer.armDeadline deadlineNs
  | .cancelDeadline => timer.cancelDeadline

def told (resolutionNs : UInt64) (calls : List TestCall) : FakeTimer :=
  calls.foldl FakeTimer.perform (FakeTimer.new resolutionNs)

/-- The calls the board has too; the clock of the board moves by itself. -/
def TestCall.onTimer? : TestCall → Option Call
  | .armDeadline deadlineNs => some (.arm deadlineNs)
  | .cancelDeadline => some .cancel
  | .advance _ | .setNow _ => none

def begun? : Event → Option Call
  | .begin call => some call
  | .write | .tick | .deliver => none

def deadlineOf : Call → Option UInt64
  | .arm deadlineNs => some deadlineNs
  | .cancel => none

/-- The deadline that is armed after these calls. -/
def leftArmed (calls : List Call) : Option UInt64 := calls.getLast?.bind deadlineOf

theorem left_armed_snoc (calls : List Call) (call : Call) :
    leftArmed (calls ++ [call]) = deadlineOf call := by
  rw [leftArmed, List.getLast?_concat, Option.bind_some]

theorem told_armed (resolutionNs : UInt64) (calls : List TestCall) :
    (told resolutionNs calls).armedDeadline = leftArmed (calls.filterMap TestCall.onTimer?) := by
  induction calls using List.reverseRecOn with
  | nil => rfl
  | append_singleton calls call ih =>
      rw [told, List.foldl_append, ← told, filter_map_snoc, List.foldl_cons, List.foldl_nil]
      cases call with
      | advance | setNow =>
          rw [TestCall.onTimer?, Option.toList_none, List.append_nil]
          exact ih
      | armDeadline deadlineNs => exact (left_armed_snoc _ (.arm deadlineNs)).symm
      | cancelDeadline => exact (left_armed_snoc _ .cancel).symm

/-! ## Beside the board -/

variable {cpu : QemuVirtCpu} {before after start : Machine} {armed : Option UInt64}
  {trace : List (Transition Machine Event)} {next : Transition Machine Event} {spent : Prop}

/-- A call has begun, or the interrupt was delivered and will not come again without one. -/
def Settles (taken : Transition Machine Event) : Prop :=
  (∃ call, taken.label = .begin call) ∨ (taken.label = .deliver ∧ arming taken.before = false)

/-- The interrupt has been delivered since the last call began. -/
def Spent (trace : List (Transition Machine Event)) : Prop :=
  ∃ taken, Latest Settles trace taken ∧ taken.label = .deliver

/-- Where the board is with what it has been told. -/
inductive Progress (cpu : QemuVirtCpu) (machine : Machine) (armed : Option UInt64) (spent : Prop) :
    Prop where
  | unarmed (idle : machine.pending = []) (none : armed = none)
      (stopped : ¬ timerEnabled machine.registers.cntvCtl)
  | comparator (deadlineNs target : UInt64)
      (left : machine.pending = [.cntvCval target, .cntvCtl 1, lineOn])
      (told : armed = some deadlineNs)
      (converted : nsToTicks deadlineNs cpu.frequencyHz = .ok target) (unspent : ¬ spent)
  | control (deadlineNs : UInt64) (left : machine.pending = [.cntvCtl 1, lineOn])
      (told : armed = some deadlineNs)
      (converted : nsToTicks deadlineNs cpu.frequencyHz = .ok machine.registers.cntvCval)
      (unspent : ¬ spent)
  | line (deadlineNs : UInt64) (left : machine.pending = [lineOn])
      (told : armed = some deadlineNs)
      (converted : nsToTicks deadlineNs cpu.frequencyHz = .ok machine.registers.cntvCval)
      (running : machine.registers.cntvCtl = 1) (unspent : ¬ spent)
  | armed (deadlineNs : UInt64) (idle : machine.pending = [])
      (told : armed = some deadlineNs)
      (converted : nsToTicks deadlineNs cpu.frequencyHz = .ok machine.registers.cntvCval)
      (running : machine.registers.cntvCtl = 1) (enabled : machine.registers.irqEnabled timerIrq)
      (unspent : ¬ spent)
  | fired (left : machine.pending = [] ∨ machine.pending = [lineOn])
      (stopped : ¬ timerEnabled machine.registers.cntvCtl) (spent : spent)
  | cancelControl (left : machine.pending = [.cntvCtl 2, lineOff])
      (none : armed = none)
  | cancelLine (left : machine.pending = [lineOff]) (none : armed = none)
      (stopped : ¬ timerEnabled machine.registers.cntvCtl)

/-- Between handlers the board is as far as the armed deadline says. -/
structure Beside (cpu : QemuVirtCpu) (machine : Machine) (armed : Option UInt64) (spent : Prop) :
    Prop where
  inactive : machine.registers.active = none
  progress : Progress cpu machine armed spent

/-! ## What has been spent -/

theorem spent_of_call {call : Call} (began : next.label = .begin call) :
    ¬ Spent (trace ++ [next]) := by
  rintro ⟨taken, latest, delivered⟩
  have same : taken = next := latest.unique (latest_now (.inl ⟨call, began⟩))
  rw [same, began] at delivered
  cases delivered

theorem spent_of_delivery (delivered : next.label = .deliver)
    (settled : arming next.before = false) : Spent (trace ++ [next]) :=
  ⟨next, latest_now (.inr ⟨delivered, settled⟩), delivered⟩

theorem spent_later (other : ¬ Settles next) : Spent (trace ++ [next]) ↔ Spent trace := by
  constructor
  · rintro ⟨taken, latest, delivered⟩
    exact ⟨taken, latest.earlier other, delivered⟩
  · rintro ⟨taken, latest, delivered⟩
    exact ⟨taken, latest.later other, delivered⟩

/-! ## What one event does to both -/

theorem quiet_beside (quiet : Quiet start) : Beside cpu start none spent where
  inactive := quiet.inactive
  progress := .unarmed quiet.idle rfl quiet.stopped

theorem Beside.arm {deadlineNs : UInt64} (beside : Beside cpu before armed spent)
    (taken : Step cpu before (.begin (.arm deadlineNs)) after) {later : Prop} (unspent : ¬ later) :
    Beside cpu after (some deadlineNs) later := by
  rcases step_arm taken with ⟨_, target, converted, rfl⟩
  exact ⟨beside.inactive, .comparator deadlineNs target rfl rfl converted unspent⟩

theorem Beside.cancel (beside : Beside cpu before armed spent)
    (taken : Step cpu before (.begin .cancel) after) (later : Prop) :
    Beside cpu after none later := by
  rcases step_cancel taken with ⟨_, rfl⟩
  exact ⟨beside.inactive, .cancelControl rfl rfl⟩

theorem Beside.write (beside : Beside cpu before armed spent)
    (taken : Step cpu before .write after) : Beside cpu after armed spent := by
  rcases step_write taken with ⟨write, rest, waiting, rfl⟩
  have inactive := beside.inactive
  cases beside.progress with
  | unarmed idle none stopped => cases idle.symm.trans waiting
  | comparator deadlineNs target left told converted unspent =>
      cases left.symm.trans waiting
      exact ⟨inactive, .control deadlineNs rfl told converted unspent⟩
  | control deadlineNs left told converted unspent =>
      cases left.symm.trans waiting
      exact ⟨inactive, .line deadlineNs rfl told converted rfl unspent⟩
  | line deadlineNs left told converted running unspent =>
      cases left.symm.trans waiting
      exact ⟨inactive,
        .armed deadlineNs rfl told converted running (irq_enabled_on _) unspent⟩
  | armed deadlineNs idle => cases idle.symm.trans waiting
  | fired left stopped spent =>
      rcases left with idle | last
      · cases idle.symm.trans waiting
      · cases last.symm.trans waiting
        exact ⟨inactive, .fired (.inl rfl) stopped spent⟩
  | cancelControl left none =>
      cases left.symm.trans waiting
      exact ⟨inactive, .cancelLine rfl none stopped_control⟩
  | cancelLine left none stopped =>
      cases left.symm.trans waiting
      exact ⟨inactive, .unarmed rfl none stopped⟩

theorem Beside.tick (beside : Beside cpu before armed spent) (taken : Step cpu before .tick after) :
    Beside cpu after armed spent := by
  cases step_tick taken
  refine ⟨beside.inactive, ?_⟩
  cases beside.progress with
  | unarmed idle none stopped => exact .unarmed idle none stopped
  | comparator deadlineNs target left told converted unspent =>
      exact .comparator deadlineNs target left told converted unspent
  | control deadlineNs left told converted unspent =>
      exact .control deadlineNs left told converted unspent
  | line deadlineNs left told converted running unspent =>
      exact .line deadlineNs left told converted running unspent
  | armed deadlineNs idle told converted running enabled unspent =>
      exact .armed deadlineNs idle told converted running enabled unspent
  | fired left stopped spent => exact .fired left stopped spent
  | cancelControl left none => exact .cancelControl left none
  | cancelLine left none stopped => exact .cancelLine left none stopped

theorem Beside.deliver_arming (beside : Beside cpu before armed spent)
    (taken : Step cpu before .deliver after) (early : arming before = true) :
    Beside cpu after armed spent := by
  rcases step_deliver taken with ⟨_, rfl⟩
  refine ⟨rfl, ?_⟩
  rw [arming] at early
  cases beside.progress with
  | comparator deadlineNs target left told converted unspent =>
      exact .comparator deadlineNs target left told converted unspent
  | control deadlineNs left told converted unspent =>
      exact .control deadlineNs left told converted unspent
  | unarmed idle | armed _ idle => simp [idle] at early
  | line _ left => simp [left, arms, lineOn] at early
  | fired left =>
      rcases left with idle | last
      · simp [idle] at early
      · simp [last, arms, lineOn] at early
  | cancelControl left => simp [left, arms, lineOff, stopped_control] at early
  | cancelLine left => simp [left, arms, lineOff] at early

theorem Beside.deliver_settled (beside : Beside cpu before armed spent)
    (taken : Step cpu before .deliver after) (settled : arming before = false) {later : Prop}
    (holds : later) : Beside cpu after armed later := by
  rcases step_deliver taken with ⟨deliverable, rfl⟩
  have running : timerEnabled before.registers.cntvCtl := deliverable.1.1
  refine ⟨rfl, ?_⟩
  rw [arming] at settled
  cases beside.progress with
  | unarmed _ _ stopped | fired _ stopped | cancelLine _ _ stopped => exact absurd running stopped
  | comparator _ _ left => simp [left, arms, timerEnabled] at settled
  | control _ left => simp [left, arms, timerEnabled] at settled
  | line deadlineNs left => exact .fired (.inr left) stopped_control holds
  | armed deadlineNs idle => exact .fired (.inl idle) stopped_control holds
  | cancelControl left none => exact .cancelControl left none

theorem Beside.congr {other : Prop} (beside : Beside cpu before armed spent)
    (same : other ↔ spent) : Beside cpu before armed other := by
  rw [propext same]
  exact beside

theorem beside_of_run (quiet : Quiet start) (run : Run (Step cpu) start trace after) :
    Beside cpu after (leftArmed ((labels trace).filterMap begun?)) (Spent trace) := by
  induction run with
  | nil => exact quiet_beside quiet
  | @snoc trace middle after event earlier step ih =>
      rw [labels_snoc, filter_map_snoc]
      cases event with
      | begin call =>
          rw [begun?, Option.toList_some, left_armed_snoc]
          cases call with
          | arm deadlineNs => exact ih.arm step (spent_of_call rfl)
          | cancel => exact ih.cancel step _
      | write =>
          rw [begun?, Option.toList_none, List.append_nil]
          apply (ih.write step).congr
          apply spent_later
          rintro (⟨call, began⟩ | ⟨delivered, _⟩)
          · cases began
          · cases delivered
      | tick =>
          rw [begun?, Option.toList_none, List.append_nil]
          apply (ih.tick step).congr
          apply spent_later
          rintro (⟨call, began⟩ | ⟨delivered, _⟩)
          · cases began
          · cases delivered
      | deliver =>
          rw [begun?, Option.toList_none, List.append_nil]
          by_cases early : arming middle = true
          · apply (ih.deliver_arming step early).congr
            apply spent_later
            rintro (⟨call, began⟩ | ⟨_, settled⟩)
            · cases began
            · cases early.symm.trans settled
          · have settled : arming middle = false := Bool.eq_false_iff.mpr early
            exact ih.deliver_settled step settled (spent_of_delivery rfl settled)

/-! ## What a test may conclude -/

/-- A run of the board from a quiet timer, its counter at 1 GHz or less, and a test that makes
the same calls of the timer in the same order and moves the clock of the double as it likes:
whenever no call is in progress and the two clocks show the same time, the interrupt of the
board is raised exactly when the double's deadline is due and has not been delivered since. -/
theorem timer_double_agrees (slow : cpu.frequencyHz.toNat ≤ 10 ^ 9) (quiet : Quiet start)
    (run : Run (Step cpu) start trace after) {calls : List TestCall}
    (same : calls.filterMap TestCall.onTimer? = (labels trace).filterMap begun?)
    (idle : after.pending = [])
    (clock : cpu.nowNs after.registers.cntvct = .ok (told cpu.resolutionNs calls).nowNs) :
    after.registers.deliverable ↔ (told cpu.resolutionNs calls).due ∧ ¬ Spent trace := by
  have beside := beside_of_run quiet run
  rw [← same, ← told_armed cpu.resolutionNs] at beside
  cases beside.progress with
  | unarmed _ none stopped =>
      constructor
      · intro deliverable
        exact absurd deliverable.1.1 stopped
      · rintro ⟨⟨deadlineNs, armed, _⟩, _⟩
        cases none.symm.trans armed
  | armed deadlineNs _ armed converted running enabled unspent =>
      have raised := asserted_iff_due (ticks_fit slow deadlineNs) converted running
      constructor
      · intro deliverable
        obtain ⟨now, shown, reached⟩ := raised.mp deliverable.1
        cases clock.symm.trans shown
        exact ⟨⟨deadlineNs, armed, reached⟩, unspent⟩
      · rintro ⟨⟨other, sameDeadline, reached⟩, _⟩
        cases armed.symm.trans sameDeadline
        exact ⟨raised.mpr ⟨_, clock, reached⟩, enabled, beside.inactive⟩
  | fired _ stopped spent =>
      constructor
      · intro deliverable
        exact absurd deliverable.1.1 stopped
      · rintro ⟨_, unspent⟩
        exact absurd spent unspent
  | comparator _ _ left | control _ left | line _ left | cancelControl left | cancelLine left =>
      cases left.symm.trans idle

/-- Armed for one tick's time; the interrupt is raised by the first tick and delivered once. -/
def onceArmed : List Event :=
  [.begin (.arm 16), .write, .write, .write, .tick, .deliver]

/-- The test moves the clock in two steps and never hears of writes, ticks or deliveries. -/
def onceTested : List TestCall := [.setNow 10, .armDeadline 16, .advance 6]

theorem timer_double_agrees_once :
    ∃ trace after, Run (Step virtCpu) freshMachine trace after ∧ labels trace = onceArmed ∧
      (told virtCpu.resolutionNs onceTested).nowNs = 16 ∧
      (after.registers.deliverable ↔
        (told virtCpu.resolutionNs onceTested).due ∧ ¬ Spent trace) := by
  obtain ⟨last, followed, idle, counted⟩ : ∃ last, follow (step virtCpu) freshMachine onceArmed =
      some last ∧ last.pending = [] ∧ last.registers.cntvct = 1 := ⟨_, rfl, rfl, rfl⟩
  obtain ⟨trace, run, same⟩ := run_of_follow followed
  have shown : (told virtCpu.resolutionNs onceTested).nowNs = 16 := by decide
  have clock : virtCpu.nowNs last.registers.cntvct =
      .ok (told virtCpu.resolutionNs onceTested).nowNs := by
    rw [counted, shown]
    decide
  exact ⟨trace, last, run, same, shown,
    timer_double_agrees (by decide) fresh_machine_quiet run (by rw [same]; rfl) idle clock⟩

end Tyrne.TimerDouble
