import Tyrne.Deadline

/-!
# The one-shot deadline over runs

What interleaved arming, cancelling, ticking and interrupting can lead to. A delivery is due
and is never late; a second one needs a new deadline, unless the first fell into a call of
`arm_deadline` that had not yet written the control register.
-/

namespace Tyrne.OneShot

open Tyrne.Lib.Runs
open Tyrne.Timer
open Tyrne.Deadline

set_option autoImplicit false

variable {cpu : QemuVirtCpu} {before after start : Machine}
  {trace : List (Transition Machine Event)}

theorem stopped_control : ¬ timerEnabled 2 := by decide

/-! ## What one event does -/

theorem step_begin {call : Call} (taken : Step cpu before (.begin call) after) :
    before.pending = [] ∧ ∃ writes, call.writes cpu = .ok writes ∧
      after = { before with call := some call, pending := writes } := by
  simp only [Step, step] at taken
  split at taken
  · rename_i writes empty returned
    cases taken
    exact ⟨empty, writes, returned, rfl⟩
  · cases taken

theorem step_arm {deadlineNs : UInt64} (taken : Step cpu before (.begin (.arm deadlineNs)) after) :
    before.pending = [] ∧ ∃ target, nsToTicks deadlineNs cpu.frequencyHz = .ok target ∧
      after = { before with
        call := some (.arm deadlineNs)
        pending := [.cntvCval target, .cntvCtl 1, lineOn] } := by
  rcases step_begin taken with ⟨idle, writes, returned, rfl⟩
  obtain ⟨target, converted, expected⟩ := arm_writes cpu deadlineNs
  cases expected.symm.trans returned
  exact ⟨idle, target, converted, rfl⟩

theorem step_cancel (taken : Step cpu before (.begin .cancel) after) :
    before.pending = [] ∧
      after = { before with call := some .cancel, pending := [.cntvCtl 2, lineOff] } := by
  rcases step_begin taken with ⟨idle, writes, returned, rfl⟩
  cases cancel_writes.symm.trans returned
  exact ⟨idle, rfl⟩

theorem step_write (taken : Step cpu before .write after) :
    ∃ write rest, before.pending = write :: rest ∧ after = before.write write rest := by
  simp only [Step, step] at taken
  split at taken
  · rename_i write rest waiting
    cases taken
    exact ⟨write, rest, waiting, rfl⟩
  · cases taken

theorem step_tick (taken : Step cpu before .tick after) :
    after = { before with registers :=
      { before.registers with cntvct := before.registers.cntvct + 1 } } := by
  cases taken
  rfl

theorem step_deliver (taken : Step cpu before .deliver after) :
    before.registers.deliverable ∧
      after = { before with registers :=
        { before.registers with cntvCtl := 2, active := none } } := by
  simp only [Step, step] at taken
  split at taken
  · rename_i deliverable
    rw [irq_entry_delivered deliverable] at taken
    cases taken
    exact ⟨deliverable, rfl⟩
  · cases taken

/-! ## The calls in progress -/

/-- What the call in progress has still to write. -/
inductive Remaining (cpu : QemuVirtCpu) (machine : Machine) : Prop where
  | returned (none : machine.pending = [])
  | comparator (deadlineNs target : UInt64)
      (left : machine.pending = [.cntvCval target, .cntvCtl 1, lineOn])
      (called : machine.call = some (.arm deadlineNs))
      (converted : nsToTicks deadlineNs cpu.frequencyHz = .ok target)
  | control (deadlineNs : UInt64) (left : machine.pending = [.cntvCtl 1, lineOn])
      (written : machine.programmed = some deadlineNs)
  | line (left : machine.pending = [lineOn])
  | cancelControl (left : machine.pending = [.cntvCtl 2, lineOff])
  | cancelLine (left : machine.pending = [lineOff])

/-- The comparator holds the deadline programmed last, and the timer runs only with one. -/
structure Coherent (cpu : QemuVirtCpu) (machine : Machine) : Prop where
  remaining : Remaining cpu machine
  programmed : ∀ deadlineNs, machine.programmed = some deadlineNs →
    nsToTicks deadlineNs cpu.frequencyHz = .ok machine.registers.cntvCval
  running : timerEnabled machine.registers.cntvCtl →
    machine.registers.cntvCtl = 1 ∧ ∃ deadlineNs, machine.programmed = some deadlineNs

/-- The timer and its line are disabled and no call is in progress. -/
structure Quiet (machine : Machine) : Prop where
  stopped : ¬ timerEnabled machine.registers.cntvCtl
  disabled : ¬ machine.registers.irqEnabled timerIrq
  inactive : machine.registers.active = none
  idle : machine.pending = []
  unprogrammed : machine.programmed = none

theorem Quiet.coherent (quiet : Quiet start) : Coherent cpu start where
  remaining := .returned quiet.idle
  programmed deadlineNs written := by
    rw [quiet.unprogrammed] at written
    cases written
  running enabled := absurd enabled quiet.stopped

theorem Coherent.write (coherent : Coherent cpu before) (taken : Step cpu before .write after) :
    Coherent cpu after := by
  rcases step_write taken with ⟨write, rest, waiting, rfl⟩
  cases coherent.remaining with
  | returned none => cases none.symm.trans waiting
  | comparator deadlineNs target left called converted =>
      cases left.symm.trans waiting
      have written : (before.write (.cntvCval target) [.cntvCtl 1, lineOn]).programmed =
          some deadlineNs := by
        rw [Machine.write, called]
        rfl
      refine ⟨.control deadlineNs rfl written, ?_, ?_⟩
      · intro other found
        cases written.symm.trans found
        exact converted
      · intro enabled
        exact ⟨(coherent.running enabled).1, deadlineNs, written⟩
  | control deadlineNs left written =>
      cases left.symm.trans waiting
      exact ⟨.line rfl, coherent.programmed, fun _ => ⟨rfl, deadlineNs, written⟩⟩
  | line left =>
      cases left.symm.trans waiting
      exact ⟨.returned rfl, coherent.programmed, coherent.running⟩
  | cancelControl left =>
      cases left.symm.trans waiting
      exact ⟨.cancelLine rfl, coherent.programmed, fun enabled => absurd enabled stopped_control⟩
  | cancelLine left =>
      cases left.symm.trans waiting
      exact ⟨.returned rfl, coherent.programmed, coherent.running⟩

theorem Remaining.congr (remaining : Remaining cpu before)
    (pending : after.pending = before.pending) (call : after.call = before.call)
    (programmed : after.programmed = before.programmed) : Remaining cpu after := by
  cases remaining with
  | returned none => exact .returned (pending.trans none)
  | comparator deadlineNs target left called converted =>
      exact .comparator deadlineNs target (pending.trans left) (call.trans called) converted
  | control deadlineNs left written =>
      exact .control deadlineNs (pending.trans left) (programmed.trans written)
  | line left => exact .line (pending.trans left)
  | cancelControl left => exact .cancelControl (pending.trans left)
  | cancelLine left => exact .cancelLine (pending.trans left)

theorem Coherent.step (coherent : Coherent cpu before) {event : Event}
    (taken : Step cpu before event after) : Coherent cpu after := by
  cases event with
  | begin call =>
      cases call with
      | arm deadlineNs =>
          rcases step_arm taken with ⟨_, target, converted, rfl⟩
          exact ⟨.comparator deadlineNs target rfl rfl converted, coherent.programmed,
            coherent.running⟩
      | cancel =>
          rcases step_cancel taken with ⟨_, rfl⟩
          exact ⟨.cancelControl rfl, coherent.programmed, coherent.running⟩
  | write => exact coherent.write taken
  | tick =>
      cases step_tick taken
      exact ⟨coherent.remaining.congr rfl rfl rfl, coherent.programmed, coherent.running⟩
  | deliver =>
      rcases step_deliver taken with ⟨_, rfl⟩
      exact ⟨coherent.remaining.congr rfl rfl rfl, coherent.programmed,
        fun enabled => absurd enabled stopped_control⟩

theorem coherent_of_run (quiet : Quiet start) (run : Run (Step cpu) start trace after) :
    Coherent cpu after :=
  run_invariant quiet.coherent (fun _ _ _ held taken => held.step taken) run

/-! ## A disarmed timer -/

def arms : Write → Bool
  | .cntvCtl value => decide (timerEnabled value)
  | _ => false

/-- A call of `arm_deadline` has begun and has not yet written the control register. -/
def arming (machine : Machine) : Bool := machine.pending.any arms

/-- The timer is stopped and nothing under way starts it. -/
structure Disarmed (machine : Machine) : Prop where
  stopped : ¬ timerEnabled machine.registers.cntvCtl
  settled : arming machine = false

theorem Disarmed.silent (disarmed : Disarmed before) : ¬ before.registers.deliverable :=
  fun deliverable => disarmed.stopped deliverable.1.1

theorem Disarmed.write (disarmed : Disarmed before) (taken : Step cpu before .write after) :
    Disarmed after := by
  rcases step_write taken with ⟨write, rest, waiting, rfl⟩
  have settled := disarmed.settled
  rw [arming, waiting, List.any_cons, Bool.or_eq_false_iff] at settled
  refine ⟨?_, settled.2⟩
  cases write with
  | cntvCtl value => exact of_decide_eq_false settled.1
  | cntvCval value => exact disarmed.stopped
  | gicdIsenabler word bits => exact disarmed.stopped
  | gicdIcenabler word bits => exact disarmed.stopped
  | giccEoir irq => exact disarmed.stopped

/-- Only a new call of `arm_deadline` ends it. -/
theorem Disarmed.step (disarmed : Disarmed before) {event : Event}
    (notArm : ∀ deadlineNs, event ≠ .begin (.arm deadlineNs))
    (taken : Step cpu before event after) : Disarmed after := by
  cases event with
  | begin call =>
      cases call with
      | arm deadlineNs => exact absurd rfl (notArm deadlineNs)
      | cancel =>
          rcases step_cancel taken with ⟨_, rfl⟩
          exact ⟨disarmed.stopped, rfl⟩
  | write => exact disarmed.write taken
  | tick =>
      cases step_tick taken
      exact ⟨disarmed.stopped, disarmed.settled⟩
  | deliver => exact absurd (step_deliver taken).1 disarmed.silent

theorem disarmed_of_run (disarmed : Disarmed start)
    (noArm : ∀ deadlineNs, Event.begin (.arm deadlineNs) ∉ labels trace)
    (run : Run (Step cpu) start trace after) : Disarmed after := by
  have allowed : ∀ event ∈ labels trace, ∀ deadlineNs, event ≠ .begin (.arm deadlineNs) := by
    rintro event member deadlineNs rfl
    exact noArm deadlineNs member
  exact run_invariant_of_labels disarmed (fun _ _ _ held notArm taken => held.step notArm taken)
    run allowed

/-- A call of `cancel_deadline` has begun; once it returns the timer is disarmed. -/
inductive Cancelling (machine : Machine) : Prop where
  | begun (left : machine.pending = [.cntvCtl 2, lineOff])
  | disarmed (disarmed : Disarmed machine)

theorem Cancelling.step (cancelling : Cancelling before) {event : Event}
    (notArm : ∀ deadlineNs, event ≠ .begin (.arm deadlineNs))
    (taken : Step cpu before event after) : Cancelling after := by
  cases cancelling with
  | disarmed disarmed => exact .disarmed (disarmed.step notArm taken)
  | begun left =>
      cases event with
      | begin call => cases left.symm.trans (step_begin taken).1
      | write =>
          rcases step_write taken with ⟨write, rest, waiting, rfl⟩
          cases left.symm.trans waiting
          exact .disarmed ⟨stopped_control, rfl⟩
      | tick =>
          cases step_tick taken
          exact .begun left
      | deliver =>
          rcases step_deliver taken with ⟨_, rfl⟩
          exact .begun left

theorem Cancelling.returned (cancelling : Cancelling before) (idle : before.pending = []) :
    Disarmed before := by
  cases cancelling with
  | begun left => cases left.symm.trans idle
  | disarmed disarmed => exact disarmed

/-! ## An armed timer -/

def keepsArmed : Write → Bool
  | .cntvCval _ => true
  | .cntvCtl value => value == 1
  | .gicdIsenabler _ _ => true
  | .gicdIcenabler _ _ => false
  | .giccEoir _ => true

/-- The timer and its line are enabled, and nothing under way changes that. -/
structure Armed (machine : Machine) : Prop where
  control : machine.registers.cntvCtl = 1
  line : machine.registers.irqEnabled timerIrq
  settled : machine.pending.all keepsArmed = true

theorem irq_enabled_on (registers : Registers) :
    (lineOn.perform registers).irqEnabled timerIrq := by
  simp [Registers.irqEnabled, lineOn, Write.perform, timerIrq]

theorem irq_enabled_kept {registers : Registers} {irq : IrqNumber} (word : Nat)
    (bits : BitVec 32) (enabled : registers.irqEnabled irq) :
    ((Write.gicdIsenabler word bits).perform registers).irqEnabled irq := by
  simp only [Registers.irqEnabled, Write.perform, Function.update_apply] at enabled ⊢
  split_ifs with same
  · rw [same] at enabled
    rw [BitVec.getLsbD_or, enabled, Bool.true_or]
  · exact enabled

theorem Armed.write (armed : Armed before) (taken : Step cpu before .write after) :
    Armed after := by
  rcases step_write taken with ⟨write, rest, waiting, rfl⟩
  have settled := armed.settled
  rw [waiting, List.all_cons, Bool.and_eq_true] at settled
  cases write with
  | cntvCval value => exact ⟨armed.control, armed.line, settled.2⟩
  | cntvCtl value => exact ⟨beq_iff_eq.mp settled.1, armed.line, settled.2⟩
  | gicdIsenabler word bits => exact ⟨armed.control, irq_enabled_kept word bits armed.line, settled.2⟩
  | gicdIcenabler word bits => cases settled.1
  | giccEoir irq => exact ⟨armed.control, armed.line, settled.2⟩

theorem Armed.step (armed : Armed before) {event : Event} (notDelivered : event ≠ .deliver)
    (notCancelled : event ≠ .begin .cancel) (taken : Step cpu before event after) :
    Armed after := by
  cases event with
  | begin call =>
      cases call with
      | arm deadlineNs =>
          rcases step_arm taken with ⟨_, target, _, rfl⟩
          exact ⟨armed.control, armed.line, rfl⟩
      | cancel => exact absurd rfl notCancelled
  | write => exact armed.write taken
  | tick =>
      cases step_tick taken
      exact ⟨armed.control, armed.line, armed.settled⟩
  | deliver => exact absurd rfl notDelivered

/-- A call that arms this deadline has begun; its writes so far are made. -/
inductive Arming (deadlineNs : UInt64) (machine : Machine) : Prop where
  | comparator (target : UInt64)
      (left : machine.pending = [.cntvCval target, .cntvCtl 1, lineOn])
      (called : machine.call = some (.arm deadlineNs))
  | control (left : machine.pending = [.cntvCtl 1, lineOn])
      (written : machine.programmed = some deadlineNs)
  | line (left : machine.pending = [lineOn]) (written : machine.programmed = some deadlineNs)
      (running : machine.registers.cntvCtl = 1)
  | returned (none : machine.pending = []) (written : machine.programmed = some deadlineNs)
      (armed : Armed machine)

theorem Arming.write {deadlineNs : UInt64} (progress : Arming deadlineNs before)
    (taken : Step cpu before .write after) : Arming deadlineNs after := by
  rcases step_write taken with ⟨write, rest, waiting, rfl⟩
  cases progress with
  | comparator target left called =>
      cases left.symm.trans waiting
      refine .control rfl ?_
      rw [Machine.write, called]
      rfl
  | control left written =>
      cases left.symm.trans waiting
      exact .line rfl written rfl
  | line left written running =>
      cases left.symm.trans waiting
      exact .returned rfl written ⟨running, irq_enabled_on _, rfl⟩
  | returned none written armed => cases none.symm.trans waiting

theorem Arming.tick {deadlineNs : UInt64} (progress : Arming deadlineNs before)
    (taken : Step cpu before .tick after) : Arming deadlineNs after := by
  cases step_tick taken
  cases progress with
  | comparator target left called => exact .comparator target left called
  | control left written => exact .control left written
  | line left written running => exact .line left written running
  | returned none written armed =>
      exact .returned none written ⟨armed.control, armed.line, armed.settled⟩

theorem Arming.of_returned {deadlineNs : UInt64} (progress : Arming deadlineNs before)
    (idle : before.pending = []) : Armed before ∧ before.programmed = some deadlineNs := by
  cases progress with
  | comparator target left _ => cases left.symm.trans idle
  | control left _ => cases left.symm.trans idle
  | line left _ _ => cases left.symm.trans idle
  | returned none written armed => exact ⟨armed, written⟩

/-! ## The protocol -/

/-- What a one-shot deadline promises of the runs of these steps. -/
structure Protocol (cpu : QemuVirtCpu) (Taken : Machine → Event → Machine → Prop)
    (start : Machine) : Prop where
  /-- A delivery happens when the clock has reached the deadline programmed last. -/
  due : ∀ trace before after, Run Taken start trace before → Taken before .deliver after →
    ∃ deadlineNs now, before.programmed = some deadlineNs ∧
      cpu.nowNs before.registers.cntvct = .ok now ∧ deadlineNs ≤ now
  /-- Between two deliveries a call of `arm_deadline` begins. -/
  rearmed : ∀ trace after earlier between, Run Taken start trace after →
    labels trace = earlier ++ .deliver :: (between ++ [.deliver]) →
    ∃ deadlineNs, Event.begin (.arm deadlineNs) ∈ between
  /-- After a returned `cancel_deadline` nothing is delivered before `arm_deadline` begins. -/
  cancelled : ∀ trace earlier during returned later before after,
    Run Taken start trace returned → labels trace = earlier ++ .begin .cancel :: during →
    (∀ call, Event.begin call ∉ during) → returned.pending = [] →
    Run Taken returned later before → Taken before .deliver after →
    ∃ deadlineNs, Event.begin (.arm deadlineNs) ∈ labels later
  /-- After a returned `arm_deadline` the line asserts once the deadline is due, until a
  delivery or a cancellation; a later call of `arm_deadline` may replace the deadline. -/
  kept : ∀ trace earlier deadlineNs during returned later after,
    Run Taken start trace returned →
    labels trace = earlier ++ .begin (.arm deadlineNs) :: during →
    (∀ call, Event.begin call ∉ during) → Event.deliver ∉ during → returned.pending = [] →
    Run Taken returned later after →
    Event.begin .cancel ∉ labels later → Event.deliver ∉ labels later →
    ∃ current, after.programmed = some current ∧
      ((∀ other, Event.begin (.arm other) ∉ labels later) → current = deadlineNs) ∧
      ∀ now, cpu.nowNs after.registers.cntvct = .ok now → current ≤ now →
        after.registers.asserted ∧ after.registers.irqEnabled timerIrq

/-- No interrupt is delivered inside a call of `arm_deadline` that has not yet written the
control register. -/
def GuardedStep (cpu : QemuVirtCpu) (before : Machine) (event : Event) (after : Machine) : Prop :=
  Step cpu before event after ∧ (event = .deliver → arming before = false)

theorem unguarded_run (run : Run (GuardedStep cpu) start trace after) :
    Run (Step cpu) start trace after :=
  run_weaken (fun _ _ _ taken => taken.1) run

theorem Coherent.asserted_iff (coherent : Coherent cpu before)
    (slow : cpu.frequencyHz.toNat ≤ 10 ^ 9) {deadlineNs : UInt64}
    (written : before.programmed = some deadlineNs) (running : before.registers.cntvCtl = 1) :
    before.registers.asserted ↔
      ∃ now, cpu.nowNs before.registers.cntvct = .ok now ∧ deadlineNs ≤ now :=
  asserted_iff_due (ticks_fit slow deadlineNs) (coherent.programmed deadlineNs written) running

theorem delivery_due (slow : cpu.frequencyHz.toNat ≤ 10 ^ 9) (quiet : Quiet start)
    (run : Run (Step cpu) start trace before) (taken : Step cpu before .deliver after) :
    ∃ deadlineNs now, before.programmed = some deadlineNs ∧
      cpu.nowNs before.registers.cntvct = .ok now ∧ deadlineNs ≤ now := by
  have coherent := coherent_of_run quiet run
  have asserted := (step_deliver taken).1.1
  obtain ⟨running, deadlineNs, written⟩ := coherent.running asserted.1
  obtain ⟨now, returned, due⟩ := (coherent.asserted_iff slow written running).mp asserted
  exact ⟨deadlineNs, now, written, returned, due⟩

theorem disarmed_of_delivery (taken : GuardedStep cpu before .deliver after) :
    Disarmed after := by
  rcases taken with ⟨delivered, guarded⟩
  rcases step_deliver delivered with ⟨_, rfl⟩
  exact ⟨stopped_control, guarded rfl⟩

theorem delivery_rearmed {earlier between : List Event}
    (run : Run (GuardedStep cpu) start trace after)
    (cut : labels trace = earlier ++ .deliver :: (between ++ [.deliver])) :
    ∃ deadlineNs, Event.begin (.arm deadlineNs) ∈ between := by
  by_contra none
  rcases run_at_label run cut with ⟨_, _, delivered, late, _, lateCut, _, first, rest⟩
  rcases run_at_label rest lateCut with ⟨segment, again, _, _, segmentCut, _, path, second, _⟩
  have noArm : ∀ deadlineNs, Event.begin (.arm deadlineNs) ∉ labels segment := by
    rw [segmentCut]
    exact fun deadlineNs member => none ⟨deadlineNs, member⟩
  have disarmed : Disarmed again :=
    disarmed_of_run (disarmed_of_delivery first) noArm (unguarded_run path)
  exact disarmed.silent (step_deliver second.1).1

theorem cancel_silences {earlier during : List Event} {returned : Machine}
    {later : List (Transition Machine Event)}
    (run : Run (Step cpu) start trace returned)
    (cut : labels trace = earlier ++ .begin .cancel :: during)
    (noCall : ∀ call, Event.begin call ∉ during) (idle : returned.pending = [])
    (rest : Run (Step cpu) returned later before) (taken : Step cpu before .deliver after) :
    ∃ deadlineNs, Event.begin (.arm deadlineNs) ∈ labels later := by
  by_contra none
  rcases run_at_label run cut with ⟨_, _, begun, late, _, lateCut, _, begins, path⟩
  have cancelling : Cancelling begun := by
    rcases step_cancel begins with ⟨_, rfl⟩
    exact .begun rfl
  have allowed : ∀ event ∈ labels late, ∀ deadlineNs, event ≠ .begin (.arm deadlineNs) := by
    rintro event member deadlineNs rfl
    rw [lateCut] at member
    exact noCall _ member
  have reached : Cancelling returned := run_invariant_of_labels cancelling
    (fun _ _ _ held notArm step => held.step notArm step) path allowed
  have disarmed := disarmed_of_run (reached.returned idle)
    (fun deadlineNs member => none ⟨deadlineNs, member⟩) rest
  exact disarmed.silent (step_deliver taken).1

theorem armed_of_returned {earlier during : List Event} {deadlineNs : UInt64}
    {returned : Machine} (run : Run (Step cpu) start trace returned)
    (cut : labels trace = earlier ++ .begin (.arm deadlineNs) :: during)
    (noCall : ∀ call, Event.begin call ∉ during) (undelivered : Event.deliver ∉ during)
    (idle : returned.pending = []) :
    Armed returned ∧ returned.programmed = some deadlineNs := by
  rcases run_at_label run cut with ⟨_, _, begun, late, _, lateCut, _, begins, path⟩
  have progress : Arming deadlineNs begun := by
    rcases step_arm begins with ⟨_, target, _, rfl⟩
    exact .comparator target rfl rfl
  have allowed : ∀ event ∈ labels late, event = .write ∨ event = .tick := by
    intro event member
    rw [lateCut] at member
    cases event with
    | begin call => exact absurd member (noCall call)
    | write => exact .inl rfl
    | tick => exact .inr rfl
    | deliver => exact absurd member undelivered
  have reached : Arming deadlineNs returned := by
    apply run_invariant_of_labels progress _ path allowed
    rintro _ event _ held (rfl | rfl) step
    · exact held.write step
    · exact held.tick step
  exact reached.of_returned idle

theorem programmed_of_run (idle : start.pending = [])
    (noCall : ∀ call, Event.begin call ∉ labels trace)
    (run : Run (Step cpu) start trace after) : after.programmed = start.programmed := by
  have allowed : ∀ event ∈ labels trace, ∀ call, event ≠ .begin call := by
    rintro event member call rfl
    exact noCall call member
  have kept : after.pending = [] ∧ after.programmed = start.programmed := by
    apply @run_invariant_of_labels _ _ _ _ _ _
      (fun machine => machine.pending = [] ∧ machine.programmed = start.programmed) _
      ⟨idle, rfl⟩ _ run allowed
    rintro before event reached ⟨quiet, same⟩ notCall step
    cases event with
    | begin call => exact absurd rfl (notCall call)
    | write =>
        rcases step_write step with ⟨_, _, waiting, _⟩
        cases quiet.symm.trans waiting
    | tick =>
        cases step_tick step
        exact ⟨quiet, same⟩
    | deliver =>
        rcases step_deliver step with ⟨_, rfl⟩
        exact ⟨quiet, same⟩
  exact kept.2

theorem arm_kept {earlier during : List Event} {deadlineNs : UInt64} {returned : Machine}
    {later : List (Transition Machine Event)} (slow : cpu.frequencyHz.toNat ≤ 10 ^ 9)
    (quiet : Quiet start) (run : Run (Step cpu) start trace returned)
    (cut : labels trace = earlier ++ .begin (.arm deadlineNs) :: during)
    (noCall : ∀ call, Event.begin call ∉ during) (undelivered : Event.deliver ∉ during)
    (idle : returned.pending = []) (rest : Run (Step cpu) returned later after)
    (uncancelled : Event.begin .cancel ∉ labels later) (unseen : Event.deliver ∉ labels later) :
    ∃ current, after.programmed = some current ∧
      ((∀ other, Event.begin (.arm other) ∉ labels later) → current = deadlineNs) ∧
      ∀ now, cpu.nowNs after.registers.cntvct = .ok now → current ≤ now →
        after.registers.asserted ∧ after.registers.irqEnabled timerIrq := by
  have coherent := coherent_of_run quiet (run_append run rest)
  obtain ⟨armed, written⟩ := armed_of_returned run cut noCall undelivered idle
  have allowed : ∀ event ∈ labels later, event ≠ .deliver ∧ event ≠ .begin .cancel := by
    intro event member
    constructor
    · rintro rfl
      exact unseen member
    · rintro rfl
      exact uncancelled member
  have still : Armed after := run_invariant_of_labels armed
    (fun _ _ _ held harmless step => held.step harmless.1 harmless.2 step) rest allowed
  have enabled : timerEnabled after.registers.cntvCtl := by
    rw [still.control]
    decide
  obtain ⟨running, current, programmed⟩ := coherent.running enabled
  refine ⟨current, programmed, ?_, ?_⟩
  · intro noArm
    have noCalls : ∀ call, Event.begin call ∉ labels later := by
      intro call
      cases call with
      | arm other => exact noArm other
      | cancel => exact uncancelled
    have same := programmed_of_run idle noCalls rest
    rw [programmed, written] at same
    exact Option.some.inj same
  · intro now returnedNow due
    exact ⟨(coherent.asserted_iff slow programmed running).mpr ⟨now, returnedNow, due⟩, still.line⟩

/-! ## A delivery inside `arm_deadline` -/

/-- The call in progress can finish undisturbed. -/
theorem finish_run {deadlineNs : UInt64} (progress : Arming deadlineNs start)
    (inactive : start.registers.active = none) :
    ∃ path last, Run (Step cpu) start path last ∧ (∀ event ∈ labels path, event = .write) ∧
      last.pending = [] ∧ Arming deadlineNs last ∧ last.registers.active = none := by
  generalize left : start.pending = pending
  induction pending generalizing start with
  | nil => exact ⟨[], start, .nil, fun _ member => absurd member List.not_mem_nil, left, progress, inactive⟩
  | cons write rest ih =>
      have taken : Step cpu start .write (start.write write rest) := by
        simp only [Step, step, left]
      have still : (start.write write rest).registers.active = none := by
        cases write <;> simp [Machine.write, Write.perform, inactive]
      obtain ⟨path, last, run, writes, idle, done, quiet⟩ := ih (progress.write taken) still rfl
      refine ⟨[⟨start, .write, _⟩] ++ path, last, run_append (run_single taken) run, ?_, idle,
        done, quiet⟩
      intro event member
      rw [labels, List.map_append, List.mem_append] at member
      rcases member with now | later
      · exact List.mem_singleton.mp now
      · exact writes event later

def Waited (count : UInt64) (before after : Machine) : Prop :=
  after = { before with registers :=
    { before.registers with cntvct := before.registers.cntvct + count } }

theorem ticks_run (machine : Machine) (count : Nat) :
    ∃ path last, Run (Step cpu) machine path last ∧ (∀ event ∈ labels path, event = .tick) ∧
      Waited (UInt64.ofNat count) machine last := by
  induction count with
  | zero =>
      refine ⟨[], machine, .nil, fun _ member => absurd member List.not_mem_nil, ?_⟩
      simp [Waited]
  | succ count ih =>
      obtain ⟨path, last, run, ticks, waited⟩ := ih
      have taken : Step cpu last .tick { last with registers :=
          { last.registers with cntvct := last.registers.cntvct + 1 } } := rfl
      refine ⟨_, _, .snoc run taken, ?_, ?_⟩
      · intro event member
        rw [labels_snoc, List.mem_append] at member
        rcases member with earlier | now
        · exact ticks event earlier
        · exact List.mem_singleton.mp now
      · rw [Waited] at waited ⊢
        rw [waited, UInt64.ofNat_add, UInt64.add_assoc]
        rfl

/-- After a delivery that fell into `arming` the timer can fire again without another call. -/
theorem refires (quiet : Quiet start) (run : Run (Step cpu) start trace before)
    (taken : Step cpu before .deliver after) (early : arming before = true) :
    ∃ path last between, Run (Step cpu) after path last ∧
      labels path = between ++ [.deliver] ∧ ∀ call, Event.begin call ∉ between := by
  have coherent := coherent_of_run quiet run
  rcases step_deliver taken with ⟨_, rfl⟩
  have progress : ∃ deadlineNs, Arming deadlineNs { before with registers :=
      { before.registers with cntvCtl := 2, active := none } } := by
    rw [arming] at early
    cases coherent.remaining with
    | comparator deadlineNs target left called _ => exact ⟨deadlineNs, .comparator target left called⟩
    | control deadlineNs left written => exact ⟨deadlineNs, .control left written⟩
    | returned left => simp [left] at early
    | line left => simp [left, arms, lineOn] at early
    | cancelControl left => simp [left, arms, lineOff, stopped_control] at early
    | cancelLine left => simp [left, arms, lineOff] at early
  obtain ⟨deadlineNs, progress⟩ := progress
  obtain ⟨first, armed, writing, writes, idle, done, inactive⟩ :=
    @finish_run cpu _ deadlineNs progress rfl
  obtain ⟨second, ready, waiting, ticks, waited⟩ :=
    @ticks_run cpu armed (armed.registers.cntvCval - armed.registers.cntvct).toNat
  have still := (done.of_returned idle).1
  have reached : armed.registers.cntvct +
      (armed.registers.cntvCval - armed.registers.cntvct) = armed.registers.cntvCval := by
    rw [UInt64.add_comm, UInt64.sub_add_cancel]
  have deliverable : ready.registers.deliverable := by
    rw [Waited, UInt64.ofNat_toNat, reached] at waited
    rw [waited]
    refine ⟨⟨?_, ?_, UInt64.le_refl _⟩, still.line, inactive⟩
    · rw [still.control]
      decide
    · rw [still.control]
      decide
  have again : Step cpu ready .deliver { ready with registers :=
      { ready.registers with cntvCtl := 2, active := none } } := by
    simp only [Step, step, if_pos deliverable, irq_entry_delivered deliverable]
  refine ⟨first ++ second ++ [⟨ready, .deliver, _⟩], _, labels first ++ labels second,
    .snoc (run_append writing waiting) again, ?_, ?_⟩
  · simp [labels]
  · intro call member
    rcases List.mem_append.mp member with written | ticked
    · cases writes _ written
    · cases ticks _ ticked

/-- The protocol holds of every run whose deliveries miss the start of `arm_deadline`, and
every other delivery can be followed by a second one for no new deadline. -/
theorem one_shot (cpu : QemuVirtCpu) (slow : cpu.frequencyHz.toNat ≤ 10 ^ 9)
    {start : Machine} (quiet : Quiet start) :
    Protocol cpu (GuardedStep cpu) start ∧
    ∀ trace before after, Run (Step cpu) start trace before → Step cpu before .deliver after →
      arming before = true →
      ∃ path last between, Run (Step cpu) after path last ∧
        labels path = between ++ [.deliver] ∧ ∀ call, Event.begin call ∉ between := by
  refine ⟨⟨?_, ?_, ?_, ?_⟩, fun _ _ _ run taken early => refires quiet run taken early⟩
  · intro _ _ _ run taken
    exact delivery_due slow quiet (unguarded_run run) taken.1
  · intro _ _ _ _ run cut
    exact delivery_rearmed run cut
  · intro _ _ _ _ _ _ _ run cut noCall idle rest taken
    exact cancel_silences (unguarded_run run) cut noCall idle (unguarded_run rest) taken.1
  · intro _ _ _ _ _ _ _ run cut noCall undelivered idle rest uncancelled unseen
    exact arm_kept slow quiet (unguarded_run run) cut noCall undelivered idle (unguarded_run rest)
      uncancelled unseen

/-! ## A deadline that fires twice -/

def freshMachine : Machine where
  registers := ⟨0, 0, 0, fun _ => 0, none⟩
  call := none
  pending := []
  programmed := none

theorem fresh_machine_quiet : Quiet freshMachine :=
  ⟨by decide, by decide, rfl, rfl, rfl⟩

def virtCpu : QemuVirtCpu := ⟨62500000, 16, by decide, by decide⟩

theorem one_shot_virt : Protocol virtCpu (GuardedStep virtCpu) freshMachine :=
  (one_shot virtCpu (by decide) fresh_machine_quiet).1

/-- A deadline in the past replaces one still to come; the interrupt strikes between the
write of the comparator and that of the control register. -/
def rearmedInPast : List Event :=
  [.begin (.arm 1000000), .write, .write, .write, .begin (.arm 0), .write, .deliver, .write,
    .write, .deliver]

theorem past_deadline_fires_twice : ¬ Protocol virtCpu (Step virtCpu) freshMachine := by
  intro protocol
  obtain ⟨last, followed⟩ : ∃ last, follow (step virtCpu) freshMachine rearmedInPast = some last :=
    Option.isSome_iff_exists.mp (by decide)
  obtain ⟨trace, run, same⟩ := run_of_follow followed
  obtain ⟨deadlineNs, member⟩ := protocol.rearmed trace last _ [.write, .write] run
    (same.trans (show rearmedInPast = [.begin (.arm 1000000), .write, .write, .write,
      .begin (.arm 0), .write] ++ .deliver :: ([.write, .write] ++ [.deliver]) from rfl))
  simp at member

end Tyrne.OneShot
