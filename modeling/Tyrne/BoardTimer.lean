import Tyrne.InterruptRun
import Tyrne.Lib.Lockstep

/-!
# The one-shot deadline on the whole board

The timer wired to the controller, with `kernel_entry` before, other lines and tasks around,
and `irq_entry` access by access. What is seen of the timer is a run of the machine in which
an interrupt is delivered in one step, so what that machine promises the board keeps.
-/

namespace Tyrne.BoardTimer

open Tyrne.Lib.Runs
open Tyrne.Lib.Lockstep
open Tyrne.Timer (nsToTicks ns_to_ticks_value)
open Tyrne.Deadline (IrqNumber QemuVirtCpu Registers Write Machine timerIrq timerEnabled timerMasked
  lineOn lineOff arm_writes cancel_writes)
open Tyrne.Gic
open Tyrne.Interrupts
open Tyrne.OneShot (Quiet GuardedStep Protocol arming)

set_option autoImplicit false

/-! ## The board with its counter -/

structure Board where
  state : State
  cntvct : UInt64

inductive Happening where
  | tick
  | event (event : Interrupts.Event)

namespace Board

def raised (board : Board) : Prop :=
  timerEnabled board.state.cntvCtl ∧ ¬ timerMasked board.state.cntvCtl ∧
    board.state.cntvCval ≤ board.cntvct

instance (board : Board) : Decidable board.raised := inferInstanceAs (Decidable (_ ∧ _ ∧ _))

/-- The controller answers with the line of the timer only while it is raised. -/
def allows (board : Board) : Interrupts.Event → Bool
  | .reads raw => raw != timerIrq || decide board.raised
  | .calls _ | .lines _ | .acts | .taken _ | .handles => true

def next (cpu : QemuVirtCpu) (board : Board) : Happening → Option Board
  | .tick => some { board with cntvct := board.cntvct + 1 }
  | .event event =>
      if board.allows event then
        (Interrupts.next cpu board.state event).map fun state => { board with state := state }
      else none

end Board

def BoardStep (cpu : QemuVirtCpu) (before : Board) (happening : Happening) (after : Board) : Prop :=
  before.next cpu happening = some after

/-- No task turns the line of the timer on or off behind the back of the timer's driver.
Nothing in the controller's driver keeps a task from it. -/
def leavesTimer : Happening → Bool
  | .event (.calls (.enable irq)) | .event (.calls (.disable irq)) => irq != timerIrq
  | .tick | .event (.calls (.armDeadline _)) | .event (.calls .cancelDeadline)
  | .event (.calls (.restoreIrqState _)) | .event (.lines _) | .event .acts | .event (.taken _)
  | .event (.reads _) | .event .handles => true

def DriverStep (cpu : QemuVirtCpu) (before : Board) (happening : Happening) (after : Board) :
    Prop :=
  BoardStep cpu before happening after ∧ leavesTimer happening = true

/-! ## What is seen of the timer -/

def timerWrite : Action → Option Write
  | .msrCntvCval value => some (.cntvCval value)
  | .msrCntvCtl value => some (.cntvCtl value)
  | .line (.enable irq) => if irq = timerIrq then some lineOn else none
  | .line (.disable irq) => if irq = timerIrq then some lineOff else none
  | .msrVbarEl1 | .publishGic _ | .register _ | .msrDaifClr _ | .msrDaif _ => none

/-- The interrupt is delivered when the controller answers with its line. -/
def shown (taken : Transition Board Happening) : Option Deadline.Event :=
  match taken.label with
  | .tick => some .tick
  | .event (.calls (.armDeadline deadlineNs)) => some (.begin (.arm deadlineNs))
  | .event (.calls .cancelDeadline) => some (.begin .cancel)
  | .event .acts => (taken.before.state.program.head?.bind timerWrite).map fun _ => .write
  | .event (.reads raw) => if raw = timerIrq then some .deliver else none
  | .event (.calls (.enable _)) | .event (.calls (.disable _)) | .event (.calls (.restoreIrqState _))
  | .event (.lines _) | .event (.taken _) | .event .handles => none

/-- The control register, masked already once the handler has acknowledged the timer. -/
def seenControl (state : State) : UInt64 :=
  match state.frames with
  | ⟨_, .masksTimer _⟩ :: _ => 2
  | _ => state.cntvCtl

def Asked (cpu : QemuVirtCpu) (gic : QemuVirtGic) (reset : Gicv2) (program : List Action) : Prop :=
  ∃ whole, (whole = hardwareSetup gic reset ∨ ∃ request : Request, request.actions cpu = .ok whole) ∧
    program <:+ whole

/-- The small machine is where the board will be once the handler has masked the timer. -/
structure Shows (cpu : QemuVirtCpu) (gic : QemuVirtGic) (reset : Gicv2) (board : Board)
    (machine : Machine) : Prop where
  sound : ∃ trace, Sound gic reset trace board.state
  counter : machine.registers.cntvct = board.cntvct
  comparator : machine.registers.cntvCval = board.state.cntvCval
  control : machine.registers.cntvCtl = seenControl board.state
  line : machine.registers.irqEnabled timerIrq ↔
    board.state.bus.device.enabled timerIrq.toNat = true
  inactive : machine.registers.active = none
  pending : machine.pending = board.state.program.filterMap timerWrite
  asked : Asked cpu gic reset board.state.program

section Lemmas

variable {cpu : QemuVirtCpu} {gic : QemuVirtGic} {reset : Gicv2} {before after : Board}
  {machine : Machine}

theorem step_event {event : Interrupts.Event} (step : BoardStep cpu before (.event event) after) :
    before.allows event = true ∧ Interrupts.Step cpu before.state event after.state ∧
      after.cntvct = before.cntvct := by
  simp only [BoardStep, Board.next] at step
  split at step
  · next allowed =>
      rcases Option.map_eq_some_iff.mp step with ⟨state, stepped, rfl⟩
      exact ⟨allowed, stepped, rfl⟩
  · cases step

theorem init_write_spares {words : Nat} {write : RegisterWrite} (member : write ∈ initWrites words)
    {line : Nat} (banked : line < 32) (device : Gicv2) :
    (device.perform write).enabled line = device.enabled line := by
  simp only [initWrites, List.mem_append, List.mem_singleton] at member
  rcases member with rfl | disabled | priorities | targets | rfl | rfl | rfl
  · rfl
  · rcases List.mem_map.mp disabled with ⟨index, inside, rfl⟩
    have other : line / 32 ≠ index := by
      have first := (List.mem_range'_1.mp inside).1
      omega
    exact if_neg other
  · rcases List.mem_map.mp priorities with ⟨index, _, rfl⟩
    rfl
  · rcases List.mem_map.mp targets with ⟨index, _, rfl⟩
    rfl
  · rfl
  · rfl
  · rfl

theorem seen_outside {state : State} (outside : state.frames = []) :
    seenControl state = state.cntvCtl := by
  rw [seenControl, outside]

theorem Asked.rest {action : Action} {rest : List Action}
    (asked : Asked cpu gic reset (action :: rest)) : Asked cpu gic reset rest := by
  rcases asked with ⟨whole, source, suffix⟩
  exact ⟨whole, source, (List.suffix_cons action rest).trans suffix⟩

theorem arm_actions {deadlineNs : UInt64} {actions : List Action}
    (asked : (Request.armDeadline deadlineNs).actions cpu = .ok actions) :
    ∃ target, nsToTicks deadlineNs cpu.frequencyHz = .ok target ∧
      actions = [.msrCntvCval target, .msrCntvCtl 1, .line (.enable timerIrq)] := by
  obtain ⟨target, converted, _⟩ := ns_to_ticks_value cpu.positive deadlineNs
  rw [Request.actions, converted] at asked
  cases asked
  exact ⟨target, converted, rfl⟩

theorem Asked.line_last {call : Call} {rest : List Action}
    (asked : Asked cpu gic reset (.line call :: rest)) : rest = [] := by
  rcases asked with ⟨whole, rfl | ⟨request, source⟩, suffix⟩
  · have member : Action.line call ∈ hardwareSetup gic reset := suffix.mem List.mem_cons_self
    simp [hardwareSetup] at member
  · cases request with
    | armDeadline deadlineNs =>
        rcases arm_actions source with ⟨target, _, rfl⟩
        simp [List.suffix_cons_iff] at suffix
        exact suffix.2
    | cancelDeadline | enable | disable =>
        cases source
        simp [List.suffix_cons_iff] at suffix
        exact suffix.2
    | restoreIrqState =>
        cases source
        simp [List.suffix_cons_iff] at suffix

section Setup

variable {trace : InterruptTrace} {state : State} {rest : List Action}

theorem line_ready {call : Call} (sound : Sound gic reset trace state)
    (left : state.program = .line call :: rest) : Ready gic reset trace state := by
  cases sound.stage with
  | entered _ _ _ setup | installed _ _ _ _ setup => cases left.symm.trans setup
  | initialising _ _ _ _ _ writes _ _ setup => cases writes <;> cases left.symm.trans setup
  | ready ready => exact ready

theorem setup_write {write : RegisterWrite} (sound : Sound gic reset trace state)
    (left : state.program = .register write :: rest) :
    write ∈ initWrites (wordCount reset.gicdTyper) := by
  cases sound.stage with
  | entered _ _ _ setup | installed _ _ _ _ setup => cases left.symm.trans setup
  | initialising _ _ _ _ made writes split _ setup =>
      cases writes with
      | nil => cases left.symm.trans setup
      | cons first others =>
          cases left.symm.trans setup
          rw [← init_log gic, split]
          exact List.mem_append_right _ List.mem_cons_self
  | ready ready => cases ready.tasks (.register write) (by rw [left]; exact List.mem_cons_self)

end Setup

/-! ## What one step shows -/

theorem Shows.hidden (shows : Shows cpu gic reset before machine)
    (sound : ∃ trace, Sound gic reset trace after.state) (counter : after.cntvct = before.cntvct)
    (comparator : after.state.cntvCval = before.state.cntvCval)
    (control : seenControl after.state = seenControl before.state)
    (line : after.state.bus.device.enabled timerIrq.toNat =
      before.state.bus.device.enabled timerIrq.toNat)
    (pending : after.state.program.filterMap timerWrite =
      before.state.program.filterMap timerWrite)
    (asked : Asked cpu gic reset after.state.program) : Shows cpu gic reset after machine := by
  constructor
  · exact sound
  · rw [counter]
    exact shows.counter
  · rw [comparator]
    exact shows.comparator
  · rw [control]
    exact shows.control
  · rw [line]
    exact shows.line
  · exact shows.inactive
  · rw [pending]
    exact shows.pending
  · exact asked

theorem write_taken {write : Write} {rest : List Write} (waiting : machine.pending = write :: rest) :
    Deadline.Step cpu machine .write (machine.write write rest) := by
  simp only [Deadline.Step, Deadline.step, waiting]

theorem irq_enabled_off (registers : Registers) :
    ¬ (lineOff.perform registers).irqEnabled timerIrq := by
  simp [Registers.irqEnabled, lineOff, Write.perform, timerIrq]

theorem Shows.line_call {call : Call} {rest : List Action} {write : Write}
    (shows : Shows cpu gic reset before machine) {trace : InterruptTrace}
    (ready : Ready gic reset trace before.state) (left : before.state.program = .line call :: rest)
    (outside : before.state.frames = []) (same : timerWrite (.line call) = some write)
    (sound : ∃ trace, Sound gic reset trace
      ({ before.state with program := rest }.perform (.line call))) :
    Shows cpu gic reset ⟨{ before.state with program := rest }.perform (.line call), before.cntvct⟩
      (machine.write write (rest.filterMap timerWrite)) := by
  have control := shows.control
  rw [seen_outside outside] at control
  have asked := shows.asked
  rw [left] at asked
  have own : call.irq = timerIrq ∧
      ((write.perform machine.registers).irqEnabled timerIrq ↔ call.turnsOn = true) ∧
      (write.perform machine.registers).cntvct = machine.registers.cntvct ∧
      (write.perform machine.registers).cntvCval = machine.registers.cntvCval ∧
      (write.perform machine.registers).cntvCtl = machine.registers.cntvCtl ∧
      (write.perform machine.registers).active = machine.registers.active := by
    cases call with
    | enable irq =>
        simp only [timerWrite] at same
        split at same
        · next mine =>
            cases same
            exact ⟨mine, iff_of_true (OneShot.irq_enabled_on _) rfl, rfl, rfl, rfl, rfl⟩
        · cases same
    | disable irq =>
        simp only [timerWrite] at same
        split at same
        · next mine =>
            cases same
            exact ⟨mine, iff_of_false (irq_enabled_off _) Bool.false_ne_true, rfl, rfl, rfl, rfl⟩
        · cases same
  rcases own with ⟨mine, line, counter, comparator, controlSame, inactive⟩
  have valid : call.irq < Deadline.gicMaxIrq := by
    rw [mine]
    decide
  have step : CallStep gic before.state.bus call (before.state.bus.performAll [call.write]) :=
    call_returns valid before.state.bus
  have turned : (before.state.bus.performAll [call.write]).device.enabled timerIrq.toNat =
      call.turnsOn := by
    rw [step.device, ← mine]
    exact Function.update_self _ _ _
  rw [ready.performed_line valid rest] at sound ⊢
  constructor
  · exact sound
  · exact counter.trans shows.counter
  · exact comparator.trans shows.comparator
  · exact (controlSame.trans control).trans (seen_outside outside).symm
  · rw [turned]
    exact line
  · exact inactive.trans shows.inactive
  · rfl
  · exact asked.rest

theorem Shows.other_line {call : Call} {rest : List Action}
    (shows : Shows cpu gic reset before machine) {trace : InterruptTrace}
    (ready : Ready gic reset trace before.state) (left : before.state.program = .line call :: rest)
    (outside : before.state.frames = []) (other : timerWrite (.line call) = none)
    (sound : ∃ trace, Sound gic reset trace
      ({ before.state with program := rest }.perform (.line call))) :
    Shows cpu gic reset ⟨{ before.state with program := rest }.perform (.line call), before.cntvct⟩
      machine := by
  have asked := shows.asked
  rw [left] at asked
  have last := asked.line_last
  subst last
  have apart : timerIrq.toNat ≠ call.line := by
    intro clash
    have mine : call.irq = timerIrq := (UInt32.toNat_inj.mp clash).symm
    cases call with
    | enable irq => exact absurd (other.symm.trans (if_pos mine)) (by simp)
    | disable irq => exact absurd (other.symm.trans (if_pos mine)) (by simp)
  have nothing : before.state.program.filterMap timerWrite = [] := by
    rw [left, List.filterMap_cons, other]
    rfl
  by_cases valid : call.irq < Deadline.gicMaxIrq
  · have step : CallStep gic before.state.bus call (before.state.bus.performAll [call.write]) :=
      call_returns valid before.state.bus
    rw [ready.performed_line valid []] at sound ⊢
    refine shows.hidden sound rfl rfl ?_ ?_ ?_ ?_
    · exact (seen_outside outside).trans (seen_outside outside).symm
    · rw [step.device]
      exact Function.update_of_ne apart _ _
    · exact nothing.symm
    · exact asked.rest
  · rw [ready.performed_panics valid []] at sound ⊢
    refine shows.hidden sound rfl rfl ?_ ?_ ?_ ?_
    · exact (seen_outside outside).trans (seen_outside outside).symm
    · rfl
    · exact nothing.symm
    · exact asked.rest

theorem Shows.acts (shows : Shows cpu gic reset before machine)
    (step : BoardStep cpu before (.event .acts) after) :
    ∃ later, Shown (Deadline.Step cpu) machine (shown ⟨before, .event .acts, after⟩) later ∧
      Shows cpu gic reset after later := by
  rcases step_event step with ⟨_, acted, counter⟩
  rcases after with ⟨state, cntvct⟩
  subst counter
  rcases shows.sound with ⟨trace, sound⟩
  have onward : ∃ trace, Sound gic reset trace state := ⟨_, sound.step acted⟩
  rcases step_acts acted with ⟨action, rest, left, outside, rfl⟩
  have asked := shows.asked
  rw [left] at asked
  have control := shows.control
  rw [seen_outside outside] at control
  have pending := shows.pending
  rw [left, List.filterMap_cons] at pending
  have label : shown ⟨before, .event .acts, ⟨{ before.state with program := rest }.perform action,
      before.cntvct⟩⟩ = (timerWrite action).map fun _ => .write := by
    rw [shown, left]
    rfl
  rw [label]
  cases action with
  | msrCntvCval value =>
      refine ⟨_, .step (write_taken pending), onward, shows.counter, rfl, ?_, shows.line,
        shows.inactive, rfl, asked.rest⟩
      exact control.trans (seen_outside outside).symm
  | msrCntvCtl value =>
      have written : seenControl ({ before.state with program := rest }.perform (.msrCntvCtl value)) =
          value := seen_outside outside
      exact ⟨_, .step (write_taken pending), onward, shows.counter, shows.comparator, written.symm,
        shows.line, shows.inactive, rfl, asked.rest⟩
  | line call =>
      have ready := line_ready sound left
      generalize same : timerWrite (.line call) = write at pending
      cases write with
      | none => exact ⟨machine, .stutter, shows.other_line ready left outside same onward⟩
      | some write =>
          exact ⟨_, .step (write_taken pending), shows.line_call ready left outside same onward⟩
  | register write =>
      refine ⟨machine, .stutter, shows.hidden onward rfl rfl ?_ ?_ ?_ asked.rest⟩
      · exact (seen_outside outside).trans (seen_outside outside).symm
      · exact init_write_spares (setup_write sound left) (by decide) _
      · rw [left]
        rfl
  | msrVbarEl1 | publishGic | msrDaifClr | msrDaif =>
      refine ⟨machine, .stutter, shows.hidden onward rfl rfl ?_ rfl ?_ asked.rest⟩
      · exact (seen_outside outside).trans (seen_outside outside).symm
      · rw [left]
        rfl

theorem Shows.calls {request : Request} (shows : Shows cpu gic reset before machine)
    (step : BoardStep cpu before (.event (.calls request)) after)
    (leaves : leavesTimer (.event (.calls request)) = true) :
    ∃ later, Shown (Deadline.Step cpu) machine
      (shown ⟨before, .event (.calls request), after⟩) later ∧
      Shows cpu gic reset after later := by
  rcases step_event step with ⟨_, called, counter⟩
  rcases after with ⟨state, cntvct⟩
  subst counter
  rcases shows.sound with ⟨trace, sound⟩
  have onward : ∃ trace, Sound gic reset trace state := ⟨_, sound.step called⟩
  rcases step_calls_begun called with ⟨actions, source, idle, _, _, rfl⟩
  have asked : Asked cpu gic reset actions := ⟨actions, .inr ⟨request, source⟩, List.suffix_refl _⟩
  have waiting : machine.pending = [] := by
    rw [shows.pending, idle]
    rfl
  cases request with
  | armDeadline deadlineNs =>
      rcases arm_actions source with ⟨target, converted, rfl⟩
      obtain ⟨other, same, writes⟩ := arm_writes cpu deadlineNs
      cases converted.symm.trans same
      have begun : Deadline.Step cpu machine (.begin (.arm deadlineNs)) { machine with
          call := some (.arm deadlineNs), pending := [.cntvCval target, .cntvCtl 1, lineOn] } := by
        simp only [Deadline.Step, Deadline.step, waiting, Deadline.Call.writes, writes]
      exact ⟨_, .step begun, onward, shows.counter, shows.comparator, shows.control, shows.line,
        shows.inactive, rfl, asked⟩
  | cancelDeadline =>
      cases source
      have begun : Deadline.Step cpu machine (.begin .cancel) { machine with
          call := some .cancel, pending := [.cntvCtl 2, lineOff] } := by
        simp only [Deadline.Step, Deadline.step, waiting, Deadline.Call.writes, cancel_writes]
      exact ⟨_, .step begun, onward, shows.counter, shows.comparator, shows.control, shows.line,
        shows.inactive, rfl, asked⟩
  | enable irq | disable irq =>
      have other : ¬ irq = timerIrq := by simpa [leavesTimer] using leaves
      cases source
      refine ⟨machine, .stutter, shows.hidden onward rfl rfl rfl rfl ?_ asked⟩
      rw [idle, List.filterMap_cons, timerWrite, if_neg other]
  | restoreIrqState bits =>
      cases source
      refine ⟨machine, .stutter, shows.hidden onward rfl rfl rfl rfl ?_ asked⟩
      rw [idle]
      rfl

theorem Shows.delivers {savedDaif : BitVec 4} {outer : List Frame}
    (shows : Shows cpu gic reset before machine) (raised : before.raised)
    (here : before.state.frames = ⟨savedDaif, .acknowledges⟩ :: outer)
    (answered : before.state.answers timerIrq = true)
    (sound : ∃ trace, Sound gic reset trace
      (before.state.readIar timerIrq ⟨savedDaif, .acknowledges⟩ outer)) :
    Deadline.Step cpu machine .deliver { machine with
        registers := { machine.registers with cntvCtl := 2, active := none } } ∧
      Shows cpu gic reset ⟨before.state.readIar timerIrq ⟨savedDaif, .acknowledges⟩ outer, before.cntvct⟩
        { machine with registers := { machine.registers with cntvCtl := 2, active := none } } := by
  have control : machine.registers.cntvCtl = before.state.cntvCtl := by
    rw [shows.control, seenControl, here]
  have deliverable : machine.registers.deliverable := by
    refine ⟨?_, ?_, shows.inactive⟩
    · rw [Registers.asserted, control, shows.comparator, shows.counter]
      exact raised
    · rcases answered_line answered with spurious | ⟨_, _, on⟩
      · cases spurious
      · exact shows.line.mpr on
  constructor
  · simp only [Deadline.Step, Deadline.step, if_pos deliverable,
      Deadline.irq_entry_delivered deliverable]
  · exact ⟨sound, shows.counter, shows.comparator, rfl, shows.line, rfl, shows.pending, shows.asked⟩

theorem Shows.reads {raw : UInt32} (shows : Shows cpu gic reset before machine)
    (step : BoardStep cpu before (.event (.reads raw)) after) :
    ∃ later, Shown (Deadline.Step cpu) machine (shown ⟨before, .event (.reads raw), after⟩) later ∧
      Shows cpu gic reset after later := by
  rcases step_event step with ⟨allowed, read, counter⟩
  rcases after with ⟨state, cntvct⟩
  subst counter
  rcases shows.sound with ⟨trace, sound⟩
  have onward : ∃ trace, Sound gic reset trace state := ⟨_, sound.step read⟩
  rcases step_reads read with ⟨savedDaif, outer, here, ⟨unpublished, _⟩ | ⟨answered, rfl⟩⟩
  · have ready := sound.stage.is_ready (.inl (by rw [here]; exact List.cons_ne_nil _ _))
    cases ready.published.symm.trans unpublished
  · by_cases timer : raw = timerIrq
    · subst timer
      have raised : before.raised := by simpa [Board.allows] using allowed
      rcases shows.delivers raised here answered onward with ⟨delivered, shown⟩
      exact ⟨_, .step delivered, shown⟩
    · have label : shown ⟨before, .event (.reads raw),
          ⟨before.state.readIar raw ⟨savedDaif, .acknowledges⟩ outer, before.cntvct⟩⟩ = none :=
        if_neg timer
      rw [label]
      refine ⟨machine, .stutter, shows.hidden onward rfl rfl ?_ rfl rfl shows.asked⟩
      have earlier : seenControl before.state = before.state.cntvCtl := by rw [seenControl, here]
      rw [earlier]
      change seenControl (before.state.readIar raw ⟨savedDaif, .acknowledges⟩ outer) = _
      rcases answered_line answered with spurious | ⟨known, _, _⟩
      · rw [seenControl, State.readIar, spurious, acknowledge_spurious, dispatch]
      · rw [seenControl, State.readIar, known, dispatch, if_neg timer]

theorem Shows.handles (shows : Shows cpu gic reset before machine)
    (step : BoardStep cpu before (.event .handles) after) :
    ∃ later, Shown (Deadline.Step cpu) machine (shown ⟨before, .event .handles, after⟩) later ∧
      Shows cpu gic reset after later := by
  rcases step_event step with ⟨_, handled, counter⟩
  rcases after with ⟨state, cntvct⟩
  subst counter
  rcases shows.sound with ⟨trace, sound⟩
  have onward : ∃ trace, Sound gic reset trace state := ⟨_, sound.step handled⟩
  rcases step_handles handled with ⟨⟨savedDaif, point⟩, outer, here, went⟩
  refine ⟨machine, .stutter, ?_⟩
  cases point with
  | acknowledges | panicked => cases went
  | masksTimer irq =>
      have earlier : seenControl before.state = 2 := by rw [seenControl, here]
      cases went
      exact shows.hidden onward rfl rfl earlier.symm rfl rfl shows.asked
  | endsTimer irq | endsUnhandled irq =>
      have earlier : seenControl before.state = before.state.cntvCtl := by rw [seenControl, here]
      cases went
      exact shows.hidden onward rfl rfl earlier.symm rfl rfl shows.asked
  | returns =>
      have earlier : seenControl before.state = before.state.cntvCtl := by rw [seenControl, here]
      have alone : outer = [] := by
        rcases sound.handling.single with outside | ⟨frame, single, _⟩
        · cases outside.symm.trans here
        · cases single.symm.trans here
          rfl
      cases went
      refine shows.hidden onward rfl rfl ?_ rfl rfl shows.asked
      exact (seen_outside alone).trans earlier.symm

theorem Shows.step {happening : Happening} (shows : Shows cpu gic reset before machine)
    (step : DriverStep cpu before happening after) :
    ∃ later, Shown (Deadline.Step cpu) machine (shown ⟨before, happening, after⟩) later ∧
      Shows cpu gic reset after later := by
  rcases step with ⟨step, leaves⟩
  cases happening with
  | tick =>
      cases step
      have counted : machine.registers.cntvct + 1 = before.cntvct + 1 := by rw [shows.counter]
      exact ⟨_, .step rfl, shows.sound, counted, shows.comparator, shows.control, shows.line,
        shows.inactive, shows.pending, shows.asked⟩
  | event event =>
      cases event with
      | acts => exact shows.acts step
      | calls request => exact shows.calls step leaves
      | reads raw => exact shows.reads step
      | handles => exact shows.handles step
      | lines pending =>
          rcases step_event step with ⟨_, went, counter⟩
          rcases after with ⟨state, cntvct⟩
          subst counter
          rcases shows.sound with ⟨trace, sound⟩
          have onward : ∃ trace, Sound gic reset trace state := ⟨_, sound.step went⟩
          cases went
          exact ⟨machine, .stutter, shows.hidden onward rfl rfl rfl rfl rfl shows.asked⟩
      | taken line =>
          rcases step_event step with ⟨_, went, counter⟩
          rcases after with ⟨state, cntvct⟩
          subst counter
          rcases shows.sound with ⟨trace, sound⟩
          have onward : ∃ trace, Sound gic reset trace state := ⟨_, sound.step went⟩
          rcases step_taken went with ⟨unmasked, _, rfl⟩
          rcases sound.unmasked unmasked with ⟨ready, outside⟩
          rw [State.takeIrq, if_pos ready.vectors] at onward ⊢
          refine ⟨machine, .stutter, shows.hidden onward rfl rfl ?_ rfl rfl shows.asked⟩
          exact (seen_outside outside).symm

end Lemmas

end Tyrne.BoardTimer
