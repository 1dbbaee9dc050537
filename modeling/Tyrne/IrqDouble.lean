import Mathlib.Data.Finset.Basic
import Mathlib.Data.List.ReduceOption
import Tyrne.InterruptRun
import Tyrne.Lib.Fifo

/-!
# The interrupt controller of the host tests

`FakeIrqController` of `test-hal/src/irq_controller.rs`, in a test that makes the calls that
reach the controller of the board, those of the tasks and those of `irq_entry` between them,
and injects what it likes wherever it likes.
-/

namespace Tyrne.IrqDouble

open Tyrne.Lib.Runs
open Tyrne.Lib.Fifo
open Tyrne.Deadline (IrqNumber QemuVirtCpu gicMaxIrq gicSpuriousIntid)
open Tyrne.Gic
open Tyrne.Interrupts

set_option autoImplicit false

structure FakeIrqController where
  enabled : Finset IrqNumber
  pending : List IrqNumber
  eoiHistory : List IrqNumber
  deriving DecidableEq

namespace FakeIrqController

def new : FakeIrqController := ⟨∅, [], []⟩

def inject (irq : IrqNumber) (double : FakeIrqController) : FakeIrqController :=
  { double with pending := double.pending ++ [irq] }

def enable (irq : IrqNumber) (double : FakeIrqController) : FakeIrqController :=
  { double with enabled := insert irq double.enabled }

def disable (irq : IrqNumber) (double : FakeIrqController) : FakeIrqController :=
  { double with enabled := double.enabled.erase irq }

def acknowledge (double : FakeIrqController) : Option IrqNumber × FakeIrqController :=
  (double.pending.head?, { double with pending := double.pending.tail })

def endOfInterrupt (irq : IrqNumber) (double : FakeIrqController) : FakeIrqController :=
  { double with eoiHistory := double.eoiHistory ++ [irq] }

end FakeIrqController

/-- The calls of the `IrqController` trait. -/
inductive ControllerCall where
  | line (call : Call)
  | acknowledge
  | endOfInterrupt (irq : IrqNumber)
  deriving DecidableEq

def FakeIrqController.perform (double : FakeIrqController) : ControllerCall → FakeIrqController
  | .line (.enable irq) => double.enable irq
  | .line (.disable irq) => double.disable irq
  | .acknowledge => double.acknowledge.2
  | .endOfInterrupt irq => double.endOfInterrupt irq

def ControllerCall.onLine? : ControllerCall → Option Call
  | .line call => some call
  | .acknowledge | .endOfInterrupt _ => none

def ControllerCall.ends? : ControllerCall → Option IrqNumber
  | .endOfInterrupt irq => some irq
  | .line _ | .acknowledge => none

inductive TestCall where
  | inject (irq : IrqNumber)
  | trait (call : ControllerCall)

/-- The double in a test, with what it has answered. -/
structure Tested where
  double : FakeIrqController
  answers : List (Option IrqNumber)

def Tested.perform (tested : Tested) : TestCall → Tested
  | .inject irq => { tested with double := tested.double.inject irq }
  | .trait .acknowledge =>
      ⟨tested.double.acknowledge.2, tested.answers ++ [tested.double.acknowledge.1]⟩
  | .trait call => { tested with double := tested.double.perform call }

def tested (script : List TestCall) : Tested := script.foldl Tested.perform ⟨.new, []⟩

/-- How much of what a test has injected is waiting, and which acknowledgements have found
something waiting. -/
abbrev Supply := Nat × List Bool

def Supply.perform (sofar : Supply) : TestCall → Supply
  | .inject _ => (sofar.1 + 1, sofar.2)
  | .trait .acknowledge => (sofar.1 - 1, sofar.2 ++ [decide (0 < sofar.1)])
  | .trait (.line _) | .trait (.endOfInterrupt _) => sofar

/-- The lines that these calls leave enabled, from none. -/
def leftOn (calls : List ControllerCall) (irq : IrqNumber) : Bool :=
  (calls.filterMap ControllerCall.onLine?).foldl
    (fun on call => Function.update on call.irq call.turnsOn) (fun _ => false) irq

/-! ## What a test does to the double -/

section Scripts

variable {script : List TestCall}

theorem left_on_snoc (calls : List ControllerCall) (call : Call) :
    leftOn (calls ++ [.line call]) = Function.update (leftOn calls) call.irq call.turnsOn := by
  funext irq
  rw [leftOn, List.filterMap_append, List.foldl_append]
  rfl

theorem left_on_other (calls : List ControllerCall) {call : ControllerCall}
    (other : call.onLine? = none) : leftOn (calls ++ [call]) = leftOn calls := by
  funext irq
  rw [leftOn, filter_map_snoc, other, Option.toList_none, List.append_nil]
  rfl

theorem entries_length {left right : List (Option IrqNumber)}
    (gaps : left.map Option.isSome = right.map Option.isSome) :
    left.reduceOption.length = right.reduceOption.length := by
  have counted : ∀ list : List (Option IrqNumber),
      list.reduceOption.length = (list.map Option.isSome).count true := by
    intro list
    rw [List.reduceOption_length_eq, List.count, List.countP_map, List.countP_eq_length_filter]
    congr 2
    funext entry
    cases entry <;> rfl
  rw [counted, counted, gaps]

end Scripts

/-! ## Beside the board -/

def lineOf : Action → Option Call
  | .line call => some call
  | .msrVbarEl1 | .publishGic _ | .register _ | .msrDaifClr _ | .msrDaif _ | .msrCntvCval _
  | .msrCntvCtl _ => none

/-- The call for a line that the transition makes. -/
def lineCall (taken : Transition State Event) : Option Call :=
  match taken.label with
  | .acts => taken.before.program.head?.bind lineOf
  | .lines _ | .calls _ | .taken _ | .reads _ | .handles => none

/-- The interrupt that the next step of the handler ends. -/
def ending (state : State) : Option IrqNumber :=
  state.frames.head?.bind fun frame =>
    match frame.point with
    | .endsTimer irq | .endsUnhandled irq => some irq
    | .acknowledges | .masksTimer _ | .returns | .panicked _ => none

/-- The call of the trait that the transition makes. -/
def madeCall (taken : Transition State Event) : Option ControllerCall :=
  match taken.label with
  | .acts => (lineCall taken).map .line
  | .reads _ => some .acknowledge
  | .handles => (ending taken.before).map .endOfInterrupt
  | .lines _ | .calls _ | .taken _ => none

/-- What the driver of the board makes of the answer of the controller. -/
def answered (taken : Transition State Event) : Option (Option IrqNumber) :=
  match taken.label with
  | .reads raw => some (acknowledge raw)
  | .acts | .lines _ | .calls _ | .taken _ | .handles => none

def Access.ended : Access → Option IrqNumber
  | .eoir irq => some irq
  | .iar _ => none

/-- `init` turns the line off, or finds it off. -/
def StartsOff (reset : Gicv2) (line : Nat) : Prop :=
  reset.enabled line = false ∨ (32 ≤ line ∧ line < 32 * wordCount reset.gicdTyper)

/-- What the enable bits have to do with the calls for lines. -/
inductive Lines (reset : Gicv2) (state : State) (on : IrqNumber → Bool) : Prop where
  | settingUp (left : Action.msrDaifClr 0x2 ∈ state.program) (fresh : ∀ irq, on irq = false)
  | ready (unmasked : Action.msrDaifClr 0x2 ∉ state.program)
      (same : ∀ irq, irq < gicMaxIrq → StartsOff reset irq.toNat →
        state.bus.device.enabled irq.toNat = on irq)

/-- Where the board is after these calls. -/
structure Beside (reset : Gicv2) (calls : List ControllerCall) (state : State) : Prop where
  ended : calls.filterMap ControllerCall.ends? = state.accesses.filterMap Access.ended
  halts : state.halted = true ↔ ∃ call, ControllerCall.line call ∈ calls ∧ gicMaxIrq ≤ call.irq
  stopped : state.halted = true → state.program = []
  lines : Lines reset state (leftOn calls)

section Lemmas

variable {cpu : QemuVirtCpu} {gic : QemuVirtGic} {reset : Gicv2} {trace : InterruptTrace}
  {made : List ControllerCall} {before after : State}

theorem starts_off_no_origin {line : Nat} (startsOff : StartsOff reset line) :
    ¬ Origin reset [] line := by
  rintro (⟨taken, member, _⟩ | ⟨on, outside⟩)
  · cases member
  · rcases startsOff with off | inside
    · cases on.symm.trans off
    · omega

theorem Lines.of_same {on other : IrqNumber → Bool} (lines : Lines reset before on)
    (program : after.program = before.program) (bus : after.bus = before.bus)
    (same : other = on) : Lines reset after other := by
  subst same
  cases lines with
  | settingUp waiting fresh => exact .settingUp (by rw [program]; exact waiting) fresh
  | ready unmasked same =>
      refine .ready (by rw [program]; exact unmasked) ?_
      rw [bus]
      exact same

/-! ## What one event does to the board -/

theorem Beside.running (beside : Beside reset made before) (busy : before.program ≠ []) :
    before.halted = false := by
  by_contra other
  exact busy (beside.stopped (Bool.eq_true_of_not_eq_false other))

theorem performed_plain {action : Action} (plain : lineOf action = none) (state : State) :
    (state.perform action).halted = state.halted ∧
      (state.perform action).program = state.program := by
  cases action with
  | line call => cases plain
  | msrVbarEl1 | publishGic | register | msrDaifClr | msrDaif | msrCntvCval | msrCntvCtl =>
      exact ⟨rfl, rfl⟩

theorem Beside.plain {action : Action} {rest : List Action}
    (beside : Beside reset made before) (left : before.program = action :: rest)
    (plain : lineOf action = none)
    (lines : Lines reset ({ before with program := rest }.perform action) (leftOn made)) :
    Beside reset made ({ before with program := rest }.perform action) := by
  have running := beside.running (by rw [left]; exact List.cons_ne_nil _ _)
  rcases performed_plain plain { before with program := rest } with ⟨halted, _⟩
  constructor
  · rw [(performed_alone _ _).2.2]
    exact beside.ended
  · rw [halted]
    exact beside.halts
  · intro stopped
    rw [halted, running] at stopped
    cases stopped
  · exact lines

theorem Beside.line {call : Call} {rest : List Action} (beside : Beside reset made before)
    (ready : Ready gic reset trace before) (left : before.program = .line call :: rest)
    (unmasked : Action.msrDaifClr 0x2 ∉ before.program)
    (same : ∀ irq, irq < gicMaxIrq → StartsOff reset irq.toNat →
      before.bus.device.enabled irq.toNat = leftOn made irq) :
    Beside reset (made ++ [.line call]) ({ before with program := rest }.perform (.line call)) := by
  have running := beside.running (by rw [left]; exact List.cons_ne_nil _ _)
  have sofar : ¬ ∃ call, ControllerCall.line call ∈ made ∧ gicMaxIrq ≤ call.irq := by
    rw [← beside.halts, running]
    exact Bool.false_ne_true
  have ended : (made ++ [ControllerCall.line call]).filterMap ControllerCall.ends? =
      before.accesses.filterMap Access.ended := by
    rw [List.filterMap_append, ← beside.ended]
    exact List.append_nil _
  rw [left] at unmasked
  by_cases valid : call.irq < gicMaxIrq
  · have ran : CallStep gic before.bus call (before.bus.performAll [call.write]) :=
      call_returns valid before.bus
    have device := CallStep.device ran
    rw [ready.performed_line valid]
    refine ⟨ended, ?_, ?_, ?_⟩
    · rw [running]
      constructor
      · intro halted
        cases halted
      · rintro ⟨other, member, outside⟩
        rcases List.mem_append.mp member with before | now
        · exact absurd ⟨other, before, outside⟩ sofar
        · cases List.mem_singleton.mp now
          exact absurd valid (UInt32.not_lt.mpr outside)
    · intro halted
      exact absurd (halted.symm.trans running) (by decide)
    · refine .ready (fun member => unmasked (List.mem_cons_of_mem _ member)) ?_
      intro irq inRange startsOff
      rw [device, left_on_snoc]
      by_cases named : irq = call.irq
      · subst named
        rw [Function.update_self]
        exact Function.update_self _ _ _
      · have apart : irq.toNat ≠ call.line := fun clash => named (UInt32.toNat_inj.mp clash)
        rw [Function.update_of_ne named]
        exact (Function.update_of_ne apart _ _).trans (same irq inRange startsOff)
  · have outside : gicMaxIrq ≤ call.irq := UInt32.not_lt.mp valid
    rw [ready.performed_panics valid]
    refine ⟨ended, ?_, fun _ => rfl, ?_⟩
    · constructor
      · intro _
        exact ⟨call, List.mem_append_right _ (List.mem_singleton_self _), outside⟩
      · intro _
        rfl
    · refine .ready List.not_mem_nil ?_
      intro irq inRange startsOff
      have apart : irq ≠ call.irq := by
        rintro rfl
        exact valid inRange
      rw [left_on_snoc, Function.update_of_ne apart]
      exact same irq inRange startsOff

theorem made_line {action : Action} {rest : List Action}
    (left : before.program = action :: rest) :
    madeCall ⟨before, .acts, after⟩ = (lineOf action).map .line := by
  simp only [madeCall, lineCall, left, List.head?_cons, Option.bind_some]

theorem Beside.acts (beside : Beside reset made before) (sound : Sound gic reset trace before)
    (step : Step cpu before .acts after) :
    Beside reset (made ++ (madeCall ⟨before, .acts, after⟩).toList) after := by
  rcases step_acts step with ⟨action, rest, left, _, rfl⟩
  rw [made_line left]
  cases beside.lines with
  | settingUp waiting fresh =>
      have plain : lineOf action = none := by
        cases sound.stage with
        | entered _ _ _ setup | installed _ _ _ _ setup =>
            rw [left] at setup
            cases setup
            rfl
        | initialising _ _ _ _ _ writes _ _ setup =>
            rw [left] at setup
            cases writes <;> cases setup <;> rfl
        | ready ready => cases ready.tasks _ waiting
      rw [plain, Option.map_none, Option.toList_none, List.append_nil]
      apply beside.plain left plain
      cases sound.stage with
      | entered _ _ _ setup =>
          rw [left] at setup
          cases setup
          exact .settingUp (by simp [State.perform]) fresh
      | installed _ _ _ _ setup =>
          rw [left] at setup
          cases setup
          exact .settingUp (by simp [State.perform]) fresh
      | initialising _ _ _ _ early writes split performed setup =>
          rw [left] at setup
          cases writes with
          | cons write writes =>
              cases setup
              exact .settingUp (by simp [State.perform]) fresh
          | nil =>
              cases setup
              rw [List.append_nil] at split
              refine .ready List.not_mem_nil ?_
              intro irq _ startsOff
              have off : ¬ before.bus.device.enabled irq.toNat = true := by
                rw [performed, ← split]
                exact fun on => starts_off_no_origin startsOff (initialised_lines on)
              rw [fresh]
              exact Bool.eq_false_iff.mpr off
      | ready ready => cases ready.tasks _ waiting
  | ready unmasked same =>
      have ready : Ready gic reset trace before := by
        cases sound.stage with
        | entered _ _ _ setup | installed _ _ _ _ setup | initialising _ _ _ _ _ _ _ _ setup =>
            rw [setup] at unmasked
            simp [hardwareSetup] at unmasked
        | ready ready => exact ready
      have own := ready.tasks action (by rw [left]; exact List.mem_cons_self)
      have later : Action.msrDaifClr 0x2 ∉ rest := fun member =>
        unmasked (by rw [left]; exact List.mem_cons_of_mem _ member)
      cases action with
      | line call => exact beside.line ready left unmasked same
      | msrDaif | msrCntvCval | msrCntvCtl =>
          rw [lineOf, Option.map_none, Option.toList_none, List.append_nil]
          exact beside.plain left rfl (.ready later same)
      | msrVbarEl1 | publishGic | register | msrDaifClr => cases own

theorem Beside.kept (beside : Beside reset made before)
    (accesses : after.accesses = before.accesses) (halted : after.halted = before.halted)
    (program : after.program = before.program) (bus : after.bus = before.bus) :
    Beside reset made after := by
  constructor
  · rw [accesses]
    exact beside.ended
  · rw [halted]
    exact beside.halts
  · rw [halted, program]
    exact beside.stopped
  · exact beside.lines.of_same program bus rfl

theorem Beside.calls {request : Request} (beside : Beside reset made before)
    (step : Step cpu before (.calls request) after) : Beside reset made after := by
  obtain ⟨actions, asked, idle, _, running, rfl⟩ := step_calls_begun step
  have tasks := @Request.actions_from_task cpu reset [⟨before, .calls request, before⟩] _ _ asked
    fun irq enables => .inl ⟨_, List.mem_singleton_self _, request, irq, rfl, enables, rfl⟩
  refine ⟨beside.ended, beside.halts, ?_, ?_⟩
  · intro halted
    cases running.symm.trans halted
  · cases beside.lines with
    | settingUp waiting _ =>
        rw [idle] at waiting
        cases waiting
    | ready _ same => exact .ready (fun member => nomatch tasks _ member) same

theorem Beside.reads {raw : UInt32} (beside : Beside reset made before)
    (sound : Sound gic reset trace before) (step : Step cpu before (.reads raw) after) :
    Beside reset (made ++ [.acknowledge]) after := by
  rcases step_reads step with ⟨savedDaif, outer, here, came⟩
  have ready := sound.stage.is_ready (.inl (by rw [here]; exact List.cons_ne_nil _ _))
  rcases came with ⟨unpublished, rfl⟩ | ⟨_, rfl⟩
  · cases ready.published.symm.trans unpublished
  · constructor
    · rw [State.readIar, List.filterMap_append, List.filterMap_append, ← beside.ended]
      rfl
    · simp only [List.mem_append, List.mem_singleton, reduceCtorEq, or_false]
      exact beside.halts
    · exact beside.stopped
    · exact beside.lines.of_same rfl rfl (left_on_other made rfl)

theorem Beside.ends {irq : IrqNumber} {frame : Frame} {outer : List Frame}
    (beside : Beside reset made before) :
    Beside reset (made ++ [.endOfInterrupt irq]) (before.writeEoir irq frame outer) := by
  constructor
  · rw [State.writeEoir, List.filterMap_append, List.filterMap_append, ← beside.ended]
    rfl
  · simp only [List.mem_append, List.mem_singleton, reduceCtorEq, or_false]
    exact beside.halts
  · exact beside.stopped
  · exact beside.lines.of_same rfl rfl (left_on_other made rfl)

theorem Beside.handles (beside : Beside reset made before)
    (step : Step cpu before .handles after) :
    Beside reset (made ++ (madeCall ⟨before, .handles, after⟩).toList) after := by
  rcases step_handles step with ⟨⟨savedDaif, point⟩, outer, here, handled⟩
  have ended : ending before = ending { before with frames := [⟨savedDaif, point⟩] } := by
    rw [ending, here]
    rfl
  rw [madeCall, ended]
  cases point with
  | acknowledges | panicked => cases handled
  | masksTimer irq | returns =>
      cases handled
      rw [ending, List.head?_cons, Option.bind_some, Option.map_none, Option.toList_none,
        List.append_nil]
      exact beside.kept rfl rfl rfl rfl
  | endsTimer irq | endsUnhandled irq =>
      cases handled
      exact beside.ends

theorem Beside.step {event : Event} (beside : Beside reset made before)
    (sound : Sound gic reset trace before) (step : Step cpu before event after) :
    Beside reset (made ++ (madeCall ⟨before, event, after⟩).toList) after := by
  cases event with
  | acts => exact beside.acts sound step
  | lines pending =>
      cases step
      rw [madeCall, Option.toList_none, List.append_nil]
      exact beside.kept rfl rfl rfl rfl
  | calls request =>
      rw [madeCall, Option.toList_none, List.append_nil]
      exact beside.calls step
  | taken line =>
      rcases step_taken step with ⟨unmasked, _, rfl⟩
      rw [madeCall, Option.toList_none, List.append_nil]
      have ready := (sound.unmasked unmasked).1
      rw [State.takeIrq, if_pos ready.vectors]
      exact beside.kept rfl rfl rfl rfl
  | reads raw => exact beside.reads sound step
  | handles => exact beside.handles step

end Lemmas

/-! ## Whole runs -/

section Runs

variable {cpu : QemuVirtCpu} {gic : QemuVirtGic} {reset : Gicv2} {pending : Nat → Bool}
  {cntvCval cntvCtl : UInt64} {trace : InterruptTrace} {after : State}

theorem beside_of_run
    (run : Run (Step cpu) (.handedOver gic reset pending cntvCval cntvCtl) trace after) :
    Beside reset (trace.filterMap madeCall) after := by
  induction run with
  | nil =>
      refine ⟨rfl, ?_, ?_, .settingUp (by simp [State.handedOver, hardwareSetup]) fun _ => rfl⟩
      · constructor
        · intro halted
          cases halted
        · rintro ⟨call, member, _⟩
          cases member
      · intro halted
        cases halted
  | @snoc trace middle after event earlier step ih =>
      rw [filter_map_snoc]
      exact ih.step (sound_of_run earlier) step

end Runs

end Tyrne.IrqDouble
