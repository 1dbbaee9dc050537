import Tyrne.Interrupts
import Tyrne.OneShot

/-!
# What every interleaving of interrupts keeps

No interrupt comes before the set-up is complete, none inside a handler, and every handler
ends what it has acknowledged.
-/

namespace Tyrne.Interrupts

open Tyrne.Lib.Overwrite
open Tyrne.Lib.Runs
open Tyrne.Timer (nsToTicks ns_to_ticks_value)
open Tyrne.Deadline (IrqNumber QemuVirtCpu timerIrq gicSpuriousIntid giccIarIntidMask)
open Tyrne.Gic

set_option autoImplicit false

/-! ## What holds along a run -/

abbrev InterruptTrace : Type := List (Transition State Event)

/-- The line the request turns on. -/
def Request.enables : Request → Option IrqNumber
  | enable irq => some irq
  | armDeadline _ => some timerIrq
  | disable _ | cancelDeadline | restoreIrqState _ => none

/-- Why a line is on: a task has asked for it, or it was on before and `init` spared it. -/
def Origin (reset : Gicv2) (trace : InterruptTrace) (line : Nat) : Prop :=
  (∃ taken ∈ trace, ∃ request irq, taken.label = .calls request ∧ request.enables = some irq ∧
    irq.toNat = line) ∨
    (reset.enabled line = true ∧ (line < 32 ∨ 32 * wordCount reset.gicdTyper ≤ line))

/-- What may be left of a call. -/
def FromTask (reset : Gicv2) (trace : InterruptTrace) : Action → Prop
  | .msrDaif _ | .msrCntvCval _ | .msrCntvCtl _ | .line (.disable _) => True
  | .line (.enable irq) => Origin reset trace irq.toNat
  | .msrVbarEl1 | .publishGic _ | .register _ | .msrDaifClr _ => False

/-- The set-up is behind the machine. -/
structure Ready (gic : QemuVirtGic) (reset : Gicv2) (trace : InterruptTrace) (state : State) :
    Prop where
  vectors : state.vectors = true
  published : state.gic = some gic
  initialised : initLog gic reset <+: state.bus.writes
  lines : ∀ line, state.bus.device.enabled line = true → Origin reset trace line
  tasks : ∀ action ∈ state.program, FromTask reset trace action

/-- How far `kernel_entry` is. -/
inductive Stage (gic : QemuVirtGic) (reset : Gicv2) (trace : InterruptTrace) (state : State) :
    Prop where
  | entered (masked : state.daif = 0xf) (outside : state.frames = [])
      (untouched : state.bus = ⟨reset, []⟩) (left : state.program = hardwareSetup gic reset)
  | installed (masked : state.daif = 0xf) (outside : state.frames = [])
      (untouched : state.bus = ⟨reset, []⟩) (vectors : state.vectors = true)
      (left : state.program =
        .publishGic gic :: ((initLog gic reset).map .register ++ [.msrDaifClr 0x2]))
  | initialising (masked : state.daif = 0xf) (outside : state.frames = [])
      (vectors : state.vectors = true) (published : state.gic = some gic)
      (made rest : List RegisterWrite) (split : initLog gic reset = made ++ rest)
      (performed : state.bus = Bus.performAll ⟨reset, []⟩ made)
      (left : state.program = rest.map .register ++ [.msrDaifClr 0x2])
  | ready (ready : Ready gic reset trace state)

/-- The interrupt that the running handler has acknowledged and not ended. -/
def State.held (state : State) : Option IrqNumber :=
  state.frames.head?.bind fun frame => frame.point.held

def round : Option IrqNumber → List Access
  | none => [.iar gicSpuriousIntid]
  | some irq => [.iar irq, .eoir irq]

/-- One handler at most runs, with everything masked, and each one ends what it has
acknowledged. -/
structure Handling (state : State) : Prop where
  single : state.frames = [] ∨ ∃ frame, state.frames = [frame] ∧ state.daif = 0xf
  active : state.active = state.held.toList
  rounds : ∃ served : List (Option IrqNumber),
    state.accesses = served.flatMap round ++ state.held.toList.map .iar

/-- The interrupt the handler does not know. -/
def Point.unhandled : Point → Option IrqNumber
  | endsUnhandled irq | panicked irq => some irq
  | acknowledges | masksTimer _ | endsTimer _ | returns => none

structure Sound (gic : QemuVirtGic) (reset : Gicv2) (trace : InterruptTrace) (state : State) :
    Prop where
  found : state.lost = false
  stage : Stage gic reset trace state
  handling : Handling state
  unhandled : ∀ frame ∈ state.frames, ∀ irq, frame.point.unhandled = some irq →
    irq ≠ timerIrq ∧ Origin reset trace irq.toNat

section Lemmas

variable {cpu : QemuVirtCpu} {gic : QemuVirtGic} {reset : Gicv2} {trace : InterruptTrace}
  {state before after : State} {line : Nat}

/-! ## More transitions -/

theorem Origin.later (origin : Origin reset trace line) (more : InterruptTrace) :
    Origin reset (trace ++ more) line := by
  rcases origin with ⟨taken, member, asked⟩ | spared
  · exact .inl ⟨taken, List.mem_append_left _ member, asked⟩
  · exact .inr spared

theorem FromTask.later {action : Action} (fromTask : FromTask reset trace action)
    (more : InterruptTrace) : FromTask reset (trace ++ more) action := by
  cases action with
  | line call =>
      cases call with
      | enable irq => exact Origin.later fromTask more
      | disable irq => trivial
  | msrDaif | msrCntvCval | msrCntvCtl => trivial
  | msrVbarEl1 | publishGic | register | msrDaifClr => cases fromTask

theorem Stage.later (stage : Stage gic reset trace state) (more : InterruptTrace) :
    Stage gic reset (trace ++ more) state := by
  cases stage with
  | entered masked outside untouched left => exact .entered masked outside untouched left
  | installed masked outside untouched vectors left =>
      exact .installed masked outside untouched vectors left
  | initialising masked outside vectors published made rest split performed left =>
      exact .initialising masked outside vectors published made rest split performed left
  | ready ready =>
      apply Stage.ready
      constructor
      · exact ready.vectors
      · exact ready.published
      · exact ready.initialised
      · exact fun line on => (ready.lines line on).later more
      · exact fun action member => (ready.tasks action member).later more

theorem Sound.later (sound : Sound gic reset trace state) (more : InterruptTrace) :
    Sound gic reset (trace ++ more) state where
  found := sound.found
  stage := sound.stage.later more
  handling := sound.handling
  unhandled := by
    intro frame member irq unhandled
    have known := sound.unhandled frame member irq unhandled
    exact ⟨known.1, known.2.later more⟩

/-! ## The set-up -/

theorem init_log (gic : QemuVirtGic) (device : Gicv2) :
    initLog gic device = initWrites (wordCount device.gicdTyper) := by
  rw [initLog, init_run]
  rfl

theorem Stage.is_ready (stage : Stage gic reset trace state)
    (other : state.frames ≠ [] ∨ state.daif ≠ 0xf) : Ready gic reset trace state := by
  cases stage with
  | entered masked outside | installed masked outside | initialising masked outside =>
      rcases other with inside | unmasked
      · exact absurd outside inside
      · exact absurd masked unmasked
  | ready ready => exact ready

theorem Ready.same (ready : Ready gic reset trace before) (vectors : after.vectors = before.vectors)
    (published : after.gic = before.gic) (bus : after.bus = before.bus)
    (program : after.program = before.program) : Ready gic reset trace after := by
  constructor
  · rw [vectors]
    exact ready.vectors
  · rw [published]
    exact ready.published
  · rw [bus]
    exact ready.initialised
  · rw [bus]
    exact ready.lines
  · rw [program]
    exact ready.tasks

theorem initialised_lines
    (on : (reset.performAll (initLog gic reset)).enabled line = true) : Origin reset trace line := by
  have one := (word_count_bounds reset.gicdTyper).1
  rw [init_log, init_effect reset one] at on
  change fill false 32 (32 * wordCount reset.gicdTyper) reset.enabled line = true at on
  by_cases outside : line < 32 ∨ 32 * wordCount reset.gicdTyper ≤ line
  · rw [fill_outside outside] at on
    exact .inr ⟨on, outside⟩
  · rw [fill_inside (by omega) (by omega)] at on
    cases on

/-! ## Steps outside the handler -/

theorem performed_alone (state : State) (action : Action) :
    (state.perform action).frames = state.frames ∧ (state.perform action).active = state.active ∧
      (state.perform action).accesses = state.accesses := by
  cases action with
  | line call =>
      simp only [State.perform]
      split
      · exact ⟨rfl, rfl, rfl⟩
      · split <;> exact ⟨rfl, rfl, rfl⟩
  | msrVbarEl1 | publishGic | register | msrDaifClr | msrDaif | msrCntvCval | msrCntvCtl =>
      exact ⟨rfl, rfl, rfl⟩

theorem Handling.outside (handling : Handling before) (was : before.frames = [])
    (frames : after.frames = []) (active : after.active = before.active)
    (accesses : after.accesses = before.accesses) : Handling after := by
  have nobody : after.held = before.held := by rw [State.held, State.held, was, frames]
  constructor
  · exact .inl frames
  · rw [active, nobody]
    exact handling.active
  · rw [accesses, nobody]
    exact handling.rounds

theorem Ready.performed_line {call : Call} (ready : Ready gic reset trace before)
    (valid : call.irq < Deadline.gicMaxIrq) (rest : List Action) :
    { before with program := rest }.perform (.line call) =
      { before with program := rest, bus := before.bus.performAll [call.write] } := by
  simp only [State.perform, ready.published, call.run_valid valid]

theorem Ready.performed_panics {call : Call} (ready : Ready gic reset trace before)
    (invalid : ¬ call.irq < Deadline.gicMaxIrq) (rest : List Action) :
    { before with program := rest }.perform (.line call) =
      { before with program := [], halted := true } := by
  have faulted : ∃ reason, call.run gic before.bus = .fault reason := by
    cases call with
    | enable irq => exact ⟨_, write_line_invalid invalid _ _ _⟩
    | disable irq => exact ⟨_, write_line_invalid invalid _ _ _⟩
  rcases faulted with ⟨reason, faulted⟩
  simp only [State.perform, ready.published, faulted]

theorem Ready.line_call {call : Call} {rest : List Action} (ready : Ready gic reset trace before)
    (left : before.program = .line call :: rest) :
    ({ before with program := rest }.perform (.line call)).lost = before.lost ∧
      Ready gic reset trace ({ before with program := rest }.perform (.line call)) := by
  have tasks : ∀ action ∈ rest, FromTask reset trace action := fun action member =>
    ready.tasks action (by rw [left]; exact List.mem_cons_of_mem _ member)
  have own : FromTask reset trace (.line call) :=
    ready.tasks _ (by rw [left]; exact List.mem_cons_self)
  simp only [State.perform, ready.published]
  split
  · next bus ran =>
      have step : CallStep gic before.bus call bus := ran
      refine ⟨rfl, ready.vectors, rfl, ?_, ?_, tasks⟩
      · rw [show bus.writes = _ from congrArg Bus.writes step.wrote.2]
        exact ready.initialised.trans (List.prefix_append _ _)
      · intro line on
        rw [show bus.device = _ from step.device] at on
        change Function.update before.bus.device.enabled call.line call.turnsOn line = true at on
        by_cases named : line = call.line
        · subst named
          rw [Function.update_self] at on
          cases call with
          | enable irq => exact own
          | disable irq => cases on
        · rw [Function.update_of_ne named] at on
          exact ready.lines line on
  · next error _ _ => cases error
  · exact ⟨rfl, ready.vectors, rfl, ready.initialised, ready.lines, fun _ member => nomatch member⟩

theorem Sound.acts (sound : Sound gic reset trace before) (step : Step cpu before .acts after) :
    Sound gic reset trace after := by
  rcases step_acts step with ⟨action, rest, left, outside, rfl⟩
  rcases performed_alone { before with program := rest } action with ⟨frames, active, accesses⟩
  have handling := sound.handling.outside outside (frames.trans outside) active accesses
  have unhandled : ∀ frame ∈ ({ before with program := rest }.perform action).frames, ∀ irq,
      frame.point.unhandled = some irq → irq ≠ timerIrq ∧ Origin reset trace irq.toNat := by
    rw [frames]
    exact sound.unhandled
  cases sound.stage with
  | entered masked _ untouched setup =>
      rw [left, hardwareSetup] at setup
      cases setup
      exact ⟨sound.found, .installed masked outside untouched rfl rfl, handling, unhandled⟩
  | installed masked _ untouched vectors setup =>
      rw [left] at setup
      cases setup
      refine ⟨sound.found, ?_, handling, unhandled⟩
      exact .initialising masked outside vectors rfl [] (initLog gic reset) rfl
        (untouched.trans (Bus.perform_all_nil _).symm) rfl
  | initialising masked _ vectors published made writes split performed setup =>
      rw [left] at setup
      cases writes with
      | nil =>
          cases setup
          rw [List.append_nil] at split
          refine ⟨sound.found, .ready ⟨vectors, published, ?_, ?_, ?_⟩, handling, unhandled⟩
          · rw [split, show before.bus = _ from performed]
            exact List.prefix_refl _
          · intro line on
            rw [show before.bus = _ from performed] at on
            rw [← split] at on
            exact initialised_lines on
          · exact fun _ member => nomatch member
      | cons write writes =>
          cases setup
          have onward : initLog gic reset = (made ++ [write]) ++ writes := by
            rw [split, List.append_assoc]
            rfl
          have reached : before.bus.performAll [write] =
              Bus.performAll ⟨reset, []⟩ (made ++ [write]) := by
            rw [← Bus.perform_all_append, ← performed]
          refine ⟨sound.found, ?_, handling, unhandled⟩
          exact .initialising masked outside vectors published _ writes onward reached rfl
  | ready ready =>
      have own := ready.tasks action (by rw [left]; exact List.mem_cons_self)
      have tasks : ∀ later ∈ rest, FromTask reset trace later := fun later member =>
        ready.tasks later (by rw [left]; exact List.mem_cons_of_mem _ member)
      have went : Ready gic reset trace { before with program := rest } :=
        ⟨ready.vectors, ready.published, ready.initialised, ready.lines, tasks⟩
      cases action with
      | line call =>
          rcases ready.line_call left with ⟨found, reached⟩
          exact ⟨found.trans sound.found, .ready reached, handling, unhandled⟩
      | msrDaif bits =>
          exact ⟨sound.found, .ready (went.same rfl rfl rfl rfl), handling, unhandled⟩
      | msrCntvCval value =>
          exact ⟨sound.found, .ready (went.same rfl rfl rfl rfl), handling, unhandled⟩
      | msrCntvCtl value =>
          exact ⟨sound.found, .ready (went.same rfl rfl rfl rfl), handling, unhandled⟩
      | msrVbarEl1 | publishGic | register | msrDaifClr => cases own

theorem Sound.lines {pending : Nat → Bool} (sound : Sound gic reset trace before)
    (step : Step cpu before (.lines pending) after) : Sound gic reset trace after := by
  cases step
  refine ⟨sound.found, ?_, ⟨sound.handling.single, sound.handling.active, sound.handling.rounds⟩,
    sound.unhandled⟩
  cases sound.stage with
  | entered masked outside untouched left => exact .entered masked outside untouched left
  | installed masked outside untouched vectors left =>
      exact .installed masked outside untouched vectors left
  | initialising masked outside vectors published made rest split performed left =>
      exact .initialising masked outside vectors published made rest split performed left
  | ready ready => exact .ready (ready.same rfl rfl rfl rfl)

theorem Request.actions_from_task {request : Request} {actions : List Action}
    (asked : request.actions cpu = .ok actions)
    (origin : ∀ irq, request.enables = some irq → Origin reset trace irq.toNat) :
    ∀ action ∈ actions, FromTask reset trace action := by
  cases request with
  | enable irq =>
      cases asked
      simpa [FromTask] using origin irq rfl
  | disable irq =>
      cases asked
      simp [FromTask]
  | armDeadline deadlineNs =>
      have own := origin timerIrq rfl
      simp only [Request.actions] at asked
      cases converted : nsToTicks deadlineNs cpu.frequencyHz with
      | error panic =>
          rw [converted] at asked
          cases asked
      | ok target =>
          rw [converted] at asked
          cases asked
          simpa [FromTask] using own
  | cancelDeadline =>
      cases asked
      simp [FromTask]
  | restoreIrqState bits =>
      cases asked
      simp [FromTask]

theorem request_returns (cpu : QemuVirtCpu) (request : Request) :
    ∃ actions, request.actions cpu = .ok actions := by
  cases request with
  | armDeadline deadlineNs =>
      obtain ⟨target, converted, _⟩ := ns_to_ticks_value cpu.positive deadlineNs
      refine ⟨[.msrCntvCval target, .msrCntvCtl 1, .line (.enable timerIrq)], ?_⟩
      rw [Request.actions, converted]
      rfl
  | enable | disable | cancelDeadline | restoreIrqState => exact ⟨_, rfl⟩

/-- A call begins where nothing else is under way, and no request panics before its writes. -/
theorem step_calls_begun {request : Request} (step : Step cpu before (.calls request) after) :
    ∃ actions, request.actions cpu = .ok actions ∧ before.program = [] ∧ before.frames = [] ∧
      before.halted = false ∧ after = { before with program := actions } := by
  obtain ⟨actions, asked⟩ := request_returns cpu request
  refine ⟨actions, asked, ?_⟩
  simp only [Step, next, asked] at step
  split at step
  · next idle outside running =>
      cases step
      exact ⟨idle, outside, running, rfl⟩
  · cases step

theorem Sound.calls {request : Request} (sound : Sound gic reset trace before)
    (step : Step cpu before (.calls request) after)
    (origin : ∀ irq, request.enables = some irq → Origin reset trace irq.toNat) :
    Sound gic reset trace after := by
  rcases step_calls step with ⟨idle, outside, came⟩
  have ready : Ready gic reset trace before := by
    cases sound.stage with
    | entered _ _ _ left =>
        rw [idle] at left
        cases left
    | installed _ _ _ _ left =>
        rw [idle] at left
        cases left
    | initialising _ _ _ _ _ rest _ _ left =>
        rw [idle] at left
        cases rest <;> cases left
    | ready ready => exact ready
  have handling : ∀ program halted, Handling { before with program := program, halted := halted } :=
    fun _ _ => sound.handling.outside outside outside rfl rfl
  rcases came with ⟨actions, asked, rfl⟩ | rfl
  · have tasks := Request.actions_from_task asked origin
    exact ⟨sound.found,
      .ready ⟨ready.vectors, ready.published, ready.initialised, ready.lines, tasks⟩,
      handling _ _, sound.unhandled⟩
  · exact ⟨sound.found, .ready (ready.same rfl rfl rfl rfl), handling _ _, sound.unhandled⟩

/-! ## Steps of the handler -/

theorem unmasked_apart {daif : BitVec 4} (unmasked : daif.getLsbD 1 = false) : daif ≠ 0xf := by
  intro masked
  rw [masked] at unmasked
  revert unmasked
  decide

/-- Who has unmasked interrupts is past the set-up and outside the handler. -/
theorem Sound.unmasked (sound : Sound gic reset trace state)
    (unmasked : state.daif.getLsbD 1 = false) :
    Ready gic reset trace state ∧ state.frames = [] := by
  have other := unmasked_apart unmasked
  refine ⟨sound.stage.is_ready (.inr other), ?_⟩
  rcases sound.handling.single with outside | ⟨frame, _, masked⟩
  · exact outside
  · exact absurd masked other

theorem Sound.taken {line : Nat} (sound : Sound gic reset trace before)
    (step : Step cpu before (.taken line) after) : Sound gic reset trace after := by
  rcases step_taken step with ⟨unmasked, _, rfl⟩
  rcases sound.unmasked unmasked with ⟨ready, outside⟩
  have nobody : before.held = none := by rw [State.held, outside, List.head?_nil, Option.bind_none]
  have active := sound.handling.active
  have rounds := sound.handling.rounds
  rw [nobody] at active rounds
  rw [State.takeIrq, if_pos ready.vectors, outside]
  refine ⟨sound.found, .ready (ready.same rfl rfl rfl rfl), ⟨?_, active, rounds⟩, ?_⟩
  · exact .inr ⟨_, rfl, rfl⟩
  · intro frame member irq unhandled
    rw [List.mem_singleton.mp member] at unhandled
    cases unhandled

theorem acknowledge_spurious : acknowledge gicSpuriousIntid = none := by decide

theorem acknowledge_line {raw : UInt32} (valid : raw < Deadline.gicMaxIrq) :
    acknowledge raw = some raw := by
  have bound : raw.toNat < 1020 := UInt32.lt_iff_toNat_lt.mp valid
  have same : raw &&& giccIarIntidMask = raw := by
    apply UInt32.toNat_inj.mp
    rw [UInt32.toNat_and]
    change raw.toNat &&& 2 ^ 10 - 1 = raw.toNat
    rw [Nat.and_two_pow_sub_one_eq_mod]
    exact Nat.mod_eq_of_lt (by omega)
  have other : raw ≠ gicSpuriousIntid := by
    intro clash
    rw [clash] at bound
    revert bound
    decide
  rw [acknowledge, same, if_neg other]

theorem dispatch_held (answer : Option IrqNumber) : (dispatch answer).held = answer := by
  cases answer with
  | none => rfl
  | some irq =>
      rw [dispatch]
      split <;> rfl

theorem dispatch_unhandled {answer : Option IrqNumber} {irq : IrqNumber}
    (unhandled : (dispatch answer).unhandled = some irq) : answer = some irq ∧ irq ≠ timerIrq := by
  cases answer with
  | none => cases unhandled
  | some other =>
      rw [dispatch] at unhandled
      split at unhandled
      · cases unhandled
      · next apart =>
          cases unhandled
          exact ⟨rfl, apart⟩

theorem answered_line {raw : UInt32} (answered : state.answers raw = true) :
    raw = gicSpuriousIntid ∨
      (acknowledge raw = some raw ∧ raw ≠ gicSpuriousIntid ∧
        state.bus.device.enabled raw.toNat = true) := by
  rw [State.answers, Bool.or_eq_true, Bool.and_eq_true, beq_iff_eq, decide_eq_true_eq] at answered
  rcases answered with spurious | ⟨valid, presented⟩
  · exact .inl spurious
  · simp only [State.presents, Bool.and_eq_true] at presented
    have known := acknowledge_line valid
    refine .inr ⟨known, ?_, presented.1.2⟩
    intro clash
    rw [clash, acknowledge_spurious] at known
    cases known

theorem Sound.reads {raw : UInt32} (sound : Sound gic reset trace before)
    (step : Step cpu before (.reads raw) after) : Sound gic reset trace after := by
  rcases step_reads step with ⟨savedDaif, outer, here, came⟩
  have ready := sound.stage.is_ready (.inl (by rw [here]; exact List.cons_ne_nil _ _))
  have nobody : before.held = none := by rw [State.held, here]; rfl
  have active := sound.handling.active
  rcases sound.handling.rounds with ⟨served, accesses⟩
  rw [nobody] at active accesses
  have alone : outer = [] ∧ before.daif = 0xf := by
    rcases sound.handling.single with outside | ⟨frame, single, masked⟩
    · cases outside.symm.trans here
    · cases single.symm.trans here
      exact ⟨rfl, masked⟩
  rcases alone with ⟨rfl, masked⟩
  rcases came with ⟨unpublished, rfl⟩ | ⟨answered, rfl⟩
  · cases ready.published.symm.trans unpublished
  · have holds : (before.readIar raw ⟨savedDaif, .acknowledges⟩ []).held = acknowledge raw :=
      dispatch_held _
    have single : (before.readIar raw ⟨savedDaif, .acknowledges⟩ []).frames = [] ∨
        ∃ frame, (before.readIar raw ⟨savedDaif, .acknowledges⟩ []).frames = [frame] ∧
          before.daif = 0xf := .inr ⟨_, rfl, masked⟩
    refine ⟨sound.found, .ready (ready.same rfl rfl rfl rfl), ⟨single, ?_, ?_⟩, ?_⟩
    · rw [holds]
      rcases answered_line answered with spurious | ⟨known, other, _⟩
      · rw [spurious, acknowledge_spurious]
        exact active
      · rw [known, State.readIar, if_neg other, active]
        rfl
    · rw [holds]
      rcases answered_line answered with spurious | ⟨known, other, _⟩
      · refine ⟨served ++ [none], ?_⟩
        rw [spurious, acknowledge_spurious, State.readIar, accesses]
        simp [round]
      · refine ⟨served, ?_⟩
        rw [known, State.readIar, accesses]
        simp
    · intro frame member irq unhandled
      rw [List.mem_singleton.mp member] at unhandled
      rcases dispatch_unhandled unhandled with ⟨known, other⟩
      refine ⟨other, ?_⟩
      rcases answered_line answered with spurious | ⟨own, _, on⟩
      · rw [spurious, acknowledge_spurious] at known
        cases known
      · cases own.symm.trans known
        exact ready.lines _ on

theorem Handling.ended {irq : IrqNumber} {frame : Frame} (handling : Handling before)
    (holds : before.held = some irq) (masked : before.daif = 0xf) (ends : frame.point.held = none) :
    Handling (before.writeEoir irq frame []) := by
  have active := handling.active
  rcases handling.rounds with ⟨served, accesses⟩
  rw [holds] at active accesses
  have nobody : (before.writeEoir irq frame []).held = none := ends
  constructor
  · exact .inr ⟨frame, rfl, masked⟩
  · rw [nobody, State.writeEoir, active]
    simp
  · refine ⟨served ++ [some irq], ?_⟩
    rw [nobody, State.writeEoir, accesses]
    simp [round]

theorem Sound.handles (sound : Sound gic reset trace before)
    (step : Step cpu before .handles after) : Sound gic reset trace after := by
  rcases step_handles step with ⟨frame, outer, here, handled⟩
  have ready := sound.stage.is_ready (.inl (by rw [here]; exact List.cons_ne_nil _ _))
  have holds : before.held = frame.point.held := by rw [State.held, here]; rfl
  have alone : outer = [] ∧ before.daif = 0xf := by
    rcases sound.handling.single with outside | ⟨other, single, masked⟩
    · cases outside.symm.trans here
    · cases single.symm.trans here
      exact ⟨rfl, masked⟩
  rcases alone with ⟨rfl, masked⟩
  have known := sound.unhandled frame (by rw [here]; exact List.mem_cons_self)
  rcases frame with ⟨savedDaif, point⟩
  cases point with
  | acknowledges => cases handled
  | panicked irq => cases handled
  | masksTimer irq =>
      cases handled
      have same : before.held = some irq := holds
      have active := sound.handling.active
      have rounds := sound.handling.rounds
      rw [same] at active rounds
      refine ⟨sound.found, .ready (ready.same rfl rfl rfl rfl),
        ⟨.inr ⟨_, rfl, masked⟩, active, rounds⟩, ?_⟩
      intro frame member other unhandled
      rw [List.mem_singleton.mp member] at unhandled
      cases unhandled
  | endsTimer irq =>
      cases handled
      refine ⟨sound.found, .ready (ready.same rfl rfl rfl rfl),
        sound.handling.ended holds masked rfl, ?_⟩
      intro frame member other unhandled
      rw [List.mem_singleton.mp member] at unhandled
      cases unhandled
  | endsUnhandled irq =>
      cases handled
      refine ⟨sound.found, .ready (ready.same rfl rfl rfl rfl),
        sound.handling.ended holds masked rfl, ?_⟩
      intro frame member other unhandled
      rw [List.mem_singleton.mp member] at unhandled
      cases unhandled
      exact known irq rfl
  | returns =>
      cases handled
      have nobody : before.held = none := holds
      have active := sound.handling.active
      have rounds := sound.handling.rounds
      rw [nobody] at active rounds
      exact ⟨sound.found, .ready (ready.same rfl rfl rfl rfl), ⟨.inl rfl, active, rounds⟩,
        fun _ member => nomatch member⟩

theorem Sound.goes_on {frame : Frame} (sound : Sound gic reset trace state)
    (running : frame ∈ state.frames) :
    (∃ irq, frame.point = .panicked irq) ∨
      ∃ event later, (event = .reads gicSpuriousIntid ∨ event = .handles) ∧
        Step cpu state event later := by
  rcases sound.handling.single with outside | ⟨other, single, _⟩
  · rw [outside] at running
    cases running
  · have ready := sound.stage.is_ready (.inl (by rw [single]; exact List.cons_ne_nil _ _))
    rw [single, List.mem_singleton] at running
    subst running
    rcases frame with ⟨savedDaif, point⟩
    cases point with
    | acknowledges =>
        have spurious : state.answers gicSpuriousIntid = true := by
          rw [State.answers, beq_self_eq_true, Bool.true_or]
        refine .inr ⟨.reads gicSpuriousIntid,
          state.readIar gicSpuriousIntid ⟨savedDaif, .acknowledges⟩ [], .inl rfl, ?_⟩
        simp only [Step, next, single, ready.published, Option.isNone_some, Bool.false_eq_true,
          if_false, spurious, if_true]
    | masksTimer irq | endsTimer irq | endsUnhandled irq | returns =>
        have handled : ∃ later, next cpu state .handles = some later := by
          simp only [next, single, State.handle]
          exact ⟨_, rfl⟩
        rcases handled with ⟨later, step⟩
        exact .inr ⟨.handles, later, .inr rfl, step⟩
    | panicked irq => exact .inl ⟨irq, rfl⟩

theorem Sound.step {event : Event} (sound : Sound gic reset trace before)
    (step : Step cpu before event after) :
    Sound gic reset (trace ++ [⟨before, event, after⟩]) after := by
  have sofar := sound.later [⟨before, event, after⟩]
  cases event with
  | lines pending => exact sofar.lines step
  | acts => exact sofar.acts step
  | taken line => exact sofar.taken step
  | reads raw => exact sofar.reads step
  | handles => exact sofar.handles step
  | calls request =>
      apply sofar.calls step
      intro irq enables
      have here := List.mem_append_right trace (List.mem_singleton_self ⟨before, .calls request, after⟩)
      exact .inl ⟨_, here, request, irq, rfl, enables, rfl⟩

end Lemmas

/-! ## Whole runs -/

section Runs

variable {cpu : QemuVirtCpu} {gic : QemuVirtGic} {reset : Gicv2} {pending : Nat → Bool}
  {cntvCval cntvCtl : UInt64} {trace : InterruptTrace} {after : State}

theorem sound_of_run
    (run : Run (Step cpu) (.handedOver gic reset pending cntvCval cntvCtl) trace after) :
    Sound gic reset trace after := by
  induction run with
  | nil =>
      refine ⟨rfl, .entered rfl rfl rfl rfl, ⟨.inl rfl, rfl, [], rfl⟩, ?_⟩
      exact fun _ member => nomatch member
  | snoc earlier step ih => exact ih.step step

/-- Whenever devices raise their lines: an interrupt is taken only past the whole set-up and
never inside a handler, so `irq_entry` finds its vector and its controller. Each handler
ends exactly the interrupt it has acknowledged, a spurious one ends nothing, and between
handlers no interrupt is active. A handler stops only in its panic. -/
theorem interrupts_are_ended
    (run : Run (Step cpu) (.handedOver gic reset pending cntvCval cntvCtl) trace after) :
    after.lost = false ∧ after.frames.length ≤ 1 ∧ after.active = after.held.toList ∧
      (∃ served : List (Option IrqNumber),
        after.accesses = served.flatMap round ++ after.held.toList.map .iar) ∧
      (∀ taken ∈ trace, ∀ line, taken.label = .taken line →
        taken.before.vectors = true ∧ taken.before.gic = some gic ∧
        initLog gic reset <+: taken.before.bus.writes ∧ taken.before.frames = []) ∧
      ∀ frame ∈ after.frames, (∃ irq, frame.point = .panicked irq) ∨
        ∃ event later, (event = .reads gicSpuriousIntid ∨ event = .handles) ∧
          Step cpu after event later := by
  have sound := sound_of_run run
  refine ⟨sound.found, ?_, sound.handling.active, sound.handling.rounds, ?_,
    fun _ running => sound.goes_on running⟩
  · rcases sound.handling.single with outside | ⟨frame, single, _⟩
    · rw [outside]
      exact Nat.zero_le 1
    · rw [single]
      exact Nat.le_refl 1
  · intro taken member line isTaken
    rcases run_member run member with ⟨front, early, step, _⟩
    rw [isTaken] at step
    rcases (sound_of_run early).unmasked (step_taken step).1 with ⟨ready, outside⟩
    exact ⟨ready.vectors, ready.published, ready.initialised, outside⟩

/-- An interrupt is taken only for a line that a task has asked for or that was on at reset
where `init` does not look, and `irq_entry` panics only for one of these other than the
timer's. -/
theorem interrupts_have_origin
    (run : Run (Step cpu) (.handedOver gic reset pending cntvCval cntvCtl) trace after) :
    (∀ taken ∈ trace, ∀ line, taken.label = .taken line → Origin reset trace line) ∧
      ∀ frame ∈ after.frames, ∀ irq, frame.point = .panicked irq → irq ≠ timerIrq ∧
        ((∃ taken ∈ trace, taken.label = .calls (.enable irq)) ∨
          (reset.enabled irq.toNat = true ∧
            (irq.toNat < 32 ∨ 32 * wordCount reset.gicdTyper ≤ irq.toNat))) := by
  constructor
  · intro taken member line isTaken
    rcases run_member run member with ⟨front, early, step, back, rfl⟩
    rw [isTaken] at step
    rcases step_taken step with ⟨unmasked, presented, _⟩
    have ready := ((sound_of_run early).unmasked unmasked).1
    simp only [State.presents, Bool.and_eq_true] at presented
    exact (ready.lines line presented.1.2).later _
  · intro frame running irq panics
    have unhandled : frame.point.unhandled = some irq := by rw [panics]; rfl
    rcases (sound_of_run run).unhandled frame running irq unhandled with ⟨other, origin⟩
    refine ⟨other, ?_⟩
    rcases origin with ⟨taken, member, request, named, called, enables, same⟩ | spared
    · rw [UInt32.toNat_inj.mp same] at enables
      cases request with
      | enable asked =>
          cases enables
          exact .inl ⟨taken, member, called⟩
      | armDeadline deadlineNs =>
          cases enables
          exact absurd rfl other
      | disable | cancelDeadline | restoreIrqState => cases enables
    · exact .inr spared

end Runs

/-! ## Two interrupts -/

def oneWord : Gicv2 where
  gicdCtlr := 0
  gicdTyper := 1
  enabled := fun _ => false
  priority := fun _ => 0
  target := fun _ => 0
  giccCtlr := 0
  giccPmr := 0

def atReset : State := .handedOver default oneWord (fun _ => false) 0 0

theorem at_reset_program : atReset = { atReset with
    program := [.msrVbarEl1, .publishGic default] ++
      ((initWrites 2).map .register ++ [.msrDaifClr 0x2]) } := by
  rw [atReset, State.handedOver, hardwareSetup, init_log]
  rfl

/-- `kernel_entry` initialises the controller and unmasks interrupts. -/
def settingUp : List Event := List.replicate 24 .acts

/-- A deadline in the past. -/
def timerStrikes : List Event :=
  settingUp ++ [.calls (.armDeadline 0), .acts, .acts, .lines fun line => line == 27, .acts,
    .taken 27, .reads 27, .lines fun _ => false, .handles, .handles, .handles]

theorem interrupts_are_ended_timer : ∃ trace after, Run (Step OneShot.virtCpu) atReset trace after ∧
    after.accesses = [.iar 27, .eoir 27] ∧ after.daif = 0xd ∧ after.lost = false ∧
      after.active = after.held.toList := by
  have ends : (follow (next OneShot.virtCpu) atReset timerStrikes).map
      (fun state => (state.accesses, state.daif)) = some ([.iar 27, .eoir 27], 0xd) := by
    rw [at_reset_program]
    decide +kernel
  rcases Option.map_eq_some_iff.mp ends with ⟨after, followed, shown⟩
  rcases run_of_follow followed with ⟨trace, run, _⟩
  rcases interrupts_are_ended run with ⟨found, _, active, _⟩
  exact ⟨trace, after, run, congrArg Prod.fst shown, congrArg Prod.snd shown, found, active⟩

def strangerStrikes : List Event :=
  settingUp ++ [.calls (.enable 33), .acts, .lines fun line => line == 33, .taken 33, .reads 33,
    .handles]

theorem interrupts_have_origin_stranger : ∃ trace after,
    Run (Step OneShot.virtCpu) atReset trace after ∧ after.frames = [⟨0xd, .panicked 33⟩] ∧
      ∃ taken ∈ trace, taken.label = .calls (.enable 33) := by
  have ends : (follow (next OneShot.virtCpu) atReset strangerStrikes).map State.frames =
      some [⟨0xd, .panicked 33⟩] := by
    rw [at_reset_program]
    decide +kernel
  rcases Option.map_eq_some_iff.mp ends with ⟨after, followed, stopped⟩
  rcases run_of_follow followed with ⟨trace, run, _⟩
  have running : ⟨0xd, .panicked 33⟩ ∈ after.frames := by
    rw [stopped]
    exact List.mem_cons_self
  rcases (interrupts_have_origin run).2 _ running 33 rfl with ⟨_, asked | ⟨on, _⟩⟩
  · exact ⟨trace, after, run, stopped, asked⟩
  · cases on

end Tyrne.Interrupts
