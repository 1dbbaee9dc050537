import Tyrne.BoardTimer

/-!
# Deadlines under masked interrupts

Where every `arm_deadline` is called with interrupts masked, none strikes before the control
register is written, and the one-shot deadline holds of the whole board.
-/

namespace Tyrne.BoardTimer

open Tyrne.Lib.Runs
open Tyrne.Lib.Lockstep
open Tyrne.Timer (nsToTicks)
open Tyrne.Deadline (IrqNumber QemuVirtCpu Machine timerIrq timerEnabled lineOn lineOff)
open Tyrne.Gic
open Tyrne.Interrupts
open Tyrne.OneShot (Quiet GuardedStep Protocol arming arms stopped_control)

set_option autoImplicit false

/-! ## The refinement -/

def Board.handedOver (gic : QemuVirtGic) (reset : Gicv2) (pending : Nat → Bool)
    (cntvCval cntvCtl cntvct : UInt64) : Board :=
  ⟨.handedOver gic reset pending cntvCval cntvCtl, cntvct⟩

def timerAtReset (reset : Gicv2) (cntvCval cntvCtl cntvct : UInt64) : Machine where
  registers :=
    { cntvct := cntvct
      cntvCval := cntvCval
      cntvCtl := cntvCtl
      gicdIsenabler := fun _ => if reset.enabled timerIrq.toNat then 1#32 <<< 27 else 0
      active := none }
  call := none
  pending := []
  programmed := none

section Refinement

variable {cpu : QemuVirtCpu} {gic : QemuVirtGic} {reset : Gicv2} {pending : Nat → Bool}
  {cntvCval cntvCtl cntvct : UInt64} {trace : List (Transition Board Happening)} {after : Board}

theorem setup_shows_nothing {action : Action} (member : action ∈ hardwareSetup gic reset) :
    timerWrite action = none := by
  simp only [hardwareSetup, List.mem_append, List.mem_cons, List.mem_map, List.not_mem_nil,
    or_false] at member
  rcases member with (rfl | rfl) | ⟨write, _, rfl⟩ | rfl <;> rfl

theorem handed_over_shows : Shows cpu gic reset
    (.handedOver gic reset pending cntvCval cntvCtl cntvct)
    (timerAtReset reset cntvCval cntvCtl cntvct) where
  sound := ⟨[], @sound_of_run cpu _ _ _ _ _ _ _ .nil⟩
  counter := rfl
  comparator := rfl
  control := rfl
  line := by
    change (if reset.enabled timerIrq.toNat then 1#32 <<< 27 else 0 : BitVec 32).getLsbD
      (timerIrq.toNat % 32) = true ↔ reset.enabled timerIrq.toNat = true
    generalize reset.enabled timerIrq.toNat = on
    cases on <;> decide
  inactive := rfl
  pending := by
    symm
    apply List.filterMap_eq_nil_iff.mpr
    exact fun action member => setup_shows_nothing member
  asked := ⟨_, .inl rfl, List.suffix_refl _⟩

/-- Outside the handler both would deliver the interrupt in the same states. -/
theorem Shows.deliverable_iff {machine : Machine} (shows : Shows cpu gic reset after machine)
    (outside : after.state.frames = []) :
    machine.registers.deliverable ↔
      after.raised ∧ after.state.bus.device.enabled timerIrq.toNat = true := by
  have control := shows.control
  rw [seen_outside outside] at control
  rw [Deadline.Registers.deliverable, Deadline.Registers.asserted, control, shows.comparator,
    shows.counter, shows.line, Board.raised]
  exact ⟨fun held => ⟨held.1, held.2.1⟩, fun held => ⟨held.1, held.2, shows.inactive⟩⟩

/-- Every run of the whole board, from `kernel_entry` on, in which tasks leave the line of the
timer to its driver, shows a run of the small machine: the same calls of the driver, the same
writes, ticks and deliveries in the same order. Between handlers the interrupt is raised in
the one exactly when it is in the other. -/
theorem board_refines_timer
    (run : Run (DriverStep cpu) (.handedOver gic reset pending cntvCval cntvCtl cntvct) trace after) :
    ∃ timerTrace machine,
      Run (Deadline.Step cpu) (timerAtReset reset cntvCval cntvCtl cntvct) timerTrace machine ∧
        labels timerTrace = trace.filterMap shown ∧ machine.registers.cntvct = after.cntvct ∧
        machine.registers.cntvCval = after.state.cntvCval ∧
        (after.state.program = [] → machine.pending = []) ∧
        (after.state.frames = [] → (machine.registers.deliverable ↔
          after.raised ∧ after.state.bus.device.enabled timerIrq.toNat = true)) := by
  obtain ⟨timerTrace, machine, timerRun, same, shows⟩ :=
    run_shown handed_over_shows (fun _ _ _ _ shows step => shows.step step) run
  refine ⟨timerTrace, machine, timerRun, same, shows.counter, shows.comparator, ?_,
    shows.deliverable_iff⟩
  intro idle
  rw [shows.pending, idle]
  rfl

end Refinement

/-! ## Careful callers -/

/-- Tasks call `arm_deadline` with interrupts masked, and leave the line of the timer to the
driver. -/
def CarefulStep (cpu : QemuVirtCpu) (before : Board) (happening : Happening) (after : Board) :
    Prop :=
  DriverStep cpu before happening after ∧
    ∀ deadlineNs, happening = .event (.calls (.armDeadline deadlineNs)) →
      before.state.daif.getLsbD 1 = true

def starts (program : List Action) : Bool := (program.filterMap timerWrite).any arms

/-- While a call has still to start the timer, interrupts are masked and no handler runs. -/
def Shielded (state : State) : Prop :=
  starts state.program = true → state.daif.getLsbD 1 = true ∧ state.frames = []

section Careful

variable {cpu : QemuVirtCpu} {gic : QemuVirtGic} {reset : Gicv2} {before after : Board}
  {machine : Machine}

theorem line_starts_nothing (call : Call) : starts [.line call] = false := by
  cases call with
  | enable irq | disable irq =>
      by_cases timer : irq = timerIrq <;> simp [starts, timerWrite, timer, arms, lineOn, lineOff]

theorem Asked.starting {action : Action} {rest : List Action}
    (asked : Asked cpu gic reset (action :: rest)) (starting : starts (action :: rest) = true) :
    ∃ value, action = .msrCntvCval value ∨ action = .msrCntvCtl value := by
  rcases asked with ⟨whole, rfl | ⟨request, source⟩, suffix⟩
  · have nothing : (action :: rest).filterMap timerWrite = [] :=
      List.filterMap_eq_nil_iff.mpr fun other member => setup_shows_nothing (suffix.mem member)
    rw [starts, nothing] at starting
    cases starting
  · cases request with
    | armDeadline deadlineNs =>
        rcases arm_actions source with ⟨target, _, rfl⟩
        simp only [List.suffix_cons_iff, List.suffix_nil] at suffix
        rcases suffix with whole | whole | whole | whole
        · cases whole
          exact ⟨_, .inl rfl⟩
        · cases whole
          exact ⟨_, .inr rfl⟩
        · cases whole
          cases (line_starts_nothing _).symm.trans starting
        · cases whole
    | cancelDeadline =>
        cases source
        simp only [List.suffix_cons_iff, List.suffix_nil] at suffix
        rcases suffix with whole | whole | whole
        · cases whole
          exact ⟨_, .inr rfl⟩
        · cases whole
          cases (line_starts_nothing _).symm.trans starting
        · cases whole
    | enable irq | disable irq =>
        cases source
        simp only [List.suffix_cons_iff, List.suffix_nil] at suffix
        rcases suffix with whole | whole
        · cases whole
          cases (line_starts_nothing _).symm.trans starting
        · cases whole
    | restoreIrqState bits =>
        cases source
        simp only [List.suffix_cons_iff, List.suffix_nil] at suffix
        rcases suffix with whole | whole
        · cases whole
          simp [starts, timerWrite] at starting
        · cases whole

theorem starts_earlier {action : Action} {rest : List Action} (later : starts rest = true) :
    starts (action :: rest) = true := by
  rw [starts, List.filterMap_cons]
  cases timerWrite action with
  | none => exact later
  | some write =>
      change (arms write || starts rest) = true
      rw [later, Bool.or_true]

theorem starts_arm {request : Request} {actions : List Action}
    (source : request.actions cpu = .ok actions) (starting : starts actions = true) :
    ∃ deadlineNs, request = .armDeadline deadlineNs := by
  cases request with
  | armDeadline deadlineNs => exact ⟨deadlineNs, rfl⟩
  | cancelDeadline =>
      cases source
      simp [starts, timerWrite, arms, lineOff, stopped_control] at starting
  | enable irq | disable irq =>
      cases source
      cases (line_starts_nothing _).symm.trans starting
  | restoreIrqState bits =>
      cases source
      simp [starts, timerWrite] at starting

/-- No interrupt comes between the call of `arm_deadline` and the start of the timer. -/
theorem Shielded.step {happening : Happening} (shielded : Shielded before.state)
    (shows : Shows cpu gic reset before machine) (step : CarefulStep cpu before happening after) :
    Shielded after.state := by
  rcases step with ⟨⟨step, _⟩, careful⟩
  cases happening with
  | tick =>
      cases step
      exact shielded
  | event event =>
      rcases step_event step with ⟨_, went, _⟩
      rcases after with ⟨state, cntvct⟩
      have unchanged : state.program = before.state.program → before.state.frames ≠ [] →
          Shielded state := by
        intro same inside starting
        rw [same] at starting
        exact absurd (shielded starting).2 inside
      cases event with
      | lines pending =>
          cases went
          exact shielded
      | calls request =>
          rcases step_calls_begun went with ⟨actions, source, _, outside, _, rfl⟩
          intro starting
          rcases starts_arm source starting with ⟨deadlineNs, rfl⟩
          exact ⟨careful deadlineNs rfl, outside⟩
      | acts =>
          rcases step_acts went with ⟨action, rest, left, outside, rfl⟩
          have asked := shows.asked
          rw [left] at asked
          have before_starts : starts rest = true → starts before.state.program = true := by
            rw [left]
            exact starts_earlier
          intro starting
          cases action with
          | line call =>
              have last := asked.line_last
              subst last
              have nothing :
                  ({ before.state with program := [] }.perform (.line call)).program = [] := by
                simp only [State.perform]
                split
                · rfl
                · split <;> rfl
              rw [nothing] at starting
              cases starting
          | msrCntvCval value | msrCntvCtl value => exact shielded (before_starts starting)
          | msrVbarEl1 | publishGic | register | msrDaifClr | msrDaif =>
              rcases asked.starting (starts_earlier starting) with ⟨value, clash | clash⟩ <;>
                cases clash
      | taken line =>
          rcases step_taken went with ⟨unmasked, _, rfl⟩
          have same : before.state.takeIrq.program = before.state.program := by
            rw [State.takeIrq]
            split <;> rfl
          intro starting
          rw [same] at starting
          cases unmasked.symm.trans (shielded starting).1
      | reads raw =>
          rcases step_reads went with ⟨savedDaif, outer, here, came⟩
          have inside : before.state.frames ≠ [] := by
            rw [here]
            exact List.cons_ne_nil _ _
          rcases came with ⟨_, rfl⟩ | ⟨_, rfl⟩ <;> exact unchanged rfl inside
      | handles =>
          rcases step_handles went with ⟨⟨savedDaif, point⟩, outer, here, handled⟩
          have inside : before.state.frames ≠ [] := by
            rw [here]
            exact List.cons_ne_nil _ _
          cases point with
          | acknowledges | panicked => cases handled
          | masksTimer | endsTimer | endsUnhandled | returns =>
              cases handled
              exact unchanged rfl inside

/-! ## What is shown -/

variable {happening : Happening}

theorem shown_deliver (label : shown ⟨before, happening, after⟩ = some .deliver) :
    happening = .event (.reads timerIrq) := by
  cases happening with
  | tick => cases label
  | event event =>
      cases event with
      | reads raw =>
          by_cases timer : raw = timerIrq
          · rw [timer]
          · cases label.symm.trans (if_neg timer)
      | calls request => cases request <;> cases label
      | acts =>
          rw [shown] at label
          rcases Option.map_eq_some_iff.mp label with ⟨write, _, clash⟩
          cases clash
      | lines | taken | handles => cases label

theorem shown_begin {call : Deadline.Call}
    (label : shown ⟨before, happening, after⟩ = some (.begin call)) :
    (∃ deadlineNs, call = .arm deadlineNs ∧
      happening = .event (.calls (.armDeadline deadlineNs))) ∨
      (call = .cancel ∧ happening = .event (.calls .cancelDeadline)) := by
  cases happening with
  | tick => cases label
  | event event =>
      cases event with
      | reads raw =>
          by_cases timer : raw = timerIrq
          · cases label.symm.trans (if_pos timer)
          · cases label.symm.trans (if_neg timer)
      | calls request =>
          cases request with
          | armDeadline deadlineNs =>
              cases label
              exact .inl ⟨deadlineNs, rfl, rfl⟩
          | cancelDeadline =>
              cases label
              exact .inr ⟨rfl, rfl⟩
          | enable | disable | restoreIrqState => cases label
      | acts =>
          rw [shown] at label
          rcases Option.map_eq_some_iff.mp label with ⟨write, _, clash⟩
          cases clash
      | lines | taken | handles => cases label

theorem Shows.careful (shows : Shows cpu gic reset before machine)
    (shielded : Shielded before.state) (step : CarefulStep cpu before happening after) :
    ∃ later, Shown (GuardedStep cpu) machine (shown ⟨before, happening, after⟩) later ∧
      Shows cpu gic reset after later ∧ Shielded after.state := by
  rcases shows.step step.1 with ⟨later, seen, reached⟩
  refine ⟨later, ?_, reached, shielded.step shows step⟩
  generalize label : shown ⟨before, happening, after⟩ = visible at seen ⊢
  cases seen with
  | stutter => exact .stutter
  | step taken =>
      refine .step ⟨taken, ?_⟩
      rintro rfl
      have read := shown_deliver label
      subst read
      rcases step_event step.1.1 with ⟨_, went, _⟩
      rcases step_reads went with ⟨savedDaif, outer, here, _⟩
      have still : starts before.state.program = false := by
        by_contra starting
        have outside := (shielded (Bool.eq_true_of_not_eq_false starting)).2
        cases outside.symm.trans here
      rw [arming, shows.pending]
      exact still

theorem careful_run {trace : List (Transition Board Happening)}
    (shows : Shows cpu gic reset before machine) (shielded : Shielded before.state)
    (run : Run (CarefulStep cpu) before trace after) :
    ∃ timerTrace later, Run (GuardedStep cpu) machine timerTrace later ∧
      labels timerTrace = trace.filterMap shown ∧ Shows cpu gic reset after later ∧
        Shielded after.state :=
  @run_shown _ _ _ _ (CarefulStep cpu) (GuardedStep cpu)
    (fun board machine => Shows cpu gic reset board machine ∧ Shielded board.state) _ _ _ _ shown
    ⟨shows, shielded⟩ (fun _ _ _ _ related step => related.1.careful related.2 step) run

end Careful

/-! ## The protocol on the board -/

def Arms (deadlineNs : UInt64) (taken : Transition Board Happening) : Prop :=
  taken.label = .event (.calls (.armDeadline deadlineNs))

def Cancels (taken : Transition Board Happening) : Prop :=
  taken.label = .event (.calls .cancelDeadline)

/-- `irq_entry` acknowledges the interrupt of the timer. -/
def Strikes (taken : Transition Board Happening) : Prop := taken.label = .event (.reads timerIrq)

def NoCalls (during : List (Transition Board Happening)) : Prop :=
  ∀ taken ∈ during, ∀ request, taken.label ≠ .event (.calls request)

/-- What a one-shot deadline promises of the runs of the board. -/
structure BoardProtocol (cpu : QemuVirtCpu) (start : Board) : Prop where
  /-- The interrupt of the timer is acknowledged when the clock has reached a deadline that a
  task has armed and whose ticks the comparator holds. -/
  due : ∀ trace before after, Run (CarefulStep cpu) start trace before →
    CarefulStep cpu before (.event (.reads timerIrq)) after →
    ∃ deadlineNs now, (∃ taken ∈ trace, Arms deadlineNs taken) ∧
      nsToTicks deadlineNs cpu.frequencyHz = .ok before.state.cntvCval ∧
      cpu.nowNs before.cntvct = .ok now ∧ deadlineNs ≤ now
  /-- Between two acknowledgements `arm_deadline` is called. -/
  rearmed : ∀ front first between second back after,
    Run (CarefulStep cpu) start (front ++ first :: (between ++ second :: back)) after →
    Strikes first → Strikes second → ∃ taken ∈ between, ∃ deadlineNs, Arms deadlineNs taken
  /-- After a returned `cancel_deadline` there is none before `arm_deadline` is called. -/
  cancelled : ∀ front call during returned later before after,
    Run (CarefulStep cpu) start (front ++ call :: during) returned → Cancels call → NoCalls during →
    returned.state.program = [] → Run (CarefulStep cpu) returned later before →
    CarefulStep cpu before (.event (.reads timerIrq)) after →
    ∃ taken ∈ later, ∃ deadlineNs, Arms deadlineNs taken
  /-- After a returned `arm_deadline` the line is raised and enabled once the deadline is
  due, until it is acknowledged or cancelled; a later call may replace the deadline. -/
  kept : ∀ front deadlineNs call during returned later after,
    Run (CarefulStep cpu) start (front ++ call :: during) returned → Arms deadlineNs call →
    NoCalls during → (∀ taken ∈ during, ¬ Strikes taken) → returned.state.program = [] →
    Run (CarefulStep cpu) returned later after → (∀ taken ∈ later, ¬ Cancels taken ∧ ¬ Strikes taken) →
    ∃ current, ((∀ taken ∈ later, ∀ other, ¬ Arms other taken) → current = deadlineNs) ∧
      ∀ now, cpu.nowNs after.cntvct = .ok now → current ≤ now →
        after.raised ∧ after.state.bus.device.enabled timerIrq.toNat = true

section Transfer

variable {cpu : QemuVirtCpu} {gic : QemuVirtGic} {reset : Gicv2} {start after : Board}
  {machine : Machine} {trace : List (Transition Board Happening)}

theorem shown_begin_of {taken : Transition Board Happening} {deadlineNs : UInt64}
    (label : shown taken = some (.begin (.arm deadlineNs))) : Arms deadlineNs taken := by
  rcases shown_begin label with ⟨other, same, called⟩ | ⟨clash, _⟩
  · cases same
    exact called
  · cases clash

theorem armed_in {deadlineNs : UInt64}
    (member : Deadline.Event.begin (.arm deadlineNs) ∈ trace.filterMap shown) :
    ∃ taken ∈ trace, Arms deadlineNs taken := by
  rcases List.mem_filterMap.mp member with ⟨taken, inside, label⟩
  exact ⟨taken, inside, shown_begin_of label⟩

theorem no_begin (noCalls : NoCalls trace) (call : Deadline.Call) :
    Deadline.Event.begin call ∉ trace.filterMap shown := by
  intro member
  rcases List.mem_filterMap.mp member with ⟨taken, inside, label⟩
  rcases shown_begin label with ⟨deadlineNs, _, called⟩ | ⟨_, called⟩
  · exact noCalls taken inside _ called
  · exact noCalls taken inside _ called

theorem no_deliver (quiet : ∀ taken ∈ trace, ¬ Strikes taken) :
    Deadline.Event.deliver ∉ trace.filterMap shown := by
  intro member
  rcases List.mem_filterMap.mp member with ⟨taken, inside, label⟩
  exact quiet taken inside (shown_deliver label)

theorem no_cancel (quiet : ∀ taken ∈ trace, ¬ Cancels taken) :
    Deadline.Event.begin .cancel ∉ trace.filterMap shown := by
  intro member
  rcases List.mem_filterMap.mp member with ⟨taken, inside, label⟩
  rcases shown_begin label with ⟨deadlineNs, clash, _⟩ | ⟨_, called⟩
  · cases clash
  · exact quiet taken inside called

theorem shown_strike {taken : Transition Board Happening} (strikes : Strikes taken) :
    shown taken = some .deliver := by
  rw [shown, strikes]
  exact if_pos rfl

theorem shown_arms {taken : Transition Board Happening} {deadlineNs : UInt64}
    (armed : Arms deadlineNs taken) : shown taken = some (.begin (.arm deadlineNs)) := by
  rw [shown, armed]

theorem shown_cancels {taken : Transition Board Happening} (cancels : Cancels taken) :
    shown taken = some (.begin .cancel) := by
  rw [shown, cancels]

theorem programmed_asked {first later : Machine} {path : List (Transition Machine Deadline.Event)}
    (unprogrammed : first.programmed = none) (uncalled : first.call = none)
    (run : Run (Deadline.Step cpu) first path later) {deadlineNs : UInt64}
    (known : later.programmed = some deadlineNs ∨ later.call = some (.arm deadlineNs)) :
    Deadline.Event.begin (.arm deadlineNs) ∈ labels path := by
  induction run with
  | nil =>
      rw [unprogrammed, uncalled] at known
      rcases known with clash | clash <;> cases clash
  | @snoc path middle later event earlier step ih =>
      rw [labels_snoc, List.mem_append]
      cases event with
      | begin call =>
          rcases OneShot.step_begin step with ⟨_, writes, _, rfl⟩
          rcases known with programmed | called
          · exact .inl (ih (.inl programmed))
          · cases called
            exact .inr List.mem_cons_self
      | write =>
          rcases OneShot.step_write step with ⟨write, rest, _, rfl⟩
          left
          apply ih
          rcases known with programmed | called
          · cases write with
            | cntvCval value =>
                rcases Option.bind_eq_some_iff.mp programmed with ⟨call, called, deadline⟩
                cases call with
                | arm other =>
                    cases deadline
                    exact .inr called
                | cancel => cases deadline
            | cntvCtl | gicdIsenabler | gicdIcenabler | giccEoir => exact .inl programmed
          · exact .inr called
      | tick =>
          cases OneShot.step_tick step
          exact .inl (ih known)
      | deliver =>
          rcases OneShot.step_deliver step with ⟨_, rfl⟩
          exact .inl (ih known)

theorem seen_running {state : State} (running : timerEnabled (seenControl state)) :
    seenControl state = state.cntvCtl := by
  unfold seenControl at running ⊢
  split at running
  · exact absurd running stopped_control
  · rfl

theorem strike_delivers (shows : Shows cpu gic reset start machine) (shielded : Shielded start.state)
    (step : CarefulStep cpu start (.event (.reads timerIrq)) after) :
    ∃ later, GuardedStep cpu machine .deliver later := by
  rcases shows.careful shielded step with ⟨later, seen, _⟩
  have label : shown ⟨start, .event (.reads timerIrq), after⟩ = some .deliver := shown_strike rfl
  rw [label] at seen
  cases seen with
  | step taken => exact ⟨later, taken⟩

end Transfer

section OneShot

variable {cpu : QemuVirtCpu} {gic : QemuVirtGic} {reset : Gicv2} {pending : Nat → Bool}
  {cntvCval cntvCtl cntvct : UInt64}

theorem handed_over_shielded :
    Shielded (State.handedOver gic reset pending cntvCval cntvCtl) := by
  have nothing : (hardwareSetup gic reset).filterMap timerWrite = [] :=
    List.filterMap_eq_nil_iff.mpr fun action member => setup_shows_nothing member
  intro starting
  have clash : (List.any [] arms) = true := by
    rw [← nothing]
    exact starting
  cases clash

theorem reset_quiet (stopped : ¬ timerEnabled cntvCtl)
    (disabled : reset.enabled timerIrq.toNat = false) :
    Quiet (timerAtReset reset cntvCval cntvCtl cntvct) where
  stopped := stopped
  disabled := by
    simp [Deadline.Registers.irqEnabled, timerAtReset, disabled]
  inactive := rfl
  idle := rfl
  unprogrammed := rfl

/-- The one-shot deadline holds of the whole board, whatever other lines do, however the
controller answers and wherever interrupts fall, if the counter runs at 1 GHz or less, the
timer was off at reset, `arm_deadline` is only called with interrupts masked, and only the
driver turns the line of the timer on or off. -/
theorem board_one_shot (slow : cpu.frequencyHz.toNat ≤ 10 ^ 9) (stopped : ¬ timerEnabled cntvCtl)
    (disabled : reset.enabled timerIrq.toNat = false) :
    BoardProtocol cpu (.handedOver gic reset pending cntvCval cntvCtl cntvct) := by
  have quiet : Quiet (timerAtReset reset cntvCval cntvCtl cntvct) := reset_quiet stopped disabled
  have shows : Shows cpu gic reset (.handedOver gic reset pending cntvCval cntvCtl cntvct)
    (timerAtReset reset cntvCval cntvCtl cntvct) := handed_over_shows
  have shielded : Shielded
      (Board.handedOver gic reset pending cntvCval cntvCtl cntvct).state := handed_over_shielded
  constructor
  · intro trace before after run step
    rcases careful_run shows shielded run with ⟨path, machine, timerRun, same, seen, safe⟩
    rcases strike_delivers seen safe step with ⟨later, delivered⟩
    have plain := OneShot.unguarded_run timerRun
    obtain ⟨deadlineNs, now, programmed, shownNow, due⟩ :=
      OneShot.delivery_due slow quiet plain delivered.1
    refine ⟨deadlineNs, now, armed_in ?_, ?_, ?_, due⟩
    · rw [← same]
      exact programmed_asked rfl rfl plain (.inl programmed)
    · rw [← seen.comparator]
      exact (OneShot.coherent_of_run quiet plain).programmed deadlineNs programmed
    · rw [← seen.counter]
      exact shownNow
  · intro front first between second back after run firstStrikes secondStrikes
    have cut : front ++ first :: (between ++ second :: back) =
        (front ++ first :: (between ++ [second])) ++ back := by simp
    rw [cut] at run
    rcases run_split run with ⟨middle, struck, _⟩
    rcases careful_run shows shielded struck with ⟨path, machine, timerRun, same, _⟩
    rw [List.filterMap_append, List.filterMap_cons, shown_strike firstStrikes,
      List.filterMap_append, List.filterMap_cons, shown_strike secondStrikes] at same
    obtain ⟨deadlineNs, member⟩ := OneShot.delivery_rearmed timerRun same
    obtain ⟨taken, inside, armed⟩ := armed_in member
    exact ⟨taken, inside, deadlineNs, armed⟩
  · intro front call during returned later before after run cancels noCalls idle rest step
    rcases careful_run shows shielded run with ⟨path, machine, timerRun, same, seen, safe⟩
    rcases careful_run seen safe rest with ⟨laterPath, last, laterRun, laterSame, lastSeen, lastSafe⟩
    rcases strike_delivers lastSeen lastSafe step with ⟨struck, delivered⟩
    rw [List.filterMap_append, List.filterMap_cons, shown_cancels cancels] at same
    have empty : machine.pending = [] := by
      rw [seen.pending, idle]
      rfl
    obtain ⟨deadlineNs, member⟩ := OneShot.cancel_silences (OneShot.unguarded_run timerRun) same
      (no_begin noCalls) empty (OneShot.unguarded_run laterRun) delivered.1
    rw [laterSame] at member
    obtain ⟨taken, inside, armed⟩ := armed_in member
    exact ⟨taken, inside, deadlineNs, armed⟩
  · intro front deadlineNs call during returned later after run armed noCalls undelivered idle rest
      untouched
    rcases careful_run shows shielded run with ⟨path, machine, timerRun, same, seen, safe⟩
    rcases careful_run seen safe rest with ⟨laterPath, last, laterRun, laterSame, lastSeen, _⟩
    rw [List.filterMap_append, List.filterMap_cons, shown_arms armed] at same
    have empty : machine.pending = [] := by
      rw [seen.pending, idle]
      rfl
    have uncancelled : Deadline.Event.begin .cancel ∉ labels laterPath := by
      rw [laterSame]
      exact no_cancel fun taken member => (untouched taken member).1
    have unseen : Deadline.Event.deliver ∉ labels laterPath := by
      rw [laterSame]
      exact no_deliver fun taken member => (untouched taken member).2
    obtain ⟨current, _, own, raised⟩ := OneShot.arm_kept slow quiet (OneShot.unguarded_run timerRun)
      same (no_begin noCalls) (no_deliver undelivered) empty (OneShot.unguarded_run laterRun)
      uncancelled unseen
    refine ⟨current, ?_, ?_⟩
    · intro noArm
      apply own
      intro other member
      rw [laterSame] at member
      obtain ⟨taken, inside, called⟩ := armed_in member
      exact noArm taken inside other called
    · intro now shownNow due
      rw [← lastSeen.counter] at shownNow
      rcases raised now shownNow due with ⟨asserted, enabled⟩
      refine ⟨?_, lastSeen.line.mp enabled⟩
      have control : last.registers.cntvCtl = after.state.cntvCtl :=
        lastSeen.control.trans (seen_running (lastSeen.control ▸ asserted.1))
      rw [Deadline.Registers.asserted, control, lastSeen.comparator, lastSeen.counter] at asserted
      exact asserted

end OneShot

def boardAtReset : Board := .handedOver default oneWord (fun _ => false) 0 0 0

theorem board_one_shot_virt : BoardProtocol OneShot.virtCpu boardAtReset :=
  board_one_shot (by decide) (by decide) rfl

theorem board_refines_timer_strikes : ∃ trace after,
    Run (DriverStep OneShot.virtCpu) boardAtReset trace after ∧
      labels trace = timerStrikes.map .event ∧
      ∃ timerTrace machine,
        Run (Deadline.Step OneShot.virtCpu) (timerAtReset oneWord 0 0 0) timerTrace machine ∧
          Deadline.Event.deliver ∈ labels timerTrace ∧ machine.pending = [] := by
  have ends : (follow (Board.next OneShot.virtCpu) boardAtReset (timerStrikes.map .event)).map
      (fun board => board.state.program.length) = some 0 := by
    rw [boardAtReset, Board.handedOver, ← atReset, at_reset_program]
    decide +kernel
  rcases Option.map_eq_some_iff.mp ends with ⟨after, followed, idle⟩
  rcases run_of_follow followed with ⟨trace, followedRun, same⟩
  have leaves : ∀ taken ∈ trace, leavesTimer taken.label = true := by
    have all : (timerStrikes.map Happening.event).all leavesTimer = true := by decide
    intro taken member
    apply List.all_eq_true.mp all
    rw [← same]
    exact List.mem_map_of_mem member
  have run : Run (DriverStep OneShot.virtCpu) boardAtReset trace after :=
    run_strengthen followedRun leaves
  rcases board_refines_timer run with ⟨timerTrace, machine, timerRun, seen, _, _, empty, _⟩
  refine ⟨trace, after, run, same, timerTrace, machine, timerRun, ?_,
    empty (List.length_eq_zero_iff.mp idle)⟩
  have struck : Happening.event (.reads timerIrq) ∈ labels trace := by
    rw [same]
    simp [timerStrikes, timerIrq]
  rcases List.mem_map.mp struck with ⟨taken, member, label⟩
  rw [seen]
  exact List.mem_filterMap.mpr ⟨taken, member, shown_strike label⟩

end Tyrne.BoardTimer
