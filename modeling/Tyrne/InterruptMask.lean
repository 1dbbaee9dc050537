import Tyrne.ContextIntegrity
import Tyrne.CriticalSection

/-!
# Who unmasks interrupts

`start` and every bridge function switch inside a critical section, and the mask is not
part of a context. A task that comes for the first time runs with the mask of the switch
that brought it, so interrupts reach a task only if it has unmasked them itself.
-/

namespace Tyrne.Board

open Tyrne.Lib.Effect
open Tyrne.Lib.Runs
open Tyrne.Cap
open Tyrne.System (World)
open Tyrne.Sched
open Tyrne.Aarch64
open Tyrne.CriticalSection

set_option autoImplicit false

variable {Party : Type}

/-- The task of `idx`, in its own code, unmasks interrupts. -/
structure Unmasks (idx : Index) (taken : BoardTransition Party) : Prop where
  control : running taken.before = some idx
  own : ∃ world machine, taken.label = .kernel ⟨.elsewhere world machine, .ok .computed⟩
  masked : irqsUnmasked taken.before.machine = false
  unmasked : irqsUnmasked taken.after.machine = true

def HasUnmasked (trace : BoardTrace Party) (idx : Index) : Prop := ∃ taken ∈ trace, Unmasks idx taken

/-- Whoever runs, or will go on, with interrupts unmasked has unmasked them itself. -/
structure Accountable (trace : BoardTrace Party) (kernel : BoardKernel Party) : Prop where
  inControl : irqsUnmasked kernel.machine = true →
    ∃ idx, running kernel = some idx ∧ kernel.frames idx = .outside ∧ HasUnmasked trace idx
  suspended : ∀ idx guard, guardOf (kernel.frames idx) = some guard →
    (IrqGuard.mk guard).sawUnmasked = true → HasUnmasked trace idx

section Steps

variable {trace : BoardTrace Party} {kernel after : BoardKernel Party} {taken : BoardTransition Party}

theorem HasUnmasked.later {idx : Index} (unmasked : HasUnmasked trace idx)
    (next : BoardTransition Party) : HasUnmasked (trace ++ [next]) idx := by
  rcases unmasked with ⟨taken, member, unmasks⟩
  exact ⟨taken, List.mem_append_left _ member, unmasks⟩

theorem Accountable.kept (accountable : Accountable trace kernel)
    (machine : after.machine = kernel.machine) (frames : after.frames = kernel.frames)
    (control : running after = running kernel) : Accountable (trace ++ [taken]) after := by
  constructor
  · intro unmasked
    rw [machine] at unmasked
    rcases accountable.inControl unmasked with ⟨idx, isRunning, outside, cause⟩
    refine ⟨idx, control.trans isRunning, ?_, cause.later taken⟩
    rw [frames]
    exact outside
  · intro idx guard held saw
    rw [frames] at held
    exact (accountable.suspended idx guard held saw).later taken

theorem switch_masked (placement : Placement) (old new : Aarch64TaskContext) (registers : Registers) :
    irqsUnmasked (contextSwitch placement old new (disableIrqs registers).2).2 = false := by
  have run := (context_switch_run placement old new (disableIrqs registers).2).masked
    contextSwitchAsm.length
  rw [List.take_length] at run
  have same : (contextSwitch placement old new (disableIrqs registers).2).2.daif =
      (disableIrqs registers).2.daif := run
  rw [irqsUnmasked, same]
  exact masked_off registers

theorem Accountable.switched {placement : Placement} {leaving coming : TaskHandle}
    {old new : Aarch64TaskContext} {suspended : Frame Party}
    (window : Switched (qemuVirtCpu placement) kernel after leaving coming old new suspended)
    (accountable : Accountable trace kernel) : Accountable (trace ++ [taken]) after := by
  constructor
  · intro unmasked
    have masked := switch_masked placement old new kernel.machine
    rw [window.machine] at unmasked
    exact absurd (masked.symm.trans unmasked) Bool.false_ne_true
  · intro idx guard held saw
    rw [window.frames] at held
    by_cases leaves : idx = slotOf leaving
    · subst leaves
      rw [Function.update_self, window.guarded] at held
      cases held
      have unmasked : irqsUnmasked kernel.machine = true := by
        rw [← restored kernel.machine kernel.machine]
        exact saw
      rcases accountable.inControl unmasked with ⟨idx, isRunning, _, cause⟩
      cases (running_some window.leaves).symm.trans isRunning
      exact cause.later taken
    · rw [Function.update_of_ne leaves] at held
      exact (accountable.suspended idx guard held saw).later taken

theorem Accountable.resumed {placement : Placement} {current : TaskHandle} {guard : IrqState}
    (back : Resumed (qemuVirtCpu placement) kernel after current guard)
    (accountable : Accountable trace kernel) : Accountable (trace ++ [taken]) after := by
  have control : running after = some (slotOf current) := by
    rw [running, back.scheduler]
    exact running_some back.control
  constructor
  · intro unmasked
    have saw : (IrqGuard.mk guard).sawUnmasked = true := by
      rw [back.machine] at unmasked
      exact unmasked
    refine ⟨slotOf current, control, ?_, ?_⟩
    · rw [back.frames, Function.update_self]
    · exact (accountable.suspended _ guard back.suspended saw).later taken
  · intro idx other held saw
    rw [back.frames] at held
    by_cases leaves : idx = slotOf current
    · subst leaves
      rw [Function.update_self] at held
      cases held
    · rw [Function.update_of_ne leaves] at held
      exact (accountable.suspended idx other held saw).later taken

theorem Accountable.computed {world : World Party} {machine : Registers} (rest : AtRest kernel)
    (accountable : Accountable trace kernel) :
    Accountable (trace ++ [⟨kernel, .kernel ⟨.elsewhere world machine, .ok .computed⟩,
      { kernel with world := world, machine := machine }⟩])
      { kernel with world := world, machine := machine } := by
  rcases rest with ⟨current, isCurrent, outside⟩
  have control := running_some isCurrent
  constructor
  · intro unmasked
    refine ⟨slotOf current, control, outside, ?_⟩
    by_cases before : irqsUnmasked kernel.machine = true
    · rcases accountable.inControl before with ⟨idx, isRunning, _, cause⟩
      cases control.symm.trans isRunning
      exact cause.later _
    · refine ⟨_, List.mem_append_right _ (List.mem_singleton_self _), control, ⟨world, machine, rfl⟩, ?_,
        unmasked⟩
      exact Bool.eq_false_iff.mpr before
  · intro idx guard held saw
    exact (accountable.suspended idx guard held saw).later _

variable [DecidableEq Party] {build : Build} {label : BoardLabel Party}

theorem BoardStep.accountable (intact : Intact kernel) (accountable : Accountable trace kernel)
    (step : BoardStep build kernel label after) :
    Accountable (trace ++ [⟨kernel, label, after⟩]) after := by
  rcases step with ⟨placement, step⟩
  cases label with
  | addTask registration result =>
      rcases step with ⟨_, vacant, returned⟩
      rcases add_task_added intact vacant returned with ⟨rfl, added⟩
      exact accountable.kept added.machine added.frames added.control
  | kernel label =>
      have window := KernelStep.window intact step
      rcases label with ⟨event, result⟩
      cases window with
      | kept quiet same control =>
          have machine : after.machine = kernel.machine := congrArg (fun parts => parts.2.1) same
          have frames : after.frames = kernel.frames := congrArg (fun parts => parts.2.2) same
          exact accountable.kept machine frames (congrArg (Option.map slotOf) control)
      | switched switches =>
          rcases switches with ⟨leaving, coming, old, new, suspended, switched⟩
          exact Accountable.switched switched accountable
      | resumed resumed => exact accountable.resumed resumed
      | computed rest moved =>
          subst moved
          exact accountable.computed rest

end Steps

/-- What becomes of the mask in a bridge call: one that returns leaves it, and one that was
switched out returns with the mask of its last switch-out. -/
structure MaskKept (front : BoardTrace Party) (taken : BoardTransition Party) : Prop where
  returns : ∀ call result, taken.label = .kernel ⟨.call call, result⟩ →
    result ≠ .ok .switched → taken.after.machine.daif = taken.before.machine.daif
  resumes : ∀ idx result, taken.label = .kernel ⟨.resume, result⟩ →
    running taken.before = some idx →
    ∃ out, Latest (SwitchesOut idx) front out ∧
      taken.after.machine.daif = out.before.machine.daif

theorem Integrity.mask_kept {registrations : List Registration} {front : BoardTrace Party}
    {taken : BoardTransition Party} (integrity : Integrity registrations front taken) :
    MaskKept front taken where
  returns := by
    intro call result isCall returns
    rw [integrity.returns call result isCall returns]
  resumes := by
    intro idx result isResume control
    rcases integrity.resumes idx result isResume control with ⟨out, latest, _, _, machine⟩
    refine ⟨out, latest, ?_⟩
    rw [machine]

section Boot

variable {registrations : List Registration} (world : World Party) (placement : Placement)
  (machine : Registers) [DecidableEq Party] (build : Build)

/-- However the mask stood at boot: the first task is entered masked, every bridge call
returns with the mask it was called with, and in every state of every run after `start`,
interrupts are unmasked only in the own code of a task that has unmasked them there
itself. -/
theorem interrupts_stay_masked (anyone : registrations ≠ [])
    (registrable : Registrable (registrations.map Registration.handle)) :
    ∃ booted, start (qemuVirtCpu placement) registrations
        (powerOn (qemuVirtCpu placement) world machine) = .ok () booted ∧
      irqsUnmasked booted.machine = false ∧
      ∀ trace after, Run (BoardStep build) booted trace after →
        (irqsUnmasked after.machine = true →
          ∃ idx, running after = some idx ∧ after.frames idx = .outside ∧
            HasUnmasked trace idx) ∧
        ∀ front taken back, trace = front ++ taken :: back → MaskKept front taken := by
  rcases boot_run (qemuVirtCpu placement) world machine anyone registrable with
    ⟨booted, first, rest, ran, handles, intact, shown⟩
  rcases start_window registrable.distinct ran with ⟨prepared, current, next, control, found, loaded⟩
  have held := held_at_boot handles intact shown prepared
  have masked : irqsUnmasked booted.machine = false := by
    rw [loaded]
    exact switch_masked placement .default next machine
  have accountable : Accountable ([] : BoardTrace Party) booted := by
    constructor
    · intro unmasked
      exact absurd (masked.symm.trans unmasked) Bool.false_ne_true
    · intro idx guard suspended _
      have outside : booted.frames idx = .outside := congrFun (congrArg View.frames shown) idx
      rw [outside] at suspended
      cases suspended
  refine ⟨booted, ran, masked, ?_⟩
  intro trace after run
  have both : Held registrations trace after ∧ Accountable trace after := by
    induction run with
    | nil => exact ⟨held, accountable⟩
    | snoc earlier step ih =>
        exact ⟨BoardStep.held ih.1 step, BoardStep.accountable ih.1.intact ih.2 step⟩
  refine ⟨both.2.inControl, ?_⟩
  rintro front taken back rfl
  rcases run_at run with ⟨early, step⟩
  exact ((held_of_run held early).integrity step).mask_kept

end Boot

/-- Two tasks, booted with interrupts unmasked. -/
theorem interrupts_stay_masked_duo :
    irqsUnmasked afterReset = true ∧
    ∃ booted, start (qemuVirtCpu neighbours) duo
        (powerOn (qemuVirtCpu neighbours) sharedWorld afterReset) = .ok () booted ∧
      irqsUnmasked booted.machine = false ∧
      ∀ trace after, Run (BoardStep ⟨true⟩) booted trace after →
        (irqsUnmasked after.machine = true →
          ∃ idx, running after = some idx ∧ after.frames idx = .outside ∧
            HasUnmasked trace idx) ∧
        ∀ front taken back, trace = front ++ taken :: back → MaskKept front taken :=
  ⟨by decide, interrupts_stay_masked sharedWorld neighbours afterReset ⟨true⟩ (by simp [duo])
    ⟨by decide, by decide⟩⟩

end Tyrne.Board
