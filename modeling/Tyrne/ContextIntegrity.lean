import Tyrne.Aarch64
import Tyrne.Script
import Tyrne.SwitchWindow

/-!
# Contexts across switches

The scheduler on the board. A task that leaves in a bridge function and comes back finds
the registers it left with, a task that comes for the first time begins at its entry
point, and nobody else touches what was saved.
-/

namespace Tyrne.Board

open Tyrne.Lib.Effect
open Tyrne.Lib.Runs
open Tyrne.Lib.ByteMemory
open Tyrne.Cap
open Tyrne.System (World)
open Tyrne.Sched
open Tyrne.Aarch64

set_option autoImplicit false

variable {Party : Type}

/-! ## Runs of the board -/

abbrev BoardKernel (Party : Type) : Type := Kernel Party Aarch64TaskContext Registers

/-- What happens in the kernel, or `add_task` called by the task in control. -/
inductive BoardLabel (Party : Type) where
  | kernel (label : KernelLabel Party Registers)
  | addTask (registration : Registration) (result : Except SchedError Unit)

abbrev BoardTransition (Party : Type) : Type :=
  Transition (BoardKernel Party) (BoardLabel Party)

abbrev BoardTrace (Party : Type) : Type := List (BoardTransition Party)

/-- One step, with the contexts of a switch anywhere in memory. A task is added to a slot
that no task has. -/
def BoardStep [DecidableEq Party] (build : Build) (kernel : BoardKernel Party)
    (label : BoardLabel Party) (after : BoardKernel Party) : Prop :=
  ∃ placement : Placement,
    match label with
    | .kernel label => KernelStep (qemuVirtCpu placement) build kernel label after
    | .addTask registration result => AtRest kernel ∧
        handlesOf kernel.sched (slotOf registration.handle) = none ∧
        ((onSched (Sched.addTask (qemuVirtCpu placement) registration.handle registration.entry
          registration.stackTop) : KernelM Party _ _ Unit) kernel).Returned result after

def running (kernel : BoardKernel Party) : Option Index := kernel.sched.current.map slotOf

def IsSwitch (taken : BoardTransition Party) : Prop :=
  ∃ call, taken.label = .kernel ⟨.call call, .ok .switched⟩

def SwitchesOut (idx : Index) (taken : BoardTransition Party) : Prop :=
  IsSwitch taken ∧ running taken.before = some idx

def SwitchesIn (idx : Index) (taken : BoardTransition Party) : Prop :=
  IsSwitch taken ∧ running taken.after = some idx

def registrationIn (taken : BoardTransition Party) : Option Registration :=
  match taken.label with
  | .addTask registration (.ok _) => some registration
  | _ => none

/-- The registrations at boot and since. -/
def registered (registrations : List Registration) (trace : BoardTrace Party) :
    List Registration :=
  registrations ++ trace.filterMap registrationIn

/-! ## What holds of a task that is not in control -/

/-- The slot holds a context that begins where the registration says. -/
def Begins (sched : Scheduler Aarch64TaskContext) (registration : Registration) : Prop :=
  ∃ context, sched.contexts[slotOf registration.handle]? = some context ∧
    context.lr = registration.entry ∧ context.sp = registration.stackTop

/-- The callee-saved registers are those of the task of `idx`: in the machine if it is in
control, else in its slot. -/
structure Carries (kernel : BoardKernel Party) (idx : Index) (registers : Registers) : Prop where
  loaded : running kernel = some idx →
    calleeSaved kernel.machine = calleeSaved registers ∧ kernel.machine.pc = registers.x 30
  saved : running kernel ≠ some idx →
    kernel.sched.contexts[idx]? = some (calleeSaved registers)

/-- A task inside a bridge function carries what it last left with, and its guard has the
mask of then; a task that never ran has the context it was registered with. -/
structure Held (registrations : List Registration) (trace : BoardTrace Party)
    (kernel : BoardKernel Party) : Prop where
  intact : Intact kernel
  known : ∀ idx, kernel.frames idx ≠ .outside → handlesOf kernel.sched idx ≠ none
  suspended : ∀ idx, kernel.frames idx ≠ .outside →
    ∃ out, Latest (SwitchesOut idx) trace out ∧
      guardOf (kernel.frames idx) = some (readDaif out.before.machine) ∧
      Carries kernel idx out.before.machine
  waiting : ∀ idx handle, handlesOf kernel.sched idx = some handle →
    running kernel ≠ some idx → kernel.frames idx = .outside →
    ∃ registration ∈ registered registrations trace, registration.handle = handle ∧
      Begins kernel.sched registration

section Steps

variable {registrations : List Registration} {trace : BoardTrace Party}
  {kernel after : BoardKernel Party} {taken : BoardTransition Party}

theorem registered_later {registration : Registration}
    (member : registration ∈ registered registrations trace) (next : BoardTransition Party) :
    registration ∈ registered registrations (trace ++ [next]) := by
  rw [registered, List.filterMap_append, ← List.append_assoc]
  exact List.mem_append_left _ member

theorem begins_congr {sched other : Scheduler Aarch64TaskContext} {registration : Registration}
    (same : other.contexts[slotOf registration.handle]? =
      sched.contexts[slotOf registration.handle]?)
    (begins : Begins sched registration) : Begins other registration := by
  rw [Begins, same]
  exact begins

theorem running_some {current : TaskHandle} (control : kernel.sched.current = some current) :
    running kernel = some (slotOf current) :=
  congrArg (Option.map slotOf) control

theorem control_known (intact : Intact kernel) {current : TaskHandle}
    (control : kernel.sched.current = some current) :
    handlesOf kernel.sched (slotOf current) = some current := by
  cases control.symm.trans intact.shows.current
  exact (intact.orderly.enrolled _ List.mem_cons_self).1

/-- A step that is no switch: the contexts and who is in control stay, and at most the
task in control goes back to its own code. -/
structure Quiet (kernel after : BoardKernel Party) : Prop where
  contexts : after.sched.contexts = kernel.sched.contexts
  control : running after = running kernel
  handles : handlesOf after.sched = handlesOf kernel.sched
  frames : ∀ idx, after.frames idx = kernel.frames idx ∨
    after.frames idx = .outside ∧ running kernel = some idx
  machine : ∀ idx, running kernel = some idx → after.frames idx ≠ .outside →
    after.machine = kernel.machine

theorem Held.quiet (held : Held registrations trace kernel) (quiet : Quiet kernel after)
    (intact : Intact after) (other : ¬ IsSwitch taken) :
    Held registrations (trace ++ [taken]) after := by
  have still : ∀ idx, after.frames idx ≠ .outside → after.frames idx = kernel.frames idx := by
    intro idx inside
    rcases quiet.frames idx with same | ⟨back, _⟩
    · exact same
    · exact absurd back inside
  refine ⟨intact, ?_, ?_, ?_⟩
  · intro idx inside
    rw [quiet.handles]
    exact held.known idx (still idx inside ▸ inside)
  · intro idx inside
    rcases held.suspended idx (still idx inside ▸ inside) with ⟨out, latest, guarded, carries⟩
    refine ⟨out, latest.later fun leaves => other leaves.1, ?_, ?_, ?_⟩
    · rw [still idx inside]
      exact guarded
    · intro control
      rw [quiet.control] at control
      rw [quiet.machine idx control inside]
      exact carries.loaded control
    · intro control
      rw [quiet.control] at control
      rw [quiet.contexts]
      exact carries.saved control
  · intro idx handle found control outside
    rw [quiet.handles] at found
    rw [quiet.control] at control
    have before : kernel.frames idx = .outside := by
      rcases quiet.frames idx with same | ⟨_, inControl⟩
      · exact same.symm.trans outside
      · exact absurd inControl control
    rcases held.waiting idx handle found control before with ⟨registration, member, same, begins⟩
    refine ⟨registration, registered_later member taken, same, ?_⟩
    exact begins_congr (by rw [quiet.contexts]) begins

section Switched

variable {placement : Placement} {leaving coming : TaskHandle} {old new : Aarch64TaskContext}
  {suspended : Frame Party}
  (window : Switched (qemuVirtCpu placement) kernel after leaving coming old new suspended)
include window

theorem switched_contexts (inRange : slotOf leaving < taskArenaCapacity) :
    after.sched.contexts =
      kernel.sched.contexts.set (slotOf leaving) (calleeSaved kernel.machine) inRange := by
  have saved : ((qemuVirtCpu placement).contextSwitch old new
      ((qemuVirtCpu placement).disableIrqs kernel.machine).2).1 = calleeSaved kernel.machine :=
    (context_switch_run placement old new (disableIrqs kernel.machine).2).saved
  apply Vector.ext
  intro idx bound
  rw [← saved, window.contexts, Vector.getElem_setIfInBounds, Vector.getElem_set]

theorem switched_saved :
    after.sched.contexts[slotOf leaving]? = some (calleeSaved kernel.machine) := by
  rcases Vector.getElem?_eq_some_iff.mp window.replaced with ⟨inRange, _⟩
  rw [switched_contexts window inRange, Vector.getElem?_set_self]

theorem switched_others {idx : Index} (other : slotOf leaving ≠ idx) :
    after.sched.contexts[idx]? = kernel.sched.contexts[idx]? := by
  rw [window.contexts, Vector.getElem?_setIfInBounds_ne other]

theorem switched_loaded :
    calleeSaved after.machine = new ∧ after.machine.pc = new.lr := by
  have run := context_switch_run placement old new (disableIrqs kernel.machine).2
  rw [window.machine]
  exact ⟨run.loaded, run.returns⟩

theorem switched_carries_own : Carries after (slotOf leaving) kernel.machine where
  loaded := by
    intro control
    exact absurd (Option.some.inj (control.symm.trans (running_some window.comes))) window.apart
  saved := fun _ => switched_saved window

theorem switched_carries {idx : Index} {registers : Registers} (other : idx ≠ slotOf leaving)
    (saved : kernel.sched.contexts[idx]? = some (calleeSaved registers)) :
    Carries after idx registers where
  loaded := by
    intro control
    cases Option.some.inj (control.symm.trans (running_some window.comes))
    cases window.loaded.symm.trans saved
    exact switched_loaded window
  saved := by
    intro _
    rw [switched_others window (Ne.symm other)]
    exact saved

theorem Held.switched (held : Held registrations trace kernel) (intact : Intact after)
    (handles : handlesOf after.sched = handlesOf kernel.sched) (isSwitch : IsSwitch taken)
    (origin : taken.before = kernel) : Held registrations (trace ++ [taken]) after := by
  have left := running_some window.leaves
  have elsewhere : ∀ idx, idx ≠ slotOf leaving → after.frames idx = kernel.frames idx := by
    intro idx other
    rw [window.frames, Function.update_of_ne other]
  have apart : ∀ idx, idx ≠ slotOf leaving → running kernel ≠ some idx := by
    intro idx other control
    exact other (Option.some.inj (control.symm.trans left))
  have notOut : ∀ idx, idx ≠ slotOf leaving → ¬ SwitchesOut idx taken := by
    intro idx other leaves
    exact apart idx other (origin ▸ leaves.2)
  refine ⟨intact, ?_, ?_, ?_⟩
  · intro idx inside
    rw [handles]
    by_cases own : idx = slotOf leaving
    · rw [own, control_known held.intact window.leaves]
      simp
    · exact held.known idx (elsewhere idx own ▸ inside)
  · intro idx inside
    by_cases own : idx = slotOf leaving
    · subst own
      refine ⟨taken, latest_now ⟨isSwitch, origin ▸ left⟩, ?_, ?_⟩
      · rw [window.frames, Function.update_self, window.guarded, origin]
        rfl
      · rw [origin]
        exact switched_carries_own window
    · rw [elsewhere idx own] at inside ⊢
      rcases held.suspended idx inside with ⟨out, latest, guarded, carries⟩
      exact ⟨out, latest.later (notOut idx own), guarded,
        switched_carries window own (carries.saved (apart idx own))⟩
  · intro idx handle found control outside
    have own : idx ≠ slotOf leaving := by
      rintro rfl
      rw [window.frames, Function.update_self] at outside
      have guarded := window.guarded
      rw [outside] at guarded
      cases guarded
    rw [handles] at found
    rw [elsewhere idx own] at outside
    rcases held.waiting idx handle found (apart idx own) outside with
      ⟨registration, member, same, begins⟩
    have home := (held.intact.orderly.home idx handle found).1
    refine ⟨registration, registered_later member taken, same, ?_⟩
    apply begins_congr _ begins
    rw [same, home]
    exact switched_others window (Ne.symm own)

end Switched

section Added

/-- A task took its slot and is at the end of the line; nothing else changed. -/
structure Added (kernel after : BoardKernel Party) (registration : Registration) : Prop where
  intact : Intact after
  control : running after = running kernel
  handles : handlesOf after.sched = Function.update (handlesOf kernel.sched)
    (slotOf registration.handle) (some registration.handle)
  machine : after.machine = kernel.machine
  frames : after.frames = kernel.frames
  others : ∀ idx, slotOf registration.handle ≠ idx →
    after.sched.contexts[idx]? = kernel.sched.contexts[idx]?
  begins : Begins after.sched registration

variable {registration : Registration}

theorem add_task_added {placement : Placement} {result : Except SchedError Unit}
    (intact : Intact kernel)
    (vacant : handlesOf kernel.sched (slotOf registration.handle) = none)
    (returned : ((onSched (Sched.addTask (qemuVirtCpu placement) registration.handle
      registration.entry registration.stackTop) : KernelM Party _ _ Unit) kernel).Returned result
      after) :
    result = .ok () ∧ Added kernel after registration := by
  rcases zoom_returned returned with ⟨sched, ran, rfl⟩
  rcases add_task_contexts ran with ⟨context, found, _⟩
  rcases Vector.getElem?_eq_some_iff.mp found with ⟨inRange, _⟩
  rcases add_task_run (qemuVirtCpu placement) intact.shows intact.orderly.room inRange
    registration.entry registration.stackTop with ⟨final, finalRan, reads⟩
  rcases ran.unique (show Outcome.Returned _ (.ok ()) final from finalRan) with ⟨isOk, rfl⟩
  have aside : (rosterOf kernel.sched).states (slotOf registration.handle) ≠ .ready := by
    rw [(intact.orderly.vacant _).mpr vacant]
    simp
  have displays : Displays { kernel with sched := sched }
      ⟨(rosterOf kernel.sched).enroll registration.handle, kernel.world, kernel.frames⟩ :=
    ⟨reads, rfl, rfl⟩
  refine ⟨isOk, displays.intact (intact.orderly.enroll aside inRange), ?_, reads.handles, rfl, rfl,
    fun idx other => add_task_others other ran, ?_⟩
  · rw [running, running, reads.current, intact.shows.current]
  · rcases add_task_prepared ran with ⟨blank, stored⟩
    exact ⟨_, stored, rfl, rfl⟩

theorem Held.added (held : Held registrations trace kernel)
    (vacant : handlesOf kernel.sched (slotOf registration.handle) = none)
    (added : Added kernel after registration)
    (label : taken.label = .addTask registration (.ok ())) :
    Held registrations (trace ++ [taken]) after := by
  have listed : registration ∈ registered registrations (trace ++ [taken]) := by
    apply List.mem_append_right
    apply List.mem_filterMap.mpr
    exact ⟨taken, by simp, by rw [registrationIn, label]⟩
  have otherSlot : ∀ idx, kernel.frames idx ≠ .outside → slotOf registration.handle ≠ idx := by
    rintro idx inside rfl
    exact held.known _ inside vacant
  refine ⟨added.intact, ?_, ?_, ?_⟩
  · intro idx inside
    rw [added.frames] at inside
    rw [added.handles, Function.update_of_ne (Ne.symm (otherSlot idx inside))]
    exact held.known idx inside
  · intro idx inside
    rw [added.frames] at inside ⊢
    rcases held.suspended idx inside with ⟨out, latest, guarded, carries⟩
    refine ⟨out, latest.later ?_, guarded, ?_, ?_⟩
    · rintro ⟨⟨call, isCall⟩, _⟩
      cases label.symm.trans isCall
    · rw [added.control, added.machine]
      exact carries.loaded
    · rw [added.control, added.others idx (otherSlot idx inside)]
      exact carries.saved
  · intro idx handle found notRunning outside
    rw [added.control] at notRunning
    rw [added.frames] at outside
    by_cases same : idx = slotOf registration.handle
    · rw [added.handles, same, Function.update_self] at found
      cases found
      exact ⟨registration, listed, rfl, added.begins⟩
    · rw [added.handles, Function.update_of_ne same] at found
      rcases held.waiting idx handle found notRunning outside with
        ⟨earlier, member, isHandle, stored⟩
      have home := (held.intact.orderly.home idx handle found).1
      refine ⟨earlier, registered_later member taken, isHandle, ?_⟩
      apply begins_congr _ stored
      rw [isHandle, home]
      exact added.others idx (Ne.symm same)

end Added

/-! ## Steps and runs -/

theorem quiet_of_kept (same : hardwareOf after = hardwareOf kernel)
    (control : after.sched.current = kernel.sched.current)
    (handles : handlesOf after.sched = handlesOf kernel.sched) : Quiet kernel after where
  contexts := congrArg Prod.fst same
  control := congrArg (Option.map slotOf) control
  handles := handles
  frames := fun idx => Or.inl (congrFun (congrArg (fun parts => parts.2.2) same) idx)
  machine := fun _ _ _ => congrArg (fun parts => parts.2.1) same

theorem quiet_of_resumed {placement : Placement} {current : TaskHandle} {guard : IrqState}
    (resumed : Resumed (qemuVirtCpu placement) kernel after current guard) :
    Quiet kernel after where
  contexts := congrArg Scheduler.contexts resumed.scheduler
  control := by rw [running, running, resumed.scheduler]
  handles := by rw [resumed.scheduler]
  frames := by
    intro idx
    rw [resumed.frames]
    by_cases own : idx = slotOf current
    · exact Or.inr ⟨by rw [own, Function.update_self], own ▸ running_some resumed.control⟩
    · exact Or.inl (Function.update_of_ne own _ _)
  machine := by
    intro idx control inside
    cases (running_some resumed.control).symm.trans control
    rw [resumed.frames, Function.update_self] at inside
    exact absurd rfl inside

theorem quiet_of_computed {world : World Party} {machine : Registers} (rest : AtRest kernel) :
    Quiet kernel { kernel with world := world, machine := machine } where
  contexts := rfl
  control := rfl
  handles := rfl
  frames := fun _ => Or.inl rfl
  machine := by
    intro idx control inside
    rcases rest with ⟨current, isCurrent, outside⟩
    cases (running_some isCurrent).symm.trans control
    exact absurd outside inside

variable [DecidableEq Party] {build : Build} {label : BoardLabel Party}

theorem BoardStep.held (held : Held registrations trace kernel)
    (step : BoardStep build kernel label after) :
    Held registrations (trace ++ [⟨kernel, label, after⟩]) after := by
  rcases step with ⟨placement, step⟩
  cases label with
  | addTask registration result =>
      rcases step with ⟨_, vacant, returned⟩
      rcases add_task_added held.intact vacant returned with ⟨rfl, added⟩
      exact held.added vacant added rfl
  | kernel label =>
      have window := KernelStep.window held.intact step
      have handles := KernelStep.handles held.intact step
      have intact := (KernelStep.view_step held.intact step).1
      rcases label with ⟨event, result⟩
      cases window with
      | kept quiet same control =>
          apply held.quiet (quiet_of_kept same control handles) intact
          rintro ⟨call, isSwitch⟩
          cases isSwitch
          exact quiet rfl
      | switched switches =>
          rcases switches with ⟨leaving, coming, old, new, suspended, switched⟩
          exact Held.switched switched held intact handles ⟨_, rfl⟩ rfl
      | resumed resumed =>
          apply held.quiet (quiet_of_resumed resumed) intact
          rintro ⟨call, isSwitch⟩
          cases isSwitch
      | computed rest moved =>
          subst moved
          apply held.quiet (quiet_of_computed rest) intact
          rintro ⟨call, isSwitch⟩
          cases isSwitch

theorem held_of_run (held : Held registrations [] kernel)
    (run : Run (BoardStep build) kernel trace after) : Held registrations trace after := by
  induction run with
  | nil => exact held
  | snoc earlier step ih => exact BoardStep.held ih step

end Steps

/-! ## Integrity -/

/-- The state in which `context_switch_asm` is entered with these registers, for two slots
of the array of contexts at `base`. -/
def atWindow (memory : Memory) (base : Nat) (leaving coming : Index) (entered : Registers) :
    Aarch64.State where
  registers := entered.withArguments
    (UInt64.ofNat (base + Aarch64TaskContext.size * leaving))
    (UInt64.ofNat (base + Aarch64TaskContext.size * coming))
  memory := memory

/-- The switch of a transition as the instructions carry it out on the array of contexts
at `base`. `entered` is what the transition calls `context_switch` with, as its outcome shows. -/
structure CarriedOut (taken : BoardTransition Party) (memory : Memory) (base : Nat)
    (leaving coming : Index) (entered : Registers) : Prop where
  apart : leaving ≠ coming
  leaves : running taken.before = some leaving
  comes : running taken.after = some coming
  called : ∃ placement old new, taken.before.sched.contexts[leaving]? = some old ∧
    taken.before.sched.contexts[coming]? = some new ∧
    taken.after.machine = (contextSwitch placement old new entered).2
  masked : ∀ count, (execute (contextSwitchAsm.take count)
    (atWindow memory base leaving coming entered)).registers.daif = 0xf
  contexts : Laid (execute contextSwitchAsm
    (atWindow memory base leaving coming entered)).memory base taken.after.sched.contexts
  registers : calleeSaved (execute contextSwitchAsm
    (atWindow memory base leaving coming entered)).registers = calleeSaved taken.after.machine
  returns : (execute contextSwitchAsm
    (atWindow memory base leaving coming entered)).registers.pc = taken.after.machine.pc

/-- What a transition does, given those before it. -/
structure Integrity (registrations : List Registration) (front : BoardTrace Party)
    (taken : BoardTransition Party) : Prop where
  /-- A bridge call that was switched out returns with the registers of its last
  switch-out, to the return address of then, under the mask of then. -/
  resumes : ∀ idx result, taken.label = .kernel ⟨.resume, result⟩ →
    running taken.before = some idx →
    ∃ out, Latest (SwitchesOut idx) front out ∧
      calleeSaved taken.before.machine = calleeSaved out.before.machine ∧
      taken.before.machine.pc = out.before.machine.x 30 ∧
      taken.after.machine = { taken.before.machine with daif := out.before.machine.daif }
  /-- One that was not switched out returns with every register as it was. -/
  returns : ∀ call result, taken.label = .kernel ⟨.call call, result⟩ →
    result ≠ .ok .switched → taken.after.machine = taken.before.machine
  /-- A task that was never switched out begins at its entry point, on its stack. -/
  begins : ∀ idx, SwitchesIn idx taken → (∀ earlier ∈ front, ¬ SwitchesOut idx earlier) →
    ∃ registration ∈ registered registrations front, slotOf registration.handle = idx ∧
      taken.after.sched.current = some registration.handle ∧
      taken.after.machine.pc = registration.entry ∧
      taken.after.machine.sp = registration.stackTop
  /-- Control arrives at the other task with everything masked. -/
  masks : IsSwitch taken → taken.after.machine.daif = 0xf
  switches : IsSwitch taken → ∀ memory base, Laid memory base taken.before.sched.contexts →
    base + Aarch64TaskContext.size * taskArenaCapacity ≤ 2 ^ 64 →
    ∃ leaving coming entered, CarriedOut taken memory base leaving coming entered
  /-- A saved context is written when its task leaves or is added, and by nothing else. -/
  keeps : ∀ idx, ¬ SwitchesOut idx taken →
    (∀ registration result, taken.label = .addTask registration result →
      slotOf registration.handle ≠ idx) →
    taken.after.sched.contexts[idx]? = taken.before.sched.contexts[idx]?

section Integrity

variable {registrations : List Registration} {front : BoardTrace Party}
  {taken : BoardTransition Party}

theorem carried_out {placement : Placement} {leaving coming : TaskHandle}
    {old new : Aarch64TaskContext} {suspended : Frame Party}
    (window : Switched (qemuVirtCpu placement) taken.before taken.after leaving coming old new
      suspended) {memory : Memory} {base : Nat}
    (laid : Laid memory base taken.before.sched.contexts)
    (fits : base + Aarch64TaskContext.size * taskArenaCapacity ≤ 2 ^ 64) :
    CarriedOut taken memory base (slotOf leaving) (slotOf coming)
      (disableIrqs taken.before.machine).2 := by
  rcases Vector.getElem?_eq_some_iff.mp window.replaced with ⟨leavingBound, _⟩
  rcases Vector.getElem?_eq_some_iff.mp window.loaded with ⟨comingBound, loaded⟩
  have address : ∀ idx, idx < taskArenaCapacity →
      (UInt64.ofNat (base + Aarch64TaskContext.size * idx)).toNat =
        base + Aarch64TaskContext.size * idx := by
    intro idx bound
    apply UInt64.toNat_ofNat_of_lt'
    rw [Aarch64TaskContext.size_eq] at fits ⊢
    rw [UInt64.size]
    omega
  have run := @context_array_switch
    (atWindow memory base (slotOf leaving) (slotOf coming) (disableIrqs taken.before.machine).2)
    _ base _ laid fits
    ⟨slotOf leaving, leavingBound⟩ ⟨slotOf coming, comingBound⟩
    (fun same => window.apart (congrArg Fin.val same)) (address _ leavingBound)
    (address _ comingBound)
  have arrives := switched_loaded window
  refine ⟨window.apart, running_some window.leaves, running_some window.comes,
    ⟨placement, old, new, window.replaced, window.loaded, window.machine⟩, ?_, ?_, ?_, ?_⟩
  · intro count
    exact execute_daif _ _
  · rw [switched_contexts window leavingBound]
    exact run.1
  · rw [arrives.1, ← loaded]
    exact run.2.1
  · rw [arrives.2, ← loaded]
    exact run.2.2

theorem restore_mask (registers other : Registers) :
    restoreIrqState (readDaif registers) other = { other with daif := registers.daif } := by
  have daif := restore_read_daif registers other
  simp only [restoreIrqState] at daif ⊢
  rw [daif]

variable {kernel after : BoardKernel Party} {placement : Placement}

theorem Held.resumed {current : TaskHandle} {guard : IrqState}
    (held : Held registrations front kernel)
    (resumed : Resumed (qemuVirtCpu placement) kernel after current guard) :
    ∃ out, Latest (SwitchesOut (slotOf current)) front out ∧
      calleeSaved kernel.machine = calleeSaved out.before.machine ∧
      kernel.machine.pc = out.before.machine.x 30 ∧
      after.machine = { kernel.machine with daif := out.before.machine.daif } := by
  have inside : kernel.frames (slotOf current) ≠ .outside := by
    intro outside
    have suspended := resumed.suspended
    rw [outside] at suspended
    cases suspended
  have control := running_some resumed.control
  rcases held.suspended _ inside with ⟨out, latest, guarded, carries⟩
  rcases carries.loaded control with ⟨registers, returns⟩
  cases resumed.suspended.symm.trans guarded
  exact ⟨out, latest, registers, returns, resumed.machine.trans (restore_mask _ _)⟩

theorem Held.begins {leaving coming : TaskHandle} {old new : Aarch64TaskContext}
    {suspended : Frame Party} (held : Held registrations front kernel)
    (window : Switched (qemuVirtCpu placement) kernel after leaving coming old new suspended)
    (known : handlesOf kernel.sched (slotOf coming) = some coming)
    (never : ∀ earlier ∈ front, ¬ SwitchesOut (slotOf coming) earlier) :
    ∃ registration ∈ registered registrations front, registration.handle = coming ∧
      after.machine.pc = registration.entry ∧ after.machine.sp = registration.stackTop := by
  have outside : kernel.frames (slotOf coming) = .outside := by
    by_contra inside
    rcases held.suspended _ inside with ⟨out, latest, _⟩
    exact never out latest.member.1 latest.member.2
  have other : running kernel ≠ some (slotOf coming) := by
    rw [running_some window.leaves]
    intro same
    exact window.apart (Option.some.inj same)
  rcases held.waiting _ _ known other outside with
    ⟨registration, member, same, context, stored, entry, stackTop⟩
  rw [same, window.loaded] at stored
  cases stored
  rcases switched_loaded window with ⟨loaded, returns⟩
  refine ⟨registration, member, same, returns.trans entry, ?_⟩
  have sp : after.machine.sp = new.sp := congrArg Aarch64TaskContext.sp loaded
  exact sp.trans stackTop

theorem integrity_of_switch {leaving coming : TaskHandle} {old new : Aarch64TaskContext}
    {suspended : Frame Party} (held : Held registrations front taken.before)
    (isSwitch : IsSwitch taken)
    (window : Switched (qemuVirtCpu placement) taken.before taken.after leaving coming old new
      suspended)
    (known : handlesOf taken.before.sched (slotOf coming) = some coming) :
    Integrity registrations front taken where
  resumes := by
    intro idx result isResume
    rcases isSwitch with ⟨call, isCall⟩
    cases isCall.symm.trans isResume
  returns := by
    intro call result isCall returns
    rcases isSwitch with ⟨other, isOther⟩
    cases isOther.symm.trans isCall
    exact absurd rfl returns
  begins := by
    rintro idx ⟨_, comes⟩ never
    cases (running_some window.comes).symm.trans comes
    rcases held.begins window known never with ⟨registration, member, rfl, entry, stackTop⟩
    exact ⟨registration, member, rfl, window.comes, entry, stackTop⟩
  masks := by
    intro _
    rw [window.machine]
    exact execute_daif _ _
  switches := by
    intro _ memory base laid fits
    exact ⟨_, _, _, carried_out window laid fits⟩
  keeps := by
    intro idx notOut _
    apply switched_others window
    intro own
    exact notOut ⟨isSwitch, own ▸ running_some window.leaves⟩

/-- Of a transition that is no switch only the resumption, the registers of a call that
returns, and the contexts have to be looked at. -/
theorem integrity_of_quiet (other : ¬ IsSwitch taken)
    (resumes : ∀ idx result, taken.label = .kernel ⟨.resume, result⟩ →
      running taken.before = some idx →
      ∃ out, Latest (SwitchesOut idx) front out ∧
        calleeSaved taken.before.machine = calleeSaved out.before.machine ∧
        taken.before.machine.pc = out.before.machine.x 30 ∧
        taken.after.machine = { taken.before.machine with daif := out.before.machine.daif })
    (returns : ∀ call result, taken.label = .kernel ⟨.call call, result⟩ →
      taken.after.machine = taken.before.machine)
    (keeps : ∀ idx, (∀ registration result, taken.label = .addTask registration result →
      slotOf registration.handle ≠ idx) →
      taken.after.sched.contexts[idx]? = taken.before.sched.contexts[idx]?) :
    Integrity registrations front taken where
  resumes := resumes
  returns := fun call result isCall _ => returns call result isCall
  begins := fun _ comes => absurd comes.1 other
  masks := fun isSwitch => absurd isSwitch other
  switches := fun isSwitch => absurd isSwitch other
  keeps := fun idx _ apart => keeps idx apart

variable [DecidableEq Party] {build : Build}

theorem Held.integrity {label : BoardLabel Party} (held : Held registrations front kernel)
    (step : BoardStep build kernel label after) :
    Integrity registrations front ⟨kernel, label, after⟩ := by
  rcases step with ⟨placement, step⟩
  cases label with
  | addTask registration result =>
      rcases step with ⟨_, vacant, returned⟩
      rcases add_task_added held.intact vacant returned with ⟨_, added⟩
      apply integrity_of_quiet
      · rintro ⟨call, ⟨⟩⟩
      · rintro idx result ⟨⟩
      · rintro call result ⟨⟩
      · intro idx apart
        exact added.others idx (apart registration result rfl)
  | kernel label =>
      have window := KernelStep.window held.intact step
      have intact := (KernelStep.view_step held.intact step).1
      have handles : handlesOf after.sched = handlesOf kernel.sched :=
        KernelStep.handles held.intact step
      rcases label with ⟨event, result⟩
      cases window with
      | kept quiet same control =>
          apply integrity_of_quiet
          · rintro ⟨call, ⟨⟩⟩
            exact quiet rfl
          · rintro idx result ⟨⟩
          · intro call result _
            exact congrArg (fun parts => parts.2.1) same
          · intro idx _
            exact congrArg (fun parts => parts.1[idx]?) same
      | switched switches =>
          rcases switches with ⟨leaving, coming, old, new, suspended, switched⟩
          have known := control_known intact switched.comes
          rw [handles] at known
          exact integrity_of_switch held ⟨_, rfl⟩ switched known
      | resumed resumed =>
          apply integrity_of_quiet
          · rintro ⟨call, ⟨⟩⟩
          · rintro idx result ⟨⟩ control
            cases (running_some resumed.control).symm.trans control
            exact held.resumed resumed
          · rintro call result ⟨⟩
          · intro idx _
            simp only [resumed.scheduler]
      | computed rest moved =>
          apply integrity_of_quiet
          · rintro ⟨call, ⟨⟩⟩
          · rintro idx result ⟨⟩
          · rintro call result ⟨⟩
          · intro idx _
            simp only [moved]

end Integrity

/-! ## Boot -/

section Boot

variable {registrations : List Registration} {booted : BoardKernel Party} {world : World Party}
  {placement : Placement} {machine : Registers}

/-- `start` loads the first task with interrupts masked; it begins at its entry point, on
its stack. -/
structure Boots (placement : Placement) (machine : Registers) (registrations : List Registration)
    (booted : BoardKernel Party) (first : Registration) : Prop where
  listed : first ∈ registrations
  control : booted.sched.current = some first.handle
  entry : booted.machine.pc = first.entry
  stackTop : booted.machine.sp = first.stackTop
  masked : ∃ next, booted.sched.contexts[slotOf first.handle]? = some next ∧
    booted.machine = (contextSwitch placement .default next (disableIrqs machine).2).2 ∧
    ∀ count, (execute (contextSwitchAsm.take count)
      (placement.enter .default next (disableIrqs machine).2)).registers.daif = 0xf

theorem prepared_begins {sched : Scheduler Aarch64TaskContext} {registration : Registration}
    (prepared : Prepared (qemuVirtCpu placement) sched registration) :
    Begins sched registration := by
  rcases prepared with ⟨blank, stored⟩
  exact ⟨_, stored, rfl, rfl⟩

theorem held_at_boot {first : TaskHandle} {rest : List TaskHandle}
    (handles : registrations.map Registration.handle = first :: rest) (intact : Intact booted)
    (shown : viewOf booted = ⟨startingRoster first rest, world, fun _ => .outside⟩)
    (prepared : ∀ registration ∈ registrations,
      Prepared (qemuVirtCpu placement) booted.sched registration) :
    Held registrations [] booted := by
  have frames : booted.frames = fun _ => .outside := congrArg View.frames shown
  have outside : ∀ idx, booted.frames idx = .outside := fun idx => congrFun frames idx
  refine ⟨intact, fun idx inside => absurd (outside idx) inside,
    fun idx inside => absurd (outside idx) inside, ?_⟩
  intro idx handle found _ _
  have roster : rosterOf booted.sched = startingRoster first rest := congrArg View.roster shown
  have known : (first :: rest).find? (fun handle => slotOf handle = idx) = some handle := by
    have same := congrFun (congrArg Roster.handles roster) idx
    exact same.symm.trans found
  have member : handle ∈ registrations.map Registration.handle := by
    rw [handles]
    exact List.mem_of_find?_eq_some known
  rcases List.mem_map.mp member with ⟨registration, listed, same⟩
  refine ⟨registration, ?_, same, prepared_begins (prepared registration listed)⟩
  exact List.mem_append_left _ listed

theorem boots {first : Registration} (listed : first ∈ registrations)
    (prepared : Prepared (qemuVirtCpu placement) booted.sched first)
    (control : booted.sched.current = some first.handle) {next : Aarch64TaskContext}
    (found : booted.sched.contexts[slotOf first.handle]? = some next)
    (loaded : booted.machine = (contextSwitch placement .default next (disableIrqs machine).2).2) :
    Boots placement machine registrations booted first := by
  have run := context_switch_run placement .default next (disableIrqs machine).2
  rcases prepared_begins prepared with ⟨context, stored, entry, stackTop⟩
  cases found.symm.trans stored
  have registers := run.loaded
  have pc := run.returns
  rw [← loaded] at registers pc
  have sp : booted.machine.sp = next.sp := congrArg Aarch64TaskContext.sp registers
  exact ⟨listed, control, pc.trans entry, sp.trans stackTop, next, found, loaded, run.masked⟩

variable [DecidableEq Party] (world placement machine) (build : Build)

/-- Boot with at least one task, slots distinct and in range. In every run from there,
whatever bridge functions the tasks call, wherever the contexts are in memory, and
whatever tasks are added to slots of their own, every transition keeps the contexts
intact. -/
theorem context_integrity (anyone : registrations ≠ [])
    (registrable : Registrable (registrations.map Registration.handle)) :
    ∃ booted first, start (qemuVirtCpu placement) registrations
        (powerOn (qemuVirtCpu placement) world machine) = .ok () booted ∧
      Boots placement machine registrations booted first ∧
      ∀ trace after, Run (BoardStep build) booted trace after →
        ∀ front taken back, trace = front ++ taken :: back →
          Integrity registrations front taken := by
  rcases boot_run (qemuVirtCpu placement) world machine anyone registrable with
    ⟨booted, first, rest, ran, handles, intact, shown⟩
  rcases start_window registrable.distinct ran with ⟨prepared, current, next, control, found, loaded⟩
  have held := held_at_boot handles intact shown prepared
  have starts : current = first := by
    have same : (rosterOf booted.sched).current = first :=
      congrArg (fun view => view.roster.current) shown
    cases control.symm.trans intact.shows.current
    exact same
  have member : first ∈ registrations.map Registration.handle := by
    rw [handles]
    exact List.mem_cons_self
  rcases List.mem_map.mp member with ⟨registration, listed, same⟩
  rw [starts, ← same] at control found
  refine ⟨booted, registration, ran,
    boots listed (prepared registration listed) control found loaded, ?_⟩
  rintro trace after run front taken back rfl
  rcases run_at run with ⟨early, step⟩
  exact (held_of_run held early).integrity step

end Boot

/-! ## Two tasks on the board -/

def onBoard (taken : Transition (BoardKernel Party) (KernelLabel Party Registers)) :
    BoardTransition Party :=
  ⟨taken.before, .kernel taken.label, taken.after⟩

theorem on_board_run [DecidableEq Party] {placement : Placement} {build : Build}
    {owner : Index → Party} {kernel after : BoardKernel Party}
    {trace : KernelTrace Party Aarch64TaskContext Registers}
    (run : Run (BridgeStep (qemuVirtCpu placement) build owner) kernel trace after) :
    Run (BoardStep build) kernel (trace.map onBoard) after := by
  induction run with
  | nil => exact .nil
  | snoc earlier step ih =>
      rw [List.map_append]
      exact .snoc ih ⟨placement, step.1⟩

def neighbours : Placement where
  around := fun _ => 0
  currentAt := 0x40080000
  nextAt := 0x400800a8
  currentFits := by decide
  nextFits := by decide
  apart := by decide

def duo : List Registration :=
  [⟨⟨⟨0, 0⟩⟩, 0x40081000, 0x40090000⟩, ⟨⟨⟨1, 0⟩⟩, 0x40082000, 0x400a0000⟩]

def afterReset : Registers where
  x := fun _ => 0
  sp := 0
  d := fun _ => 0
  pc := 0
  daif := 0

def bootedDuo : BoardKernel Index :=
  (start (qemuVirtCpu neighbours) duo
    (powerOn (qemuVirtCpu neighbours) sharedWorld afterReset)).state?.getD
      (powerOn (qemuVirtCpu neighbours) sharedWorld afterReset)

def thereAndBack : List (Cue Index) := [yieldBy, yieldBy, .resume]

theorem context_integrity_there_and_back :
    ∃ front taken,
      (played (qemuVirtCpu neighbours) ⟨true⟩ thereAndBack bootedDuo).map onBoard =
        front ++ [taken] ∧
      taken.label = .kernel ⟨.resume, .ok .yielded⟩ ∧ Integrity duo front taken := by
  have registrable : Registrable (duo.map Registration.handle) := ⟨by decide, by decide⟩
  rcases context_integrity sharedWorld neighbours afterReset ⟨true⟩ (by simp [duo]) registrable
    with ⟨booted, first, ran, _, integrity⟩
  have same : bootedDuo = booted := by
    rw [bootedDuo, ran]
    rfl
  rw [← same] at integrity
  have ready : allPlayable (qemuVirtCpu neighbours) ⟨true⟩ id thereAndBack bootedDuo = true := by
    decide +kernel
  have whole : (played (qemuVirtCpu neighbours) ⟨true⟩ thereAndBack bootedDuo).map onBoard =
      [_, _] ++ [_] := rfl
  refine ⟨_, _, whole, ?_, integrity _ _ (on_board_run (played_run ready)) _ _ [] whole⟩
  have reports : (cueOutcome (qemuVirtCpu neighbours) ⟨true⟩
      (playedTo (qemuVirtCpu neighbours) ⟨true⟩ [yieldBy, yieldBy] bootedDuo)
      .resume).report? = some (.ok .yielded) := by
    decide +kernel
  exact congrArg (fun report => BoardLabel.kernel ⟨.resume, report.getD (.ok .computed)⟩) reports

end Tyrne.Board
