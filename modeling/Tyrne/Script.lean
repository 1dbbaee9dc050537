import Tyrne.Accounting
import Tyrne.Exchange

/-!
# Bridge runs and scripts

A bridge run is a run of the kernel in which every task uses its own table, creates
endpoints and destroys none. A script is a list of events; playing it from a kernel,
if every event finds the kernel ready for it, is a bridge run.
-/

namespace Tyrne.Sched

open Tyrne.Lib.Effect
open Tyrne.Lib.Runs
open Tyrne.Cap
open Tyrne.System (World Fresh)

set_option autoImplicit false

variable {Party Context Machine : Type}

abbrev KernelTrace (Party Context Machine : Type) : Type :=
  List (Transition (Kernel Party Context Machine) (KernelLabel Party Machine))

section Steps

variable [DecidableEq Party] (cpu : Cpu Context Machine) (build : Build) (owner : Index → Party)

/-- A kernel step in which the task in control uses its own table. -/
def BridgeStep (kernel : Kernel Party Context Machine) (label : KernelLabel Party Machine)
    (after : Kernel Party Context Machine) : Prop :=
  KernelStep cpu build kernel label after ∧
    Behaves build (owner (slotOf (rosterOf kernel.sched).current)) kernel.world label.event

/-! ## Scripts -/

/-- The part of a run that needs no outside world: calls and resumptions. -/
inductive Cue (Party : Type) where
  | call (call : Call Party)
  | resume

def Cue.event : Cue Party → Event Party Machine
  | .call made => .call made
  | .resume => .resume

def cueOutcome (kernel : Kernel Party Context Machine) :
    Cue Party → Outcome SchedFault SchedError (Kernel Party Context Machine) Reply
  | .call call => perform cpu build call kernel
  | .resume => resume cpu build kernel

def cueLabel (kernel : Kernel Party Context Machine) (cue : Cue Party) :
    KernelLabel Party Machine :=
  ⟨cue.event, (cueOutcome cpu build kernel cue).report?.getD (.ok .computed)⟩

def cueAfter (kernel : Kernel Party Context Machine) (cue : Cue Party) :
    Kernel Party Context Machine :=
  (cueOutcome cpu build kernel cue).state?.getD kernel

def atRest (kernel : Kernel Party Context Machine) : Bool :=
  match kernel.sched.current with
  | none => false
  | some current => kernel.frames current.slot.index = .outside

def Call.party? : Call Party → Option Party
  | .yieldNow => none
  | .ipcSendAndYield party _ _ _ => some party
  | .ipcRecvAndYield party _ => some party

/-- The task in control can act on this cue, and uses its own table. -/
def playable (kernel : Kernel Party Context Machine) (cue : Cue Party) : Bool :=
  let own := owner (slotOf (rosterOf kernel.sched).current)
  let allowed : Bool :=
    match cue with
    | .call call => atRest kernel && call.party?.all (· = own)
    | .resume => !atRest kernel
  allowed && (cueOutcome cpu build kernel cue).report?.isSome

def played : List (Cue Party) → Kernel Party Context Machine → KernelTrace Party Context Machine
  | [], _ => []
  | cue :: rest, kernel =>
      ⟨kernel, cueLabel cpu build kernel cue, cueAfter cpu build kernel cue⟩ ::
        played rest (cueAfter cpu build kernel cue)

def playedTo : List (Cue Party) → Kernel Party Context Machine → Kernel Party Context Machine
  | [], kernel => kernel
  | cue :: rest, kernel => playedTo rest (cueAfter cpu build kernel cue)

def allPlayable : List (Cue Party) → Kernel Party Context Machine → Bool
  | [], _ => true
  | cue :: rest, kernel =>
      playable cpu build owner kernel cue && allPlayable rest (cueAfter cpu build kernel cue)

variable {cpu build owner}

theorem at_rest_true {kernel : Kernel Party Context Machine} :
    atRest kernel = true ↔ AtRest kernel := by
  cases current : kernel.sched.current with
  | none => simp [atRest, AtRest, current]
  | some handle => simp [atRest, AtRest, current]

theorem cue_returned {kernel : Kernel Party Context Machine} {cue : Cue Party}
    (reports : (cueOutcome cpu build kernel cue).report?.isSome = true) :
    (cueOutcome cpu build kernel cue).Returned (cueLabel cpu build kernel cue).result
      (cueAfter cpu build kernel cue) := by
  rcases Option.isSome_iff_exists.mp reports with ⟨result, reported⟩
  have returned := returned_of_report kernel reported
  rw [cueLabel, reported]
  exact returned

theorem playable_step {kernel : Kernel Party Context Machine} {cue : Cue Party}
    (ready : playable cpu build owner kernel cue = true) :
    BridgeStep cpu build owner kernel (cueLabel cpu build kernel cue)
      (cueAfter cpu build kernel cue) := by
  rcases Bool.and_eq_true_iff.mp ready with ⟨allowed, reports⟩
  have returned := cue_returned reports
  cases cue with
  | call call =>
      rcases Bool.and_eq_true_iff.mp allowed with ⟨rest, own⟩
      refine ⟨⟨at_rest_true.mp rest, returned⟩, ?_⟩
      cases call with
      | yieldNow => exact .yields
      | ipcSendAndYield party epCap msg transfer =>
          have same : party = owner (slotOf (rosterOf kernel.sched).current) := by
            simpa [Call.party?] using own
          subst same
          exact .sends
      | ipcRecvAndYield party epCap =>
          have same : party = owner (slotOf (rosterOf kernel.sched).current) := by
            simpa [Call.party?] using own
          subst same
          exact .receives
  | resume =>
      refine ⟨⟨?_, returned⟩, .resumes⟩
      intro rest
      have busy : atRest kernel = false := by simpa using allowed
      rw [at_rest_true.mpr rest] at busy
      cases busy

theorem played_run {cues : List (Cue Party)} {kernel : Kernel Party Context Machine}
    (ready : allPlayable cpu build owner cues kernel = true) :
    Run (BridgeStep cpu build owner) kernel (played cpu build cues kernel)
      (playedTo cpu build cues kernel) := by
  induction cues generalizing kernel with
  | nil => exact .nil
  | cons cue rest ih =>
      rcases Bool.and_eq_true_iff.mp ready with ⟨first, later⟩
      exact run_append (.snoc .nil (playable_step first)) (ih later)

end Steps

theorem shared_world_fresh : Fresh sharedWorld where
  tables := fun _ => System.solo_world_fresh.tables ()
  arena := System.solo_world_fresh.arena
  queues := System.solo_world_fresh.queues

def sendBy (idx : Index) (label : UInt64) : Cue Index :=
  .call (.ipcSendAndYield idx ⟨0, 0⟩ ⟨label, #v[0, 0, 0]⟩ none)

def recvBy (idx : Index) : Cue Index := .call (.ipcRecvAndYield idx ⟨0, 0⟩)

def yieldBy : Cue Index := .call .yieldNow

end Tyrne.Sched
