import Tyrne.Portable

/-!
# The kernel and the machine of rosters

Over rosters there is a task in control, a line, who waits on what and what is suspended:
no ring of slots, no arrays of states and handles, no contexts and no processor. The kernel
does what this machine does, and the machine does nothing that the kernel does not.
-/

namespace Tyrne.Sched

open Tyrne.Lib.Runs
open Tyrne.Lib.Lockstep
open Tyrne.Cap
open Tyrne.System (World)

set_option autoImplicit false

variable {Party Context Machine : Type} [DecidableEq Party]

/-- A step of the machine of rosters. -/
def RosterStep (build : Build) (before : View Party) (label : KernelLabel Party Machine)
    (after : View Party) : Prop :=
  ViewStep build before label.event label.result after

def bootView (world : World Party) (first : TaskHandle) (rest : List TaskHandle) : View Party :=
  ⟨startingRoster first rest, world, fun _ => .outside⟩

def viewed (taken : Transition (Kernel Party Context Machine) (KernelLabel Party Machine)) :
    Transition (View Party) (KernelLabel Party Machine) :=
  ⟨viewOf taken.before, taken.label, viewOf taken.after⟩

/-- The view shows the kernel, up to the interrupt states of suspended calls. -/
structure Tracks (view : View Party) (kernel : Kernel Party Context Machine) : Prop where
  alike : view.Alike (viewOf kernel)
  intact : Intact kernel

variable (cpu : Cpu Context Machine) (build : Build) (world : World Party) (machine : Machine)
  {registrations : List Registration}

/-- On any processor every run of the kernel from boot is, state by state, a run of the
machine of rosters, and every run of that machine is one of the kernel with the same events
and results. -/
theorem kernel_refines_roster (anyone : registrations ≠ [])
    (registrable : Registrable (registrations.map Registration.handle)) :
    ∃ booted first rest, start cpu registrations (powerOn cpu world machine) = .ok () booted ∧
      registrations.map Registration.handle = first :: rest ∧
      (∀ trace after, Run (KernelStep cpu build) booted trace after →
        Run (RosterStep build) (bootView world first rest) (trace.map viewed) (viewOf after)) ∧
      ∀ trace after,
        Run (RosterStep build : View Party → KernelLabel Party Machine → View Party → Prop)
          (bootView world first rest) trace after →
        ∃ kernelTrace final, Run (KernelStep cpu build) booted kernelTrace final ∧
          List.Forall₂ (Matching Tracks KernelLabel.Alike) trace kernelTrace ∧ Tracks after final := by
  rcases boot_run cpu world machine anyone registrable with
    ⟨booted, first, rest, ran, handles, intact, shown⟩
  refine ⟨booted, first, rest, ran, handles, ?_, ?_⟩
  · intro trace after run
    have moved (before : Kernel Party Context Machine) (label : KernelLabel Party Machine)
        (later : Kernel Party Context Machine) (sofar : Intact before)
        (step : KernelStep cpu build before label later) :
        RosterStep build (viewOf before) label (viewOf later) := (step.view_step sofar).2
    have image := run_map viewOf intact intact_preserved moved run
    rw [shown] at image
    exact image
  · intro trace after run
    have starts : Tracks (bootView world first rest) booted := by
      refine ⟨?_, intact⟩
      rw [shown]
      exact ⟨rfl, rfl, fun _ => rfl⟩
    refine run_lockstep starts ?_ run
    intro before label later kernel tracks step
    rcases ViewStep.carried step tracks.alike tracks.intact with
      ⟨kernelLabel, reached, taken, labels, alike, kept⟩
    exact ⟨kernelLabel, reached, taken, labels, alike, kept⟩

theorem kernel_refines_roster_relay :
    Run (RosterStep ⟨true⟩) (bootView sharedWorld ⟨⟨0, 0⟩⟩ [⟨⟨1, 0⟩⟩, ⟨⟨2, 0⟩⟩])
      ((played plainCpu ⟨true⟩ relay trio).map viewed)
      (viewOf (playedTo plainCpu ⟨true⟩ relay trio)) := by
  rcases @kernel_refines_roster _ _ _ _ plainCpu ⟨true⟩ sharedWorld (0, 0) _ (by simp)
    trio_registrable with ⟨reached, first, rest, ran, handles, law, _⟩
  have booted : trio = reached := booted_with ran
  rw [← booted] at law
  cases handles
  have run : Run (BridgeStep plainCpu ⟨true⟩ id) trio
      (played plainCpu ⟨true⟩ relay trio) (playedTo plainCpu ⟨true⟩ relay trio) :=
    played_run (by decide +kernel)
  exact law _ _ (run_weaken (fun _ _ _ step => step.1) run)

end Tyrne.Sched
