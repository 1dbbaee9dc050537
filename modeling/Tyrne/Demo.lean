import Tyrne.KernelEntry

/-!
# The two-task demo

`task_a`, `task_b` and `idle_entry` of `bsp-qemu-virt/src/main.rs` as programs over the
bridge, started by `kernel_entry`. Between any two of their steps interrupts may change the
machine; what a task prints is recorded line by line, and every `expect` and every
`let .. else` that would panic is a point of the program of its own.
-/

namespace Tyrne.Demo

open Tyrne.Lib.Effect
open Tyrne.Lib.Runs
open Tyrne.Cap
open Tyrne.ObjArena (Live)
open Tyrne.Ipc
open Tyrne.System (World seenBy putBack)
open Tyrne.Sched
open Tyrne.KernelEntry

set_option autoImplicit false

/-! ## Task programs -/

/-- Where a task is in its program: before, or inside, the call with which it goes on. -/
inductive Point where
  | bReceives
  | bReplies
  | bYields
  | bSpins
  | aSends
  | aReceives
  | aSpins
  | idleWaits
  | idleYields
  | panicked (message : String)
  deriving DecidableEq, Repr

/-- What the tasks print. -/
inductive Line where
  | taskBWaiting
  | taskASending
  | taskBReceived (label : UInt64)
  | taskAReceived (label : UInt64)
  | allTasksComplete
  | elapsed (ns : UInt64)
  deriving DecidableEq, Repr

def messageOfA : Message := ⟨0xAAAA, #v[1, 2, 3]⟩

def replyOfB : Message := ⟨0xBBBB, Vector.replicate 3 0⟩

namespace Point

/-- The call a task makes at this point. -/
def call? (epCaps : Party → CapHandle) : Point → Option (Call Party)
  | .bReceives => some (.ipcRecvAndYield .b (epCaps .b))
  | .bReplies => some (.ipcSendAndYield .b (epCaps .b) replyOfB none)
  | .bYields => some .yieldNow
  | .aSends => some (.ipcSendAndYield .a (epCaps .a) messageOfA none)
  | .aReceives => some (.ipcRecvAndYield .a (epCaps .a))
  | .idleYields => some .yieldNow
  | .bSpins | .aSpins | .idleWaits | .panicked _ => none

def announces : Point → List Line
  | .bReceives => [.taskBWaiting]
  | .aSends => [.taskASending]
  | _ => []

/-- Where a task goes on when its call comes back, and what it prints; `elapsedNs` is the
time since boot. -/
def returned (elapsedNs : UInt64) (result : Except SchedError Reply) : Point → Point × List Line
  | .bReceives =>
      match result with
      | .ok (.received (.received msg _)) => (.bReplies, [.taskBReceived msg.label])
      | .ok _ =>
          (.panicked "task B: expected Received outcome from ipc_recv_and_yield", [])
      | .error _ => (.panicked "task B: ipc_recv failed", [])
  | .bReplies =>
      match result with
      | .ok _ => (.bYields, [])
      | .error _ => (.panicked "task B: ipc_send reply failed", [])
  | .bYields =>
      match result with
      | .ok _ => (.bSpins, [])
      | .error _ => (.panicked "task B: yield_now after reply failed", [])
  | .aSends =>
      match result with
      | .ok _ => (.aReceives, [])
      | .error _ => (.panicked "task A: ipc_send failed", [])
  | .aReceives =>
      match result with
      | .ok (.received (.received reply _)) =>
          (.aSpins, [.taskAReceived reply.label, .allTasksComplete, .elapsed elapsedNs])
      | .ok _ =>
          (.panicked "task A: expected Received outcome from reply ipc_recv_and_yield", [])
      | .error _ => (.panicked "task A: ipc_recv (reply) failed", [])
  | .idleYields =>
      match result with
      | .ok _ => (.idleWaits, [])
      | .error _ => (.panicked "idle: yield_now failed", [])
  | point => (point, [])

end Point

/-! ## The system -/

/-- The kernel, where each task is in its program, and what has been printed. -/
structure Running (Context Machine : Type) where
  kernel : Kernel Party Context Machine
  points : TaskName → Point
  console : List Line

/-- What happens next: the task in control makes its call, goes on behind a switch, or, if
it is the idle task, is woken from `wfi`; or an interrupt changes the machine. -/
inductive Happening (Machine : Type) where
  | calls
  | resumes
  | wakes
  | interrupted (machine : Machine)

section System

variable {Context Machine : Type}

def Running.boot (kernel : Kernel Party Context Machine) : Running Context Machine where
  kernel := kernel
  points := fun
    | .a => .aSends
    | .b => .bReceives
    | .idle => .idleWaits
  console := []

variable (cpu : Cpu Context Machine) (build : Build) (published : Published)
  (nowNs : Machine → UInt64) (bootNs : UInt64)

/-- `now_ns().saturating_sub(boot_ns)`. -/
def elapsedNs (machine : Machine) : UInt64 :=
  if bootNs ≤ nowNs machine then nowNs machine - bootNs else 0

/-- The call of this task has come back with this result, or control went to another task
and the call is still to come back. -/
def Running.settle (running : Running Context Machine) (name : TaskName)
    (result : Except SchedError Reply) (kernel : Kernel Party Context Machine) :
    Running Context Machine :=
  if result = .ok .switched then { running with kernel := kernel }
  else
    let next := (running.points name).returned (elapsedNs nowNs bootNs kernel.machine) result
    { kernel := kernel
      points := Function.update running.points name next.1
      console := running.console ++ next.2 }

def Running.announce (running : Running Context Machine) (name : TaskName) : Running Context Machine :=
  { running with console := running.console ++ (running.points name).announces }

def InControl (running : Running Context Machine) (name : TaskName) : Prop :=
  running.kernel.sched.current = some (published.handles name)

inductive DemoStep (running : Running Context Machine) :
    Happening Machine → Running Context Machine → Prop where
  | calls {name : TaskName} {call : Call Party} {result : Except SchedError Reply}
      {kernel : Kernel Party Context Machine} (control : InControl published running name)
      (rest : AtRest running.kernel) (next : (running.points name).call? published.epCaps = some call)
      (performed : (perform cpu build call running.kernel).Returned result kernel) :
      DemoStep running .calls ((running.announce name).settle nowNs bootNs name result kernel)
  | resumes {name : TaskName} {result : Except SchedError Reply}
      {kernel : Kernel Party Context Machine} (control : InControl published running name)
      (suspended : ¬ AtRest running.kernel)
      (resumed : (resume cpu build running.kernel).Returned result kernel) :
      DemoStep running .resumes (running.settle nowNs bootNs name result kernel)
  | wakes (control : InControl published running .idle) (rest : AtRest running.kernel)
      (waits : running.points .idle = .idleWaits) :
      DemoStep running .wakes
        { running with points := Function.update running.points .idle .idleYields }
  | interrupted {machine : Machine} (rest : AtRest running.kernel) :
      DemoStep running (.interrupted machine)
        { running with kernel := { running.kernel with machine := machine } }

end System

end Tyrne.Demo
