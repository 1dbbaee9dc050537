import Tyrne.Exchange
import Tyrne.Accounting

/-!
# What `kernel_entry` sets up

`kernel_entry` of `bsp-qemu-virt/src/main.rs` from the task arena on, with the task objects
of `kernel/src/obj/task.rs`: three tasks, one endpoint, a table with one capability for each
of the two application tasks, and the scheduler with task B first, task A second and the
idle task last.
-/

namespace Tyrne.KernelEntry

open Tyrne.Lib.Effect
open Tyrne.Cap
open Tyrne.CapTable (CapabilityTable insertRoot)
open Tyrne.ObjArena
open Tyrne.Ipc
open Tyrne.System (World Fresh)
open Tyrne.Sched

set_option autoImplicit false

/-! ## Task objects -/

structure Task where
  id : UInt32
  deriving DecidableEq, Repr

abbrev TaskArena : Type := Arena Task taskArenaCapacity

def createTask (build : Build) (task : Task) : Eff Fault TaskArena ObjError TaskHandle := do
  match ← allocate build task with
  | some slot => pure ⟨slot⟩
  | none => fail .arenaFull

def destroyTask (handle : TaskHandle) : Eff Fault TaskArena ObjError Task := do
  match ← free handle.slot with
  | some task => pure task
  | none => fail .invalidHandle

def getTask (arena : TaskArena) (handle : TaskHandle) : Option Task := get arena handle.slot

theorem registrable_of_live {arena : TaskArena} {handles : List TaskHandle}
    (distinct : handles.Nodup)
    (live : ∀ handle ∈ handles, (getTask arena handle).isSome = true) : Registrable handles := by
  have found : ∀ handle ∈ handles, ∃ slot, arena.slots[handle.slot.index]? = some slot ∧
      slot.generation = handle.slot.generation := by
    intro handle member
    have alive := live handle member
    rw [getTask, ObjArena.get] at alive
    cases stored : arena.slots[handle.slot.index]? with
    | none =>
        rw [stored] at alive
        cases alive
    | some slot =>
        refine ⟨slot, rfl, ?_⟩
        by_contra other
        simp [stored, other] at alive
  constructor
  · apply List.Nodup.map_on _ distinct
    intro left leftMember right rightMember same
    rcases found left leftMember with ⟨slot, atLeft, leftSame⟩
    rcases found right rightMember with ⟨other, atRight, rightSame⟩
    have index : left.slot.index = right.slot.index := same
    rw [index, atRight] at atLeft
    cases atLeft
    have generation := leftSame.symm.trans rightSame
    rcases left with ⟨⟨leftIndex, leftGeneration⟩⟩
    rcases right with ⟨⟨rightIndex, rightGeneration⟩⟩
    cases index
    cases generation
    rfl
  · intro handle member
    rcases found handle member with ⟨slot, stored, _⟩
    exact (Vector.getElem?_eq_some_iff.mp stored).1

/-! ## Boot -/

/-- The two tasks that have a capability table. -/
inductive Party where
  | a
  | b
  deriving DecidableEq, Repr

inductive TaskName where
  | a
  | b
  | idle
  deriving DecidableEq, Repr

/-- `expect`: anything but `Ok` is a panic. -/
def expect {State Error Value Reason : Type} (computation : Eff Reason State Error Value)
    (state : State) : Option (Value × State) :=
  match computation state with
  | .ok value after => some (value, after)
  | .err _ _ => none
  | .fault _ => none

/-- The statics `kernel_entry` writes before the scheduler. -/
structure Published where
  taskArena : TaskArena
  handles : TaskName → TaskHandle
  epHandle : EndpointHandle
  world : World Party
  epCaps : Party → CapHandle

def epRights : CapRights := CapRights.send.union CapRights.recv

def publish (build : Build) : Option Published := do
  let (handleA, taskArena) ← expect (createTask build ⟨0⟩) ObjArena.new
  let (handleB, taskArena) ← expect (createTask build ⟨1⟩) taskArena
  let (handleIdle, taskArena) ← expect (createTask build ⟨2⟩) taskArena
  let (epHandle, epArena) ← expect (createEndpoint build ⟨0⟩) ObjArena.new
  let (epCapA, tableA) ← expect (insertRoot ⟨epRights, .endpoint epHandle⟩) CapTable.new
  let (epCapB, tableB) ← expect (insertRoot ⟨epRights, .endpoint epHandle⟩) CapTable.new
  pure {
    taskArena := taskArena
    handles := fun
      | .a => handleA
      | .b => handleB
      | .idle => handleIdle
    epHandle := epHandle
    world := {
      arena := epArena
      queues := IpcQueues.new
      tables := fun
        | .a => tableA
        | .b => tableB }
    epCaps := fun
      | .a => epCapA
      | .b => epCapB }

/-- What the linker and the stacks give: entry points and stack tops. -/
structure Addresses where
  entry : TaskName → UInt64
  stackTop : TaskName → UInt64

def registrations (published : Published) (addresses : Addresses) : List Registration :=
  [TaskName.b, .a, .idle].map fun name =>
    ⟨published.handles name, addresses.entry name, addresses.stackTop name⟩

section Boot

variable {Context Machine : Type} (cpu : Cpu Context Machine) (build : Build)

def kernelEntry (addresses : Addresses) (machine : Machine) :
    Option (Published × Kernel Party Context Machine) := do
  let published ← publish build
  let (_, booted) ← expect (start cpu (registrations published addresses))
    (powerOn cpu published.world machine)
  pure (published, booted)

end Boot

/-! ## What it leaves behind -/

def TaskName.number : TaskName → Nat
  | .a => 0
  | .b => 1
  | .idle => 2

def taskHandle (name : TaskName) : TaskHandle := ⟨⟨name.number, 0⟩⟩

/-- Every task is alive, and each application task can send and receive on the one endpoint,
which is alive too; nothing has happened on it. -/
structure Prepared (published : Published) : Prop where
  handles : published.handles = taskHandle
  tasks : ∀ name, getTask published.taskArena (published.handles name) =
    some ⟨UInt32.ofNat name.number⟩
  fresh : Fresh published.world
  live : Live published.world.arena published.epHandle.slot
  sends : ∀ party, Names (published.world.tables party) (published.epCaps party) .send
    published.epHandle
  receives : ∀ party, Names (published.world.tables party) (published.epCaps party) .recv
    published.epHandle

def epTable : CapabilityTable :=
  CapTable.stateAfter ⟨true⟩ (.insertRoot ⟨epRights, .endpoint ⟨⟨0, 0⟩⟩⟩) CapTable.new

def prepared : Published where
  taskArena := store (store (store ObjArena.new 0 ⟨0⟩) 1 ⟨1⟩) 2 ⟨2⟩
  handles := fun
    | .a => ⟨⟨0, 0⟩⟩
    | .b => ⟨⟨1, 0⟩⟩
    | .idle => ⟨⟨2, 0⟩⟩
  epHandle := ⟨⟨0, 0⟩⟩
  world := {
    arena := store ObjArena.new 0 ⟨0⟩
    queues := IpcQueues.new
    tables := fun
      | .a => epTable
      | .b => epTable }
  epCaps := fun
    | .a => ⟨0, 0⟩
    | .b => ⟨0, 0⟩

theorem publish_run (build : Build) : publish build = some prepared := by
  rcases build with ⟨debug⟩
  cases debug with
  | false => rfl
  | true => rfl

theorem ep_table_well_formed : CapTable.WellFormed epTable := by
  have inserted : CapTable.TableStep ⟨true⟩ CapTable.new
      ⟨.insertRoot ⟨epRights, .endpoint ⟨⟨0, 0⟩⟩⟩, .ok (.handle ⟨0, 0⟩)⟩ epTable := rfl
  exact inserted.well_formed CapTable.new_well_formed

theorem ep_table_names {right : CapRights} (held : epRights.contains right = true) :
    Names epTable ⟨0, 0⟩ right ⟨⟨0, 0⟩⟩ := ⟨⟨epRights, .endpoint ⟨⟨0, 0⟩⟩⟩, rfl, held, rfl⟩

theorem prepared_is : Prepared prepared where
  handles := by
    funext name
    cases name <;> rfl
  tasks := by
    intro name
    cases name <;> rfl
  fresh := {
    tables := by
      intro party
      cases party <;> exact ep_table_well_formed
    arena := new_well_formed.store rfl _
    queues := rfl }
  live := ⟨⟨_, rfl⟩, rfl⟩
  sends := by
    intro party
    cases party <;> exact ep_table_names rfl
  receives := by
    intro party
    cases party <;> exact ep_table_names rfl

theorem registrations_registrable (addresses : Addresses) :
    Registrable ((registrations prepared addresses).map Registration.handle) := by
  have handles : (registrations prepared addresses).map Registration.handle =
      [prepared.handles .b, prepared.handles .a, prepared.handles .idle] := rfl
  rw [handles]
  apply registrable_of_live (by decide)
  intro handle member
  have named : ∃ name, handle = prepared.handles name := by
    simp only [List.mem_cons, List.not_mem_nil, or_false] at member
    rcases member with rfl | rfl | rfl
    · exact ⟨.b, rfl⟩
    · exact ⟨.a, rfl⟩
    · exact ⟨.idle, rfl⟩
  rcases named with ⟨name, rfl⟩
  rw [prepared_is.tasks name]
  rfl

theorem kernel_entry_boots {Context Machine : Type} (cpu : Cpu Context Machine) (build : Build)
    (addresses : Addresses) (machine : Machine) :
    ∃ booted, kernelEntry cpu build addresses machine = some (prepared, booted) ∧
      Intact booted ∧
      viewOf booted = ⟨startingRoster (prepared.handles .b)
        [prepared.handles .a, prepared.handles .idle], prepared.world, fun _ => .outside⟩ := by
  have anyone : registrations prepared addresses ≠ [] := List.cons_ne_nil _ _
  rcases boot_run cpu prepared.world machine anyone (registrations_registrable addresses) with
    ⟨booted, first, rest, started, handles, intact, shown⟩
  cases handles
  refine ⟨booted, ?_, intact, shown⟩
  simp [kernelEntry, publish_run, expect, started]

end Tyrne.KernelEntry
