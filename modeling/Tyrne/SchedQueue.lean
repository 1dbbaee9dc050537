import Tyrne.Cap
import Tyrne.Lib.Ring

/-!
# The ready queue

`SchedQueue<N>` of `kernel/src/sched/mod.rs`: a bounded first-in first-out queue of
task handles in a ring of `N` cells. `usize` has 64 bits and its additions wrap.
-/

namespace Tyrne.Sched

open Tyrne.Lib.Effect
open Tyrne.Lib.Ring
open Tyrne.Cap

set_option autoImplicit false

/-- Every way the scheduler can stop the kernel: its panics and `debug_assert!` sites,
and what stops an operation it calls. -/
inductive SchedFault where
  | inner (reason : Fault)
  | indexOutOfBounds
  | remainderByZero
  | startOnEmptyQueue
  | queueFullOnYield
  | queueFullOnUnblock
  | sameTaskIndices
  | runningTaskNotReady
  deriving DecidableEq, Repr

structure SchedQueue (size : Nat) where
  buf : Vector (Option TaskHandle) size
  head : Nat
  len : Nat
  deriving DecidableEq, Repr

def wrappingAdd (left right : Nat) : Nat := (left + right) % 2 ^ 64

section Operations

variable {size : Nat}

def SchedQueue.new : SchedQueue size := ⟨Vector.replicate size none, 0, 0⟩

def remainder {State Error : Type} (value modulus : Nat) : Eff SchedFault State Error Nat :=
  if modulus = 0 then abort .remainderByZero else pure (value % modulus)

def enqueue (handle : TaskHandle) : Eff SchedFault (SchedQueue size) TaskHandle Unit := do
  let queue ← read
  if queue.len = size then fail handle
  else
    let tail ← remainder (wrappingAdd queue.head queue.len) size
    match queue.buf[tail]? with
    | none => abort .indexOutOfBounds
    | some _ =>
        write { queue with
          buf := queue.buf.setIfInBounds tail (some handle), len := wrappingAdd queue.len 1 }

def dequeue {Error : Type} : Eff SchedFault (SchedQueue size) Error (Option TaskHandle) := do
  let queue ← read
  if queue.len = 0 then pure none
  else
    match queue.buf[queue.head]? with
    | none => abort .indexOutOfBounds
    | some handle =>
        let head ← remainder (wrappingAdd queue.head 1) size
        write { buf := queue.buf.setIfInBounds queue.head none, head := head, len := queue.len - 1 }
        pure handle

def isEmpty (queue : SchedQueue size) : Bool := queue.len == 0

/-- The handles in the queue, oldest first. -/
def lineOf (queue : SchedQueue size) : List TaskHandle :=
  readFrom queue.buf queue.head queue.len

end Operations

/-! ## The queue as a list -/

section Contents

variable {size : Nat} {queue : SchedQueue size} {contents : List TaskHandle}

/-- The queue holds these handles, oldest first. -/
structure Holds (queue : SchedQueue size) (contents : List TaskHandle) : Prop where
  length : queue.len = contents.length
  fits : contents.length ≤ size
  head : 0 < size → queue.head < size
  laid : Laid queue.buf queue.head contents

theorem holds_new : Holds (SchedQueue.new : SchedQueue size) [] :=
  ⟨rfl, Nat.zero_le _, fun positive => positive, laid_empty 0⟩

theorem line_of_holds (holds : Holds queue contents) : lineOf queue = contents := by
  rw [lineOf, holds.length]
  exact holds.laid.contents_read holds.fits

theorem enqueue_full (holds : Holds queue contents) (full : contents.length = size)
    (handle : TaskHandle) : enqueue handle queue = .err handle queue := by
  have same : queue.len = size := holds.length.trans full
  simp [enqueue, same]

/-- `head` and `len` stay far below the range of `usize`, so no addition wraps. -/
theorem enqueue_run (small : 2 * size ≤ 2 ^ 64) (holds : Holds queue contents)
    (room : contents.length < size) (handle : TaskHandle) :
    ∃ after, enqueue handle queue = .ok () after ∧ Holds after (contents ++ [handle]) := by
  have inside := holds.head (by omega)
  have length := holds.length
  have notFull : queue.len ≠ size := by omega
  have positive : size ≠ 0 := by omega
  have sum : wrappingAdd queue.head queue.len = queue.head + contents.length := by
    rw [wrappingAdd, length, Nat.mod_eq_of_lt (by omega)]
  have count : wrappingAdd queue.len 1 = contents.length + 1 := by
    rw [wrappingAdd, length, Nat.mod_eq_of_lt (by omega)]
  have bound : (queue.head + contents.length) % size < size := Nat.mod_lt _ (by omega)
  refine ⟨⟨queue.buf.setIfInBounds ((queue.head + contents.length) % size) (some handle),
    queue.head, contents.length + 1⟩, ?_, ?_⟩
  · simp [enqueue, notFull, remainder, positive, sum, count, bound]
  · exact ⟨by simp, by simp; omega, holds.head, holds.laid.push room handle⟩

theorem dequeue_empty {Error : Type} (holds : Holds queue []) :
    (dequeue queue : Outcome SchedFault Error _ _) = .ok none queue := by
  have none_left : queue.len = 0 := holds.length
  simp [dequeue, none_left]

theorem dequeue_run {Error : Type} (small : 2 * size ≤ 2 ^ 64) {handle : TaskHandle}
    {rest : List TaskHandle} (holds : Holds queue (handle :: rest)) :
    ∃ after, (dequeue queue : Outcome SchedFault Error _ _) = .ok (some handle) after ∧
      Holds after rest := by
  have fits : rest.length + 1 ≤ size := holds.fits
  have length : queue.len = rest.length + 1 := holds.length
  have inside := holds.head (by omega)
  have positive : size ≠ 0 := by omega
  have front := holds.laid.first inside
  have next : wrappingAdd queue.head 1 = queue.head + 1 := by
    rw [wrappingAdd, Nat.mod_eq_of_lt (by omega)]
  refine ⟨⟨queue.buf.setIfInBounds queue.head none, (queue.head + 1) % size, rest.length⟩,
    ?_, ?_⟩
  · simp [dequeue, length, front, remainder, positive, next]
  · exact ⟨rfl, by omega, fun _ => Nat.mod_lt _ (by omega), holds.laid.pop inside (by omega)⟩

end Contents

end Tyrne.Sched
