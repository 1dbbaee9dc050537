import Tyrne.Lib.Fifo
import Tyrne.SchedQueue

/-!
# Runs of the ready queue

Every sequence of `enqueue` and `dequeue` calls from `SchedQueue::new` is one of a line
with room for `N` handles, and nothing in it indexes out of range or divides by zero.
-/

namespace Tyrne.Sched

open Tyrne.Lib.Effect
open Tyrne.Lib.Fifo
open Tyrne.Lib.Ring
open Tyrne.Lib.Runs
open Tyrne.Cap

set_option autoImplicit false

def isizeMax : Nat := 2 ^ 63 - 1

theorem no_wrap {size : Nat} (sized : size ≤ isizeMax) : 2 * size ≤ 2 ^ 64 := by
  unfold isizeMax at sized
  omega

variable {size : Nat} {queue : SchedQueue size} {contents : List TaskHandle}

def serve : LineOp TaskHandle → Eff SchedFault (SchedQueue size) Empty (LineReply TaskHandle)
  | .enqueue handle => fun queue =>
      match enqueue handle queue with
      | .ok () after => .ok .stored after
      | .err refused after => .ok (.refused refused) after
      | .fault reason => .fault reason
  | .dequeue => do
      let found ← dequeue
      pure (.taken found)

def QueueStep (before : SchedQueue size) (call : LineCall TaskHandle) (after : SchedQueue size) :
    Prop :=
  serve call.op before = .ok call.reply after

theorem Holds.served (small : 2 * size ≤ 2 ^ 64) (holds : Holds queue contents)
    (op : LineOp TaskHandle) :
    ∃ after, serve op queue = .ok (answer size contents op).1 after ∧
      Holds after (answer size contents op).2 := by
  cases op with
  | enqueue handle =>
      by_cases full : contents.length = size
      · refine ⟨queue, ?_, ?_⟩
        · simp only [serve, enqueue_full holds full, answer, if_pos full]
        · simpa only [answer, if_pos full] using holds
      · have room : contents.length < size := lt_of_le_of_ne holds.fits full
        obtain ⟨after, ran, reached⟩ := enqueue_run small holds room handle
        refine ⟨after, ?_, ?_⟩
        · simp only [serve, ran, answer, if_neg full]
        · simpa only [answer, if_neg full] using reached
  | dequeue =>
      cases contents with
      | nil =>
          refine ⟨queue, ?_, holds⟩
          simp [serve, dequeue_empty holds, answer]
      | cons oldest rest =>
          obtain ⟨after, ran, reached⟩ := @dequeue_run _ _ Empty small _ _ holds
          refine ⟨after, ?_, reached⟩
          simp [serve, ran, answer]

def InLine (queue : SchedQueue size) : Prop := Holds queue (lineOf queue)

theorem Holds.in_line (holds : Holds queue contents) : InLine queue := by
  rw [InLine, line_of_holds holds]
  exact holds

theorem in_line_step (small : 2 * size ≤ 2 ^ 64) {call : LineCall TaskHandle}
    {after : SchedQueue size} (inLine : InLine queue) (step : QueueStep queue call after) :
    LineStep size (lineOf queue) call (lineOf after) ∧ InLine after := by
  obtain ⟨reached, ran, held⟩ := inLine.served small call.op
  have same := step.symm.trans ran
  injection same with reply state
  subst state
  refine ⟨?_, held.in_line⟩
  rw [line_of_holds held]
  exact Prod.ext reply.symm rfl

/-- The queue can be used as the line of its handles, oldest first. -/
structure AsLine (queue : SchedQueue size) : Prop where
  len : queue.len = (lineOf queue).length
  empty : isEmpty queue = true ↔ lineOf queue = []
  bounded : queue.len ≤ size
  head : 0 < size → queue.head < size
  occupied : ∀ index < size, (∃ handle, queue.buf[index]? = some (some handle)) ↔
    ∃ offset < queue.len, (queue.head + offset) % size = index
  ordered : ∀ offset < queue.len,
    queue.buf[(queue.head + offset) % size]? = some (lineOf queue)[offset]?
  full : ∀ handle, enqueue handle queue = .err handle queue ↔ (lineOf queue).length = size
  room : ∀ handle, (lineOf queue).length ≠ size →
    ∃ after, enqueue handle queue = .ok () after ∧ lineOf after = lineOf queue ++ [handle]
  drained : (dequeue queue : Outcome SchedFault Empty _ _) = .ok none queue ↔ lineOf queue = []
  oldest : ∀ handle rest, lineOf queue = handle :: rest →
    ∃ after, (dequeue queue : Outcome SchedFault Empty _ _) = .ok (some handle) after ∧
      lineOf after = rest

theorem Holds.as_line (small : 2 * size ≤ 2 ^ 64) (holds : Holds queue contents) :
    AsLine queue where
  len := by rw [line_of_holds holds, holds.length]
  empty := by
    rw [line_of_holds holds, isEmpty, beq_iff_eq, holds.length, List.length_eq_zero_iff]
  bounded := holds.length.trans_le holds.fits
  head := holds.head
  occupied := by
    intro index bound
    rw [holds.length]
    exact holds.laid.occupied holds.fits (holds.head (by omega)) bound
  ordered := by
    intro offset bound
    have inside : offset < contents.length := holds.length ▸ bound
    rw [line_of_holds holds]
    exact holds.laid offset (inside.trans_le holds.fits)
  full := by
    intro handle
    rw [line_of_holds holds]
    constructor
    · intro refused
      by_contra space
      obtain ⟨after, ran, _⟩ :=
        enqueue_run small holds (lt_of_le_of_ne holds.fits space) handle
      cases refused.symm.trans ran
    · intro full
      exact enqueue_full holds full handle
  room := by
    intro handle space
    rw [line_of_holds holds] at space ⊢
    obtain ⟨after, ran, held⟩ :=
      enqueue_run small holds (lt_of_le_of_ne holds.fits space) handle
    exact ⟨after, ran, line_of_holds held⟩
  drained := by
    rw [line_of_holds holds]
    cases contents with
    | nil => simp only [dequeue_empty holds]
    | cons handle rest =>
        obtain ⟨after, ran, _⟩ := @dequeue_run _ _ Empty small _ _ holds
        simp [ran]
  oldest := by
    intro handle rest split
    rw [← line_of_holds holds, split] at holds
    obtain ⟨after, ran, held⟩ := @dequeue_run _ _ Empty small _ _ holds
    exact ⟨after, ran, line_of_holds held⟩

/-! ## The queue refines the line -/

/-- What was stored is what was taken, in the same order, and then what the ring still
holds. -/
theorem stored_in_order (sized : size ≤ isizeMax)
    {trace : List (Transition (SchedQueue size) (LineCall TaskHandle))}
    (run : Run QueueStep (SchedQueue.new : SchedQueue size) trace queue) :
    trace.flatMap (fun taken => taken.label.entered) =
      trace.flatMap (fun taken => taken.label.left) ++ lineOf queue := by
  have small := no_wrap sized
  have served : InTurn (lineOf (SchedQueue.new : SchedQueue size))
      (trace.flatMap fun taken => taken.label.entered)
      (trace.flatMap fun taken => taken.label.left) (lineOf queue) :=
    run_in_turn holds_new.in_line (fun _ _ _ inLine step => (in_line_step small inLine step).2)
      (fun _ _ _ inLine step => (in_line_step small inLine step).1.in_turn) run
  rwa [line_of_holds holds_new] at served

/-- From the empty queue every sequence of calls runs, and as it would on a line with room
for `size` handles. -/
theorem queue_refines_line (sized : size ≤ isizeMax) :
    (∀ ops : List (LineOp TaskHandle), ∃ trace queue,
      Run QueueStep (SchedQueue.new : SchedQueue size) trace queue ∧
        (labels trace).map LineCall.op = ops) ∧
    ∀ trace queue, Run QueueStep (SchedQueue.new : SchedQueue size) trace queue →
      Run (LineStep size) []
        (trace.map fun taken => ⟨lineOf taken.before, taken.label, lineOf taken.after⟩)
        (lineOf queue) ∧
      AsLine queue := by
  have small := no_wrap sized
  have initial : InLine (SchedQueue.new : SchedQueue size) := holds_new.in_line
  have preserved : ∀ (before : SchedQueue size) (call : LineCall TaskHandle)
      (after : SchedQueue size), InLine before → QueueStep before call after → InLine after :=
    fun _ _ _ inLine step => (in_line_step small inLine step).2
  have enabled : ∀ (before : SchedQueue size) (op : LineOp TaskHandle), InLine before →
      ∃ (call : LineCall TaskHandle) (after : SchedQueue size),
        call.op = op ∧ QueueStep before call after ∧ InLine after := by
    intro before op inLine
    obtain ⟨after, ran, held⟩ := inLine.served small op
    exact ⟨⟨op, _⟩, after, rfl, ran, held.in_line⟩
  constructor
  · exact run_of_inputs enabled initial
  · intro trace queue run
    refine ⟨?_, (run_invariant initial preserved run).as_line small⟩
    have simulated := run_map lineOf initial preserved
      (fun _ _ _ inLine step => (in_line_step small inLine step).1) run
    rwa [line_of_holds holds_new] at simulated

/-- On two cells the third handle stored lies in the first cell again. -/
def wrappingOps : List (LineOp TaskHandle) :=
  [.enqueue ⟨0, 0⟩, .enqueue ⟨1, 0⟩, .dequeue, .enqueue ⟨2, 0⟩]

theorem queue_refines_line_wrapping :
    ∃ trace queue, Run QueueStep (SchedQueue.new : SchedQueue 2) trace queue ∧
      (labels trace).map LineCall.op = wrappingOps ∧ AsLine queue := by
  have refines := @queue_refines_line 2 (by decide)
  obtain ⟨trace, queue, run, ops⟩ := refines.1 wrappingOps
  exact ⟨trace, queue, run, ops, (refines.2 trace queue run).2⟩

end Tyrne.Sched
