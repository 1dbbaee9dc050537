import Tyrne.Lib.Runs

/-!
# Lines served in order

A system keeps a line. Each step puts some items at its end and takes some from its
front. Over a whole run, what was in line and what came in is what left and what is
still in line, so an item's place in line says when it leaves. A line of bounded length
refuses what it has no room for.
-/

namespace Tyrne.Lib.Fifo

open Tyrne.Lib.Runs

set_option autoImplicit false

variable {State Label Item : Type}

/-- Nothing leaves a line but from its front, and nothing comes in but at its end. -/
def InTurn (before entered left after : List Item) : Prop := before ++ entered = left ++ after

theorem InTurn.trans {before middle after firstEntered firstLeft entered left : List Item}
    (first : InTurn before firstEntered firstLeft middle)
    (second : InTurn middle entered left after) :
    InTurn before (firstEntered ++ entered) (firstLeft ++ left) after := by
  unfold InTurn at first second ⊢
  rw [← List.append_assoc, first, List.append_assoc, second, List.append_assoc]

theorem run_in_turn {Step : State → Label → State → Prop} {line : State → List Item}
    {entered left : Transition State Label → List Item} {Invariant : State → Prop}
    {start after : State} {trace : List (Transition State Label)} (initial : Invariant start)
    (preserved : ∀ before label after, Invariant before → Step before label after →
      Invariant after)
    (served : ∀ before label after, Invariant before → Step before label after →
      InTurn (line before) (entered ⟨before, label, after⟩) (left ⟨before, label, after⟩)
        (line after))
    (run : Run Step start trace after) :
    InTurn (line start) (trace.flatMap entered) (trace.flatMap left) (line after) := by
  induction run with
  | nil => simp [InTurn]
  | snoc earlier step ih =>
      have reached := run_invariant initial preserved earlier
      have last := served _ _ _ reached step
      simpa using ih.trans last

section Places

variable {before entered left after : List Item} {place : Nat} {item : Item}

theorem still_stands (stands : before[place]? = some item) (entered : List Item) :
    (before ++ entered)[place]? = some item := by
  rw [List.getElem?_append_left (List.getElem?_eq_some_iff.mp stands).1]
  exact stands

theorem InTurn.moves_up (served : InTurn before entered left after)
    (stands : before[place]? = some item) (few : left.length ≤ place) :
    after[place - left.length]? = some item := by
  have found := still_stands stands entered
  rw [served, List.getElem?_append_right few] at found
  exact found

theorem InTurn.leaves_at (served : InTurn before entered left after)
    (stands : before[place]? = some item) (enough : place < left.length) :
    left[place]? = some item := by
  have found := still_stands stands entered
  rw [served, List.getElem?_append_left enough] at found
  exact found

theorem InTurn.not_before (served : InTurn before entered left after) (once : before.Nodup)
    (stands : before[place]? = some item) (enough : place < left.length) :
    item ∉ left.take place := by
  have bound : place < before.length := (List.getElem?_eq_some_iff.mp stands).1
  have same : left.take place = before.take place := by
    rw [← List.take_append_of_le_length (Nat.le_of_lt enough), ← served,
      List.take_append_of_le_length (Nat.le_of_lt bound)]
  rw [same]
  intro earlier
  rcases List.getElem?_of_mem earlier with ⟨position, found⟩
  rw [List.getElem?_take] at found
  split at found
  · next sooner =>
      have positions := (List.getElem?_inj (Nat.lt_trans sooner bound) once).mp
        (found.trans stands.symm)
      omega
  · cases found

end Places

/-! ## Lines of bounded length -/

inductive LineOp (Item : Type) where
  | enqueue (item : Item)
  | dequeue
  deriving DecidableEq, Repr

inductive LineReply (Item : Type) where
  | stored
  | refused (item : Item)
  | taken (found : Option Item)
  deriving DecidableEq, Repr

structure LineCall (Item : Type) where
  op : LineOp Item
  reply : LineReply Item
  deriving DecidableEq, Repr

/-- What a line with room for `size` items replies, and what it becomes. -/
def answer (size : Nat) (line : List Item) : LineOp Item → LineReply Item × List Item
  | .enqueue item =>
      if line.length = size then (.refused item, line) else (.stored, line ++ [item])
  | .dequeue => (.taken line.head?, line.tail)

def LineStep (size : Nat) (before : List Item) (call : LineCall Item) (after : List Item) : Prop :=
  answer size before call.op = (call.reply, after)

def LineCall.entered : LineCall Item → List Item
  | ⟨.enqueue item, .stored⟩ => [item]
  | _ => []

def LineCall.left (call : LineCall Item) : List Item :=
  match call.reply with
  | .taken found => found.toList
  | _ => []

theorem LineStep.in_turn {size : Nat} {before after : List Item} {call : LineCall Item}
    (step : LineStep size before call after) :
    InTurn before call.entered call.left after := by
  rcases call with ⟨op, reply⟩
  cases op with
  | enqueue item =>
      by_cases full : before.length = size
      · simp only [LineStep, answer, if_pos full, Prod.mk.injEq] at step
        rcases step with ⟨rfl, rfl⟩
        simp [InTurn, LineCall.entered, LineCall.left]
      · simp only [LineStep, answer, if_neg full, Prod.mk.injEq] at step
        rcases step with ⟨rfl, rfl⟩
        simp [InTurn, LineCall.entered, LineCall.left]
  | dequeue =>
      simp only [LineStep, answer, Prod.mk.injEq] at step
      rcases step with ⟨rfl, rfl⟩
      cases before <;> simp [InTurn, LineCall.entered, LineCall.left]

end Tyrne.Lib.Fifo
