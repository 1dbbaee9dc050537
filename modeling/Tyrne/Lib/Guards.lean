import Mathlib.Data.List.InsertIdx
import Tyrne.Lib.Runs

/-!
# Guards that save and restore a switch

A guard turns a switch off and remembers how it stood; dropping the guard puts it back.
Guards may be dropped in any order. What matters of the switch is whether it is on, so
every machine that keeps the contract does what a machine of one bit does.
-/

namespace Tyrne.Lib.Guards

open Tyrne.Lib.Runs

set_option autoImplicit false

variable {Core Guard Work : Type}

/-- A switch with guards, and work that leaves the switch alone. -/
structure Guarding (Core Guard Work : Type) where
  new : Core → Guard × Core
  drop : Guard → Core → Core
  work : Work → Core → Core
  isOn : Core → Bool
  saw : Guard → Bool
  turns_off : ∀ core, isOn (new core).2 = false
  remembers : ∀ core, saw (new core).1 = isOn core
  puts_back : ∀ guard core, isOn (drop guard core) = saw guard
  work_apart : ∀ work' core, isOn (work work' core) = isOn core

/-- The guards that are alive, the youngest first. -/
structure Guarded (Core Guard : Type) where
  core : Core
  alive : List Guard

inductive GuardOp (Work : Type) where
  | new
  | drop (place : Nat)
  | work (work : Work)
  deriving DecidableEq

def Guarding.next (guarding : Guarding Core Guard Work) (state : Guarded Core Guard) :
    GuardOp Work → Option (Guarded Core Guard)
  | .new => some ⟨(guarding.new state.core).2, (guarding.new state.core).1 :: state.alive⟩
  | .drop place => state.alive[place]?.map fun guard =>
      ⟨guarding.drop guard state.core, state.alive.eraseIdx place⟩
  | .work work => some ⟨guarding.work work state.core, state.alive⟩

def Guarding.Step (guarding : Guarding Core Guard Work) (before : Guarded Core Guard)
    (op : GuardOp Work) (after : Guarded Core Guard) : Prop :=
  guarding.next before op = some after

def oneBit (Work : Type) : Guarding Bool Bool Work where
  new := fun on => (on, false)
  drop := fun saw _ => saw
  work := fun _ on => on
  isOn := id
  saw := id
  turns_off := fun _ => rfl
  remembers := fun _ => rfl
  puts_back := fun _ _ => rfl
  work_apart := fun _ _ => rfl

def Guarding.image (guarding : Guarding Core Guard Work) (state : Guarded Core Guard) :
    Guarded Bool Bool :=
  ⟨guarding.isOn state.core, state.alive.map guarding.saw⟩

section Image

variable (guarding : Guarding Core Guard Work) {state before after : Guarded Core Guard}
  {trace : List (Transition (Guarded Core Guard) (GuardOp Work))}

theorem image_next (op : GuardOp Work) :
    (guarding.next state op).map guarding.image = (oneBit Work).next (guarding.image state) op := by
  cases op with
  | new => simp [Guarding.next, Guarding.image, oneBit, guarding.turns_off, guarding.remembers]
  | work work => simp [Guarding.next, Guarding.image, oneBit, guarding.work_apart]
  | drop place =>
      cases held : state.alive[place]? with
      | none => simp [Guarding.next, Guarding.image, held]
      | some guard =>
          simp [Guarding.next, Guarding.image, oneBit, held, guarding.puts_back,
            List.eraseIdx_map]

theorem image_step {op : GuardOp Work} (step : guarding.Step before op after) :
    (oneBit Work).Step (guarding.image before) op (guarding.image after) := by
  have shown := @image_next _ _ _ guarding before op
  rw [show guarding.next before op = some after from step] at shown
  exact shown.symm

def Guarding.imageOf (taken : Transition (Guarded Core Guard) (GuardOp Work)) :
    Transition (Guarded Bool Bool) (GuardOp Work) :=
  ⟨guarding.image taken.before, taken.label, guarding.image taken.after⟩

theorem run_image (run : Run guarding.Step before trace after) :
    Run (oneBit Work).Step (guarding.image before) (trace.map guarding.imageOf)
      (guarding.image after) := by
  induction run with
  | nil => exact .nil
  | snoc earlier step ih =>
      rw [List.map_append]
      exact .snoc ih (image_step guarding step)

variable {OtherCore OtherGuard : Type} (other : Guarding OtherCore OtherGuard Work)
  {beside : Guarded OtherCore OtherGuard}

theorem run_alike (alike : other.image beside = guarding.image before)
    (run : Run guarding.Step before trace after) :
    ∃ otherTrace otherAfter, Run other.Step beside otherTrace otherAfter ∧
      otherTrace.map other.imageOf = trace.map guarding.imageOf ∧
      other.image otherAfter = guarding.image after := by
  induction run with
  | nil => exact ⟨[], beside, .nil, rfl, alike⟩
  | @snoc trace middle after op earlier step ih =>
      rcases ih with ⟨otherTrace, otherMiddle, otherRun, sameTrace, sameMiddle⟩
      have shown : (oneBit Work).next (other.image otherMiddle) op = some (guarding.image after) := by
        rw [sameMiddle]
        exact image_step guarding step
      rw [← image_next, Option.map_eq_some_iff] at shown
      rcases shown with ⟨otherAfter, otherStep, sameAfter⟩
      refine ⟨_, otherAfter, .snoc otherRun otherStep, ?_, sameAfter⟩
      simp [sameTrace, Guarding.imageOf, sameMiddle, sameAfter]

end Image

/-! ## In which order to drop -/

/-- The oldest guard is not dropped while another one is alive. -/
def OldestLast (taken : Transition (Guarded Core Guard) (GuardOp Work)) : Prop :=
  ∀ place, taken.label = .drop place → place + 1 = taken.before.alive.length → place = 0

/-- The switch is off as long as a guard is alive, and on without one. -/
def Covered (guarding : Guarding Core Guard Work) (state : Guarded Core Guard) : Prop :=
  guarding.isOn state.core = state.alive.isEmpty

/-- The oldest guard saw the switch on, the others saw it off. -/
inductive Nested : Guarded Bool Bool → Prop where
  | free : Nested ⟨true, []⟩
  | held {inner : List Bool} (off : ∀ saw ∈ inner, saw = false) : Nested ⟨false, inner ++ [true]⟩

section Order

variable {before after : Guarded Bool Bool}
  {trace : List (Transition (Guarded Bool Bool) (GuardOp Work))}

theorem Nested.covered {state : Guarded Bool Bool} (nested : Nested state) :
    Covered (oneBit Work) state := by
  cases nested with
  | free => rfl
  | held off => simp [Covered, oneBit]

theorem drop_step {place : Nat} (step : (oneBit Work).Step before (.drop place) after) :
    ∃ saw, before.alive[place]? = some saw ∧ after = ⟨saw, before.alive.eraseIdx place⟩ := by
  rcases Option.map_eq_some_iff.mp step with ⟨saw, held, moved⟩
  exact ⟨saw, held, moved.symm⟩

theorem Nested.step {op : GuardOp Work} (nested : Nested before)
    (step : (oneBit Work).Step before op after) (last : OldestLast ⟨before, op, after⟩) :
    Nested after := by
  cases op with
  | work work =>
      cases step
      exact nested
  | new =>
      cases nested with
      | free =>
          cases step
          exact @Nested.held [] nofun
      | @held inner off =>
          cases step
          apply @Nested.held (false :: inner)
          simpa using off
  | drop place =>
      rcases drop_step step with ⟨saw, alive, rfl⟩
      cases nested with
      | free => cases alive
      | @held inner off =>
          by_cases young : place < inner.length
          · rw [List.getElem?_append_left young] at alive
            have seen := off saw (List.mem_of_getElem? alive)
            rw [List.eraseIdx_append_of_lt_length young, seen]
            apply Nested.held
            intro other member
            exact off other (List.mem_of_mem_eraseIdx member)
          · have bound := (List.getElem?_eq_some_iff.mp alive).1
            rw [List.length_append, List.length_singleton] at bound
            have oldest : place + 1 = (inner ++ [true]).length := by
              rw [List.length_append, List.length_singleton]
              omega
            have first : place = 0 := last place rfl oldest
            have alone : inner = [] := by
              apply List.length_eq_zero_iff.mp
              omega
            subst first alone
            cases alive
            exact .free

theorem Nested.broken {place : Nat} (nested : Nested before)
    (step : (oneBit Work).Step before (.drop place) after)
    (oldest : place + 1 = before.alive.length) (others : place ≠ 0) :
    ¬ Covered (oneBit Work) after := by
  rcases drop_step step with ⟨saw, alive, rfl⟩
  cases nested with
  | free => cases alive
  | @held inner off =>
      have lastPlace : place = inner.length := by
        rw [List.length_append, List.length_singleton] at oldest
        omega
      subst lastPlace
      have seen : saw = true := by simpa using alive.symm
      have somebody : inner ≠ [] := fun none_inner => others (by rw [none_inner, List.length_nil])
      intro covered
      rw [Covered, seen, List.eraseIdx_append_of_length_le (Nat.le_refl _)] at covered
      simp [oneBit, somebody] at covered

theorem run_nested (run : Run (oneBit Work).Step ⟨true, []⟩ trace after)
    (last : ∀ taken ∈ trace, OldestLast taken) : Nested after := by
  induction run with
  | nil => exact .free
  | snoc earlier step ih =>
      have sofar := ih fun taken member => last taken (List.mem_append_left _ member)
      exact sofar.step step (last _ (List.mem_append_right _ (List.mem_singleton_self _)))

/-- The guards cover the whole run if and only if the oldest one is always dropped last. -/
theorem run_covered_iff (run : Run (oneBit Work).Step ⟨true, []⟩ trace after) :
    (∀ taken ∈ trace, Covered (oneBit Work) taken.after) ↔ ∀ taken ∈ trace, OldestLast taken := by
  induction run with
  | nil => simp
  | @snoc trace middle after op earlier step ih =>
      simp only [List.forall_mem_append, List.forall_mem_singleton]
      rw [ih]
      apply and_congr_right
      intro last
      have nested := run_nested earlier last
      constructor
      · rintro covered place rfl oldest
        by_contra others
        exact nested.broken step oldest others covered
      · intro lastAgain
        exact (nested.step step lastAgain).covered

end Order

theorem run_covered (guarding : Guarding Core Guard Work) {before after : Guarded Core Guard}
    {trace : List (Transition (Guarded Core Guard) (GuardOp Work))}
    (on : guarding.image before = ⟨true, []⟩)
    (run : Run guarding.Step before trace after) :
    (∀ taken ∈ trace, Covered guarding taken.after) ↔ ∀ taken ∈ trace, OldestLast taken := by
  have shown := run_image guarding run
  rw [on] at shown
  have ordered := run_covered_iff shown
  simpa [Guarding.imageOf, Guarding.image, Covered, OldestLast, oneBit] using ordered

end Tyrne.Lib.Guards
