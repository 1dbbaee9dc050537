import Mathlib.Data.List.Forall2
import Tyrne.Lib.Runs

/-!
# Two systems in lockstep

Where every step of one system is matched by a step of another, from related states and
into related states, every run is matched by a run, transition by transition. Where some
steps are matched by none, the run shows what is left of the others.
-/

namespace Tyrne.Lib.Lockstep

open Tyrne.Lib.Runs

set_option autoImplicit false

variable {State Label Other OtherLabel : Type}

/-- The transitions start and end in related states, under labels that say the same. -/
structure Matching (Related : State → Other → Prop) (Agrees : Label → OtherLabel → Prop)
    (left : Transition State Label) (right : Transition Other OtherLabel) : Prop where
  before : Related left.before right.before
  label : Agrees left.label right.label
  after : Related left.after right.after

variable {Step : State → Label → State → Prop} {OtherStep : Other → OtherLabel → Other → Prop}
  {Related : State → Other → Prop} {Agrees : Label → OtherLabel → Prop} {start after : State}
  {beside : Other} {trace : List (Transition State Label)}

theorem run_lockstep (alike : Related start beside)
    (matched : ∀ before label after other, Related before other → Step before label after →
      ∃ otherLabel otherAfter, OtherStep other otherLabel otherAfter ∧ Agrees label otherLabel ∧
        Related after otherAfter)
    (run : Run Step start trace after) :
    ∃ otherTrace otherAfter, Run OtherStep beside otherTrace otherAfter ∧
      List.Forall₂ (Matching Related Agrees) trace otherTrace ∧ Related after otherAfter := by
  induction run with
  | nil => exact ⟨[], beside, .nil, .nil, alike⟩
  | @snoc trace middle after label earlier step ih =>
      obtain ⟨otherTrace, otherMiddle, otherRun, sofar, related⟩ := ih
      obtain ⟨otherLabel, otherAfter, otherStep, agrees, reached⟩ :=
        matched middle label after otherMiddle related step
      have last : Matching Related Agrees ⟨middle, label, after⟩ ⟨otherMiddle, otherLabel, otherAfter⟩ :=
        ⟨related, agrees, reached⟩
      exact ⟨_, otherAfter, .snoc otherRun otherStep, List.rel_append sofar (.cons last .nil), reached⟩

/-- A step, or none where nothing shows. -/
inductive Shown (OtherStep : Other → OtherLabel → Other → Prop) (before : Other) :
    Option OtherLabel → Other → Prop where
  | stutter : Shown OtherStep before none before
  | step {label : OtherLabel} {after : Other} (taken : OtherStep before label after) :
      Shown OtherStep before (some label) after

theorem run_shown {shown : Transition State Label → Option OtherLabel} (alike : Related start beside)
    (matched : ∀ before label after other, Related before other → Step before label after →
      ∃ otherAfter, Shown OtherStep other (shown ⟨before, label, after⟩) otherAfter ∧
        Related after otherAfter)
    (run : Run Step start trace after) :
    ∃ otherTrace otherAfter, Run OtherStep beside otherTrace otherAfter ∧
      labels otherTrace = trace.filterMap shown ∧ Related after otherAfter := by
  induction run with
  | nil => exact ⟨[], beside, .nil, rfl, alike⟩
  | @snoc trace middle after label earlier step ih =>
      obtain ⟨otherTrace, otherMiddle, otherRun, same, related⟩ := ih
      obtain ⟨otherAfter, taken, reached⟩ := matched middle label after otherMiddle related step
      rw [filter_map_snoc]
      generalize shown ⟨middle, label, after⟩ = visible at taken
      cases taken with
      | stutter =>
          refine ⟨otherTrace, otherMiddle, otherRun, ?_, reached⟩
          rw [same, Option.toList_none, List.append_nil]
      | step taken =>
          refine ⟨_, otherAfter, .snoc otherRun taken, ?_, reached⟩
          rw [labels_snoc, same]
          rfl

end Tyrne.Lib.Lockstep
