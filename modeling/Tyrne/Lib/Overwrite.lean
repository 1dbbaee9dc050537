import Mathlib.Logic.Function.Basic
import Tyrne.Lib.Runs

/-!
# Overwritten cells

Cells are a function from places to values. A block of them can be filled with one value,
front to back; and in a run whose every step writes one cell, a cell holds what was last
written to it.
-/

namespace Tyrne.Lib.Overwrite

open Tyrne.Lib.Runs

set_option autoImplicit false

section Blocks

variable {Value : Type} {value : Value} {first middle last place : Nat} {cells : Nat → Value}

/-- The cells from `first` on and before `last` hold `value`, the others what they held. -/
def fill (value : Value) (first last : Nat) (cells : Nat → Value) : Nat → Value :=
  fun place => if first ≤ place ∧ place < last then value else cells place

theorem fill_inside (lower : first ≤ place) (upper : place < last) :
    fill value first last cells place = value :=
  if_pos ⟨lower, upper⟩

theorem fill_outside (outside : place < first ∨ last ≤ place) :
    fill value first last cells place = cells place :=
  if_neg (by omega)

theorem fill_empty (empty : last ≤ first) : fill value first last cells = cells := by
  funext place
  exact fill_outside (by omega)

theorem fill_join (lower : first ≤ middle) (upper : middle ≤ last) :
    fill value middle last (fill value first middle cells) = fill value first last cells := by
  funext place
  by_cases early : place < middle
  · rw [fill_outside (.inl early)]
    by_cases before : place < first
    · rw [fill_outside (.inl before), fill_outside (.inl before)]
    · rw [fill_inside (by omega) early, fill_inside (by omega) (by omega)]
  · by_cases late : last ≤ place
    · rw [fill_outside (.inr late), fill_outside (by omega), fill_outside (.inr late)]
    · rw [fill_inside (by omega) (by omega), fill_inside (by omega) (by omega)]

end Blocks

section Groups

variable {Value : Type} {value : Value} {size index : Nat} {change : Nat → Value → Value}
  {cells : Nat → Value}

/-- A write to the `index`th group of `size` cells changes each of them by its place in
the group. -/
def onGroup (size index : Nat) (change : Nat → Value → Value) (cells : Nat → Value) :
    Nat → Value :=
  fun place => if place / size = index then change (place % size) (cells place) else cells place

theorem group_filled (positive : 0 < size)
    (constant : ∀ lane < size, ∀ old, change lane old = value) :
    onGroup size index change cells = fill value (size * index) (size * (index + 1)) cells := by
  funext place
  have bounds : place / size = index ↔ size * index ≤ place ∧ place < size * (index + 1) := by
    rw [Nat.div_eq_iff positive, Nat.mul_comm index, Nat.mul_add, Nat.mul_one]
    omega
  by_cases inside : place / size = index
  · rw [onGroup, if_pos inside, constant _ (Nat.mod_lt place positive)]
    exact (fill_inside (bounds.mp inside).1 (bounds.mp inside).2).symm
  · rw [onGroup, if_neg inside, fill, if_neg (mt bounds.mpr inside)]

theorem groups_filled (positive : 0 < size)
    (constant : ∀ lane < size, ∀ old, change lane old = value) (count first : Nat)
    (cells : Nat → Value) :
    (List.range' first count).foldl (fun cells index => onGroup size index change cells) cells =
      fill value (size * first) (size * (first + count)) cells := by
  induction count generalizing first cells with
  | zero => exact (fill_empty (Nat.le_refl _)).symm
  | succ count ih =>
      rw [List.range'_succ, List.foldl_cons, ih, group_filled positive constant,
        fill_join (Nat.mul_le_mul_left size (by omega)) (Nat.mul_le_mul_left size (by omega)),
        Nat.add_right_comm, Nat.add_assoc]

/-- A write that changes one place of its group is a write to that cell. -/
theorem group_updated {place : Nat}
    (chosen : change (place % size) (cells place) = value)
    (others : ∀ lane, lane ≠ place % size → ∀ old, change lane old = old) :
    onGroup size (place / size) change cells = Function.update cells place value := by
  funext other
  by_cases same : other = place
  · rw [same, Function.update_self, onGroup, if_pos rfl, chosen]
  · rw [Function.update_of_ne same, onGroup]
    split
    · next grouped =>
        refine others _ (fun lane => same ?_) _
        rw [← Nat.div_add_mod other size, grouped, lane, Nat.div_add_mod]
    · rfl

end Groups

section Runs

variable {State Label Place Value : Type} [DecidableEq Place]
  {Step : State → Label → State → Prop} {change? : Label → Option (Place × Value)}
  {place : Label → Place} {value : Label → Value} {start after : State}
  {trace : List (Transition State Label)}

/-- A cell of which every step changes at most one holds what it was last changed to, or
else what it held at the start. -/
theorem run_last_change (cells : State → Place → Value)
    (changes : ∀ before label after, Step before label after → ∀ place value,
      change? label = some (place, value) →
        cells after = Function.update (cells before) place value)
    (keeps : ∀ before label after, Step before label after → change? label = none →
      cells after = cells before)
    (run : Run Step start trace after) (cell : Place) :
    (∃ taken, Latest (fun transition => ∃ held, change? transition.label = some (cell, held))
      trace taken ∧ change? taken.label = some (cell, cells after cell)) ∨
    ((∀ taken ∈ trace, ∀ held, change? taken.label ≠ some (cell, held)) ∧
      cells after cell = cells start cell) := by
  induction run with
  | nil => exact .inr ⟨fun taken member => absurd member List.not_mem_nil, rfl⟩
  | @snoc trace middle after label earlier step ih =>
      have kept : (∀ held, change? label ≠ some (cell, held)) →
          cells after cell = cells middle cell := by
        intro other
        cases changed : change? label with
        | none => rw [keeps _ _ _ step changed]
        | some changing =>
            rw [changes _ _ _ step _ _ changed]
            refine Function.update_of_ne (fun same => other changing.2 ?_) _ _
            rw [changed, same]
      by_cases same : ∃ held, change? label = some (cell, held)
      · rcases same with ⟨held, changed⟩
        refine .inl ⟨⟨middle, label, after⟩, latest_now ⟨held, changed⟩, ?_⟩
        rw [changes _ _ _ step _ _ changed, Function.update_self]
        exact changed
      · rw [kept fun held changed => same ⟨held, changed⟩]
        rcases ih with ⟨taken, latest, held⟩ | ⟨untouched, held⟩
        · exact .inl ⟨taken, latest.later same, held⟩
        · refine .inr ⟨?_, held⟩
          intro taken member
          rcases List.mem_append.mp member with before | now
          · exact untouched taken before
          · rw [List.mem_singleton.mp now]
            exact fun held changed => same ⟨held, changed⟩

/-- Where every step writes one cell, a cell holds what was last written to it, or else what
it held at the start. -/
theorem run_last_write (cells : State → Place → Value)
    (writes : ∀ before label after, Step before label after →
      cells after = Function.update (cells before) (place label) (value label))
    (run : Run Step start trace after) (cell : Place) :
    (∃ taken, Latest (fun transition => place transition.label = cell) trace taken ∧
      cells after cell = value taken.label) ∨
    ((∀ taken ∈ trace, place taken.label ≠ cell) ∧ cells after cell = cells start cell) := by
  have written : ∀ (label : Label) (held : Value),
      some (place label, value label) = some (cell, held) ↔
        place label = cell ∧ value label = held := by
    intro label held
    rw [Option.some.injEq, Prod.mk.injEq]
  have last := @run_last_change _ _ _ _ _ Step (fun label => some (place label, value label))
    _ _ _ cells (by
      intro before label after step place value changed
      cases changed
      exact writes _ _ _ step) (fun _ _ _ _ unchanged => nomatch unchanged) run cell
  rcases last with ⟨taken, latest, held⟩ | ⟨untouched, held⟩
  · refine .inl ⟨taken, ?_, ((written _ _).mp held).2.symm⟩
    rcases latest with ⟨early, late, whole, ⟨old, chosen⟩, others⟩
    refine ⟨early, late, whole, ((written _ _).mp chosen).1, ?_⟩
    intro other member same
    exact others other member ⟨_, (written _ _).mpr ⟨same, rfl⟩⟩
  · refine .inr ⟨?_, held⟩
    intro taken member same
    exact untouched taken member _ ((written _ _).mpr ⟨same, rfl⟩)

end Runs

end Tyrne.Lib.Overwrite
