import Mathlib.Data.List.Perm.Basic

/-!
# Values gathered with an idempotent operation

What a list of values adds up to, starting from a base, when the operation that joins them is
associative, commutative and idempotent: the order of the list and repetitions in it do not
matter, and every value in it is absorbed.
-/

namespace Tyrne.Lib.Accumulate

set_option autoImplicit false

variable {Value : Type} (join : Value → Value → Value)

def gathered (base : Value) (values : List Value) : Value := values.foldl join base

theorem gathered_append (base : Value) (front back : List Value) :
    gathered join base (front ++ back) = gathered join (gathered join base front) back :=
  List.foldl_append

variable [Std.Associative join] [Std.Commutative join]

/-- What is absorbed stays absorbed when more is gathered. -/
theorem gathered_keeps {base value : Value} (absorbed : join base value = base)
    (values : List Value) :
    join (gathered join base values) value = gathered join base values := by
  induction values generalizing base with
  | nil => exact absorbed
  | cons first rest ih =>
      apply ih
      calc
        join (join base first) value = join base (join first value) := Std.Associative.assoc _ _ _
        _ = join base (join value first) := congrArg (join base) (Std.Commutative.comm _ _)
        _ = join (join base value) first := (Std.Associative.assoc _ _ _).symm
        _ = join base first := by rw [absorbed]

theorem gathered_swap (base : Value) (left right : List Value) :
    gathered join (gathered join base left) right = gathered join (gathered join base right) left := by
  rw [← gathered_append, ← gathered_append]
  apply List.perm_append_comm.foldl_eq'
  intro first _ second _ base
  calc
    join (join base first) second = join base (join first second) := Std.Associative.assoc _ _ _
    _ = join base (join second first) := congrArg (join base) (Std.Commutative.comm _ _)
    _ = join (join base second) first := (Std.Associative.assoc _ _ _).symm

variable [Std.IdempotentOp join]

theorem gathered_absorbs {values : List Value} {value : Value} (member : value ∈ values)
    (base : Value) : join (gathered join base values) value = gathered join base values := by
  induction values generalizing base with
  | nil => cases member
  | cons first rest ih =>
      rcases List.mem_cons.mp member with rfl | later
      · have absorbed : join (join base value) value = join base value := by
          calc
            join (join base value) value = join base (join value value) :=
              Std.Associative.assoc _ _ _
            _ = join base value := congrArg (join base) (Std.IdempotentOp.idempotent _)
        exact gathered_keeps join absorbed rest
      · exact ih later (join base first)

theorem gathered_absorbs_all {left right : List Value} (inside : ∀ value ∈ right, value ∈ left)
    (base : Value) :
    gathered join (gathered join base left) right = gathered join base left := by
  induction right with
  | nil => rfl
  | cons first rest ih =>
      have absorbed := gathered_absorbs join (inside first List.mem_cons_self) base
      rw [gathered, List.foldl_cons, absorbed]
      exact ih fun value member => inside value (List.mem_cons_of_mem _ member)

theorem gathered_congr {left right : List Value} (same : ∀ value, value ∈ left ↔ value ∈ right)
    (base : Value) : gathered join base left = gathered join base right := by
  calc
    gathered join base left = gathered join (gathered join base left) right :=
      (gathered_absorbs_all join (fun value => (same value).mpr) base).symm
    _ = gathered join (gathered join base right) left := gathered_swap join base left right
    _ = gathered join base right :=
      gathered_absorbs_all join (fun value => (same value).mp) base

end Tyrne.Lib.Accumulate
