import Tyrne.Lib.Runs

/-!
# Where the items of a run come from

A state holds items at places. If every item a step leaves stems from one that was
there before and that covers it, then every item a run leaves descends from
one of the start that covers it.
-/

namespace Tyrne.Lib.Provenance

open Tyrne.Lib.Runs

set_option autoImplicit false

variable {State Label Place Item : Type}

/-- From place to place along a run, one link a transition. -/
inductive Descends (Stems : Transition State Label → Place → Place → Prop) :
    List (Transition State Label) → Place → Place → Prop where
  | nil (place : Place) : Descends Stems [] place place
  | snoc {trace : List (Transition State Label)} {taken : Transition State Label}
      {origin middle target : Place} (earlier : Descends Stems trace origin middle)
      (stems : Stems taken middle target) : Descends Stems (trace ++ [taken]) origin target

/-- What is found after the transition stems from something found before it that
covers it. -/
def Inherits (Stems : Transition State Label → Place → Place → Prop)
    (itemAt : State → Place → Option Item) (Covers : Item → Item → Prop)
    (taken : Transition State Label) : Prop :=
  ∀ target item, itemAt taken.after target = some item →
    ∃ source above, Stems taken source target ∧ itemAt taken.before source = some above ∧
      Covers above item

section Runs

variable {Stems : Transition State Label → Place → Place → Prop}
  {itemAt : State → Place → Option Item} {Covers : Item → Item → Prop}
  {Step : State → Label → State → Prop} {start after : State}
  {trace : List (Transition State Label)}

theorem descends_of_run (reflexive : ∀ item, Covers item item)
    (transitive : ∀ above middle item, Covers above middle → Covers middle item →
      Covers above item)
    (run : Run Step start trace after)
    (inherits : ∀ taken ∈ trace, Inherits Stems itemAt Covers taken) {target : Place}
    {item : Item} (found : itemAt after target = some item) :
    ∃ origin above, Descends Stems trace origin target ∧ itemAt start origin = some above ∧
      Covers above item := by
  induction run generalizing target item with
  | nil => exact ⟨target, item, .nil target, found, reflexive item⟩
  | @snoc earlier middle final label ran step ih =>
      have last := inherits ⟨middle, label, final⟩ (by simp)
      rcases last target item found with ⟨source, between, stems, there, lower⟩
      rcases ih (fun taken member => inherits taken (by simp [member])) there with
        ⟨origin, above, descends, here, upper⟩
      exact ⟨origin, above, .snoc descends stems, here, transitive _ _ _ upper lower⟩

end Runs

end Tyrne.Lib.Provenance
