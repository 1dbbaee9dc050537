/-!
# Deterministic machines

A machine is a function from a state to the next one; a state without a next one has
stopped. `Leads` follows the machine from one state to another and keeps a property of
every state on the way, so that one derivation says both that a state is reached and that
nothing bad happens before.
-/

namespace Tyrne.Lib.Stepping

set_option autoImplicit false

variable {State : Type}

def after (next : State → Option State) : Nat → State → Option State
  | 0, start => some start
  | count + 1, start => (next start).bind (after next count)

/-- The machine gets from the one state to the other, through good states only. The last
state need not be good. -/
inductive Leads (next : State → Option State) (Good : State → Prop) : State → State → Prop where
  | refl (start : State) : Leads next Good start start
  | step {start middle goal : State} (good : Good start) (taken : next start = some middle)
      (rest : Leads next Good middle goal) : Leads next Good start goal

variable {next : State → Option State} {Good Other : State → Prop} {start middle goal between : State}

theorem Leads.single (good : Good start) (taken : next start = some goal) :
    Leads next Good start goal := .step good taken (.refl goal)

theorem Leads.trans (first : Leads next Good start middle) (second : Leads next Good middle goal) :
    Leads next Good start goal := by
  induction first with
  | refl => exact second
  | step good taken rest ih => exact .step good taken (ih second)

theorem Leads.reaches (leads : Leads next Good start goal) :
    ∃ count, after next count start = some goal := by
  induction leads with
  | refl start => exact ⟨0, rfl⟩
  | step good taken rest ih =>
      rcases ih with ⟨count, last⟩
      exact ⟨count + 1, by rw [after, taken, Option.bind_some, last]⟩

theorem Leads.covers (leads : Leads next Good start goal) {count : Nat}
    (passed : after next count start = some between) :
    (Good between ∧ ∃ later, next between = some later) ∨
      ∃ further, after next further goal = some between := by
  induction leads generalizing count with
  | refl start => exact .inr ⟨count, passed⟩
  | step good taken rest ih =>
      cases count with
      | zero =>
          cases passed
          exact .inl ⟨good, _, taken⟩
      | succ count =>
          rw [after, taken, Option.bind_some] at passed
          exact ih passed

/-- A loop: while the measure is not zero, one round leads to a state where the invariant
holds with a smaller measure. -/
theorem Leads.loop {Invariant : Nat → State → Prop} {Done : State → Prop}
    (finished : ∀ state, Invariant 0 state → Done state)
    (round : ∀ measure state, Invariant (measure + 1) state →
      ∃ later, Leads next Good state later ∧ Invariant measure later)
    (measure : Nat) (entered : Invariant measure start) :
    ∃ last, Leads next Good start last ∧ Done last := by
  induction measure generalizing start with
  | zero => exact ⟨start, .refl start, finished start entered⟩
  | succ measure ih =>
      rcases round measure start entered with ⟨later, once, again⟩
      rcases ih again with ⟨last, more, done⟩
      exact ⟨last, once.trans more, done⟩

/-- A machine in a closed set of states never stops and never leaves it. -/
theorem stays {Closed : State → Prop}
    (closed : ∀ state, Closed state → ∃ later, next state = some later ∧ Closed later)
    (inside : Closed start) (count : Nat) :
    ∃ state, after next count start = some state ∧ Closed state := by
  induction count generalizing start with
  | zero => exact ⟨start, rfl, inside⟩
  | succ count ih =>
      rcases closed start inside with ⟨later, taken, kept⟩
      rcases ih kept with ⟨state, there, within⟩
      exact ⟨state, by rw [after, taken, Option.bind_some, there], within⟩

end Tyrne.Lib.Stepping
