/-!
# Stateful computations that may fail or abort

A computation reads and writes one state, and ends in one of three ways: with
a value, with an error the caller can handle, or with a fault that stops the
whole run. An error keeps every write made before it; a fault has no state.
-/

namespace Tyrne.Lib.Effect

set_option autoImplicit false

/-- How one computation ends. -/
inductive Outcome (Fault Error State Value : Type) where
  | ok (value : Value) (state : State)
  | err (error : Error) (state : State)
  | fault (reason : Fault)
  deriving DecidableEq, Repr

def Eff (Fault State Error Value : Type) : Type :=
  State → Outcome Fault Error State Value

variable {Fault State Error Value Other : Type}

def Outcome.andThen (outcome : Outcome Fault Error State Value)
    (next : Value → Eff Fault State Error Other) :
    Outcome Fault Error State Other :=
  match outcome with
  | .ok value state => next value state
  | .err error state => .err error state
  | .fault reason => .fault reason

/-- The state an outcome leaves behind, if the run goes on. -/
def Outcome.state? : Outcome Fault Error State Value → Option State
  | .ok _ state => some state
  | .err _ state => some state
  | .fault _ => none

def Outcome.report? : Outcome Fault Error State Value → Option (Except Error Value)
  | .ok value _ => some (.ok value)
  | .err error _ => some (.error error)
  | .fault _ => none

/-- The computation came back with this result and left this state. -/
def Outcome.Returned (outcome : Outcome Fault Error State Value)
    (result : Except Error Value) (after : State) : Prop :=
  match result with
  | .ok value => outcome = .ok value after
  | .error error => outcome = .err error after

theorem Outcome.Returned.unique {outcome : Outcome Fault Error State Value}
    {left right : Except Error Value} {leftAfter rightAfter : State}
    (first : outcome.Returned left leftAfter) (second : outcome.Returned right rightAfter) :
    left = right ∧ leftAfter = rightAfter := by
  cases left with
  | ok value =>
      cases right with
      | ok other =>
          cases first.symm.trans second
          exact ⟨rfl, rfl⟩
      | error other => cases first.symm.trans second
  | error error =>
      cases right with
      | ok other => cases first.symm.trans second
      | error other =>
          cases first.symm.trans second
          exact ⟨rfl, rfl⟩

theorem returned_of_ok {value : Value} {state after : State} {result : Except Error Value}
    (returned : (Outcome.ok value state : Outcome Fault Error State Value).Returned result after) :
    result = .ok value ∧ after = state :=
  returned.unique (show Outcome.Returned _ (.ok value) state from rfl)

theorem Outcome.Returned.state {outcome : Outcome Fault Error State Value}
    {result : Except Error Value} {after : State} (returned : outcome.Returned result after) :
    outcome.state? = some after := by
  cases result with
  | ok value =>
      cases returned
      rfl
  | error error =>
      cases returned
      rfl

theorem returned_of_report {outcome : Outcome Fault Error State Value}
    {result : Except Error Value} (default : State) (reported : outcome.report? = some result) :
    outcome.Returned result (outcome.state?.getD default) := by
  cases outcome with
  | ok value state =>
      cases reported
      rfl
  | err error state =>
      cases reported
      rfl
  | fault reason => cases reported

theorem not_returned_fault (reason : Fault) (result : Except Error Value) (after : State) :
    ¬ (Outcome.fault reason : Outcome Fault Error State Value).Returned result after := by
  intro returned
  cases result with
  | ok value => cases returned
  | error error => cases returned

instance [DecidableEq Fault] [DecidableEq Error] [DecidableEq State] [DecidableEq Value]
    (outcome : Outcome Fault Error State Value) (result : Except Error Value) (after : State) :
    Decidable (outcome.Returned result after) :=
  match result with
  | .ok value => inferInstanceAs (Decidable (outcome = .ok value after))
  | .error error => inferInstanceAs (Decidable (outcome = .err error after))

instance : Monad (Eff Fault State Error) where
  pure value := fun state => .ok value state
  bind computation next := fun state => (computation state).andThen next

/-- Where a composed computation came back, either its first half left with an error or
the second half came back from where the first one ended. -/
theorem Outcome.Returned.bind {computation : Eff Fault State Error Value}
    {next : Value → Eff Fault State Error Other} {state after : State}
    {result : Except Error Other} (returned : ((computation >>= next) state).Returned result after) :
    (∃ error, computation state = .err error after ∧ result = .error error) ∨
      ∃ value middle, computation state = .ok value middle ∧
        (next value middle).Returned result after := by
  change ((computation state).andThen next).Returned result after at returned
  cases ran : computation state with
  | ok value middle =>
      rw [ran] at returned
      exact Or.inr ⟨value, middle, rfl, returned⟩
  | err error middle =>
      rw [ran] at returned
      cases result with
      | ok value => cases returned
      | error other =>
          cases returned
          exact Or.inl ⟨error, rfl, rfl⟩
  | fault reason =>
      rw [ran] at returned
      exact absurd returned (not_returned_fault _ _ _)

def read : Eff Fault State Error State := fun state => .ok state state

def write (state : State) : Eff Fault State Error Unit := fun _ => .ok () state

def fail (error : Error) : Eff Fault State Error Value := fun state => .err error state

def abort (reason : Fault) : Eff Fault State Error Value := fun _ => .fault reason

def mapErr {Renamed : Type} (rename : Error → Renamed)
    (computation : Eff Fault State Error Value) : Eff Fault State Renamed Value :=
  fun state =>
    match computation state with
    | .ok value after => .ok value after
    | .err error after => .err (rename error) after
    | .fault reason => .fault reason

def mapFault {Renamed : Type} (rename : Fault → Renamed)
    (computation : Eff Fault State Error Value) : Eff Renamed State Error Value :=
  fun state =>
    match computation state with
    | .ok value after => .ok value after
    | .err error after => .err error after
    | .fault reason => .fault (rename reason)

/-- Stop the run where the computation would leave with an error. -/
def orAbort {Renamed : Type} (reason : Fault) (computation : Eff Fault State Error Value) :
    Eff Fault State Renamed Value :=
  fun state =>
    match computation state with
    | .ok value after => .ok value after
    | .err _ _ => .fault reason
    | .fault other => .fault other

/-- Run a computation on one component of a larger state. -/
def zoom {Whole : Type} (view : Whole → State) (put : Whole → State → Whole)
    (computation : Eff Fault State Error Value) : Eff Fault Whole Error Value :=
  fun whole =>
    match computation (view whole) with
    | .ok value after => .ok value (put whole after)
    | .err error after => .err error (put whole after)
    | .fault reason => .fault reason

section Equations

variable (computation : Eff Fault State Error Value)
  (next : Value → Eff Fault State Error Other) (state : State)

@[simp] theorem pure_run (value : Value) :
    (pure value : Eff Fault State Error Value) state = .ok value state := rfl

@[simp] theorem bind_run :
    (computation >>= next) state = (computation state).andThen next := rfl

@[simp] theorem read_run :
    (read : Eff Fault State Error State) state = .ok state state := rfl

@[simp] theorem write_run (after : State) :
    (write after : Eff Fault State Error Unit) state = .ok () after := rfl

@[simp] theorem fail_run (error : Error) :
    (fail error : Eff Fault State Error Value) state = .err error state := rfl

@[simp] theorem abort_run (reason : Fault) :
    (abort reason : Eff Fault State Error Value) state = .fault reason := rfl

@[simp] theorem and_then_ok (value : Value) :
    (Outcome.ok value state : Outcome Fault Error State Value).andThen next =
      next value state := rfl

@[simp] theorem and_then_err (error : Error) :
    (Outcome.err error state : Outcome Fault Error State Value).andThen next =
      .err error state := rfl

@[simp] theorem and_then_fault (reason : Fault) :
    (Outcome.fault reason : Outcome Fault Error State Value).andThen next =
      .fault reason := rfl

@[simp] theorem map_err_run {Renamed : Type} (rename : Error → Renamed) :
    mapErr rename computation state =
      match computation state with
      | .ok value after => .ok value after
      | .err error after => .err (rename error) after
      | .fault reason => .fault reason := rfl

end Equations

section Components

variable {Whole : Type} {view : Whole → State} {put : Whole → State → Whole}
  {computation : Eff Fault State Error Value} {whole : Whole} {after : State}

theorem zoom_ok {value : Value} (ran : computation (view whole) = .ok value after) :
    zoom view put computation whole = .ok value (put whole after) := by
  simp [zoom, ran]

theorem zoom_err {error : Error} (ran : computation (view whole) = .err error after) :
    zoom view put computation whole = .err error (put whole after) := by
  simp [zoom, ran]

theorem zoom_returned {result : Except Error Value} {final : Whole}
    (returned : (zoom view put computation whole).Returned result final) :
    ∃ after, (computation (view whole)).Returned result after ∧ final = put whole after := by
  unfold zoom at returned
  cases ran : computation (view whole) with
  | ok value after =>
      rw [ran] at returned
      rcases returned_of_ok returned with ⟨rfl, rfl⟩
      exact ⟨after, rfl, rfl⟩
  | err error after =>
      rw [ran] at returned
      have done := returned.unique (show Outcome.Returned _ (.error error) _ from rfl)
      rcases done with ⟨rfl, rfl⟩
      exact ⟨after, rfl, rfl⟩
  | fault reason =>
      rw [ran] at returned
      exact absurd returned (not_returned_fault _ _ _)

end Components

/-! ## What a computation leaves alone -/

section Frames

variable {Part : Type} {part : State → Part}

/-- Wherever the run goes on, this part of the state is as it was. -/
def Keeps (part : State → Part) (computation : Eff Fault State Error Value) : Prop :=
  ∀ state after, (computation state).state? = some after → part after = part state

theorem keeps_pure (value : Value) :
    Keeps part (pure value : Eff Fault State Error Value) := by
  rintro state after ⟨⟩
  rfl

theorem keeps_fail (error : Error) :
    Keeps part (fail error : Eff Fault State Error Value) := by
  rintro state after ⟨⟩
  rfl

theorem keeps_abort (reason : Fault) :
    Keeps part (abort reason : Eff Fault State Error Value) := by
  rintro state after ⟨⟩

theorem keeps_read : Keeps part (read : Eff Fault State Error State) := by
  rintro state after ⟨⟩
  rfl

theorem Keeps.bind {computation : Eff Fault State Error Value}
    {next : Value → Eff Fault State Error Other} (first : Keeps part computation)
    (second : ∀ value, Keeps part (next value)) : Keeps part (computation >>= next) := by
  intro state after went
  rw [bind_run] at went
  have before := first state
  cases ran : computation state with
  | ok value middle =>
      rw [ran] at went before
      exact (second value middle after went).trans (before middle rfl)
  | err error middle =>
      rw [ran] at went before
      exact before after went
  | fault reason =>
      rw [ran] at went
      cases went

theorem keeps_modify {change : State → State} (same : ∀ state, part (change state) = part state) :
    Keeps part (read >>= fun state => write (change state) : Eff Fault State Error Unit) := by
  rintro state after ⟨⟩
  exact same state

theorem Keeps.map_err {Renamed : Type} {rename : Error → Renamed}
    {computation : Eff Fault State Error Value} (kept : Keeps part computation) :
    Keeps part (mapErr rename computation) := by
  intro state after went
  have same : (mapErr rename computation state).state? = (computation state).state? := by
    unfold mapErr
    cases computation state <;> rfl
  exact kept state after (same.symm.trans went)

theorem Keeps.map_fault {Renamed : Type} {rename : Fault → Renamed}
    {computation : Eff Fault State Error Value} (kept : Keeps part computation) :
    Keeps part (mapFault rename computation) := by
  intro state after went
  have same : (mapFault rename computation state).state? = (computation state).state? := by
    unfold mapFault
    cases computation state <;> rfl
  exact kept state after (same.symm.trans went)

theorem Keeps.or_abort {Renamed : Type} {reason : Fault}
    {computation : Eff Fault State Error Value} (kept : Keeps part computation) :
    Keeps part (orAbort reason computation : Eff Fault State Renamed Value) := by
  intro state after went
  apply kept state after
  unfold orAbort at went
  cases ran : computation state with
  | ok value final =>
      rw [ran] at went
      exact went
  | err error final =>
      rw [ran] at went
      cases went
  | fault other =>
      rw [ran] at went
      cases went

theorem Keeps.returned {computation : Eff Fault State Error Value} {state after : State}
    {result : Except Error Value} (kept : Keeps part computation)
    (returned : (computation state).Returned result after) : part after = part state :=
  kept state after returned.state

theorem Keeps.ran {computation : Eff Fault State Error Value} {state after : State} {value : Value}
    (kept : Keeps part computation) (ran : computation state = .ok value after) :
    part after = part state :=
  kept.returned (show Outcome.Returned _ (.ok value) _ from ran)

theorem Keeps.failed {computation : Eff Fault State Error Value} {state after : State}
    {error : Error} (kept : Keeps part computation) (failed : computation state = .err error after) :
    part after = part state :=
  kept.returned (show Outcome.Returned _ (.error error) _ from failed)

theorem Keeps.zoom {Whole Fragment : Type} {view : Whole → State} {put : Whole → State → Whole}
    {part : Whole → Part} {fragment : State → Fragment}
    {computation : Eff Fault State Error Value} (kept : Keeps fragment computation)
    (determined : ∀ whole state, fragment state = fragment (view whole) →
      part (put whole state) = part whole) :
    Keeps part (zoom view put computation) := by
  intro whole after went
  have before := kept (view whole)
  unfold Effect.zoom at went
  cases ran : computation (view whole) with
  | ok value final =>
      rw [ran] at went before
      cases went
      exact determined whole final (before final rfl)
  | err error final =>
      rw [ran] at went before
      cases went
      exact determined whole final (before final rfl)
  | fault reason =>
      rw [ran] at went
      cases went

theorem keeps_zoom {Whole : Type} {view : Whole → State} {put : Whole → State → Whole}
    {part : Whole → Part} (apart : ∀ whole state, part (put whole state) = part whole)
    (computation : Eff Fault State Error Value) : Keeps part (zoom view put computation) := by
  have nothing : Keeps (fun _ => ()) computation := fun _ _ _ => rfl
  exact nothing.zoom fun whole state _ => apart whole state

end Frames

end Tyrne.Lib.Effect
