/-!
# Runs of a step relation

A run is recorded as the list of the transitions it took, each with the states
on both sides, so that a property of a run can speak about what held when a step
was taken and about what the step reported in its label.
-/

namespace Tyrne.Lib.Runs

set_option autoImplicit false

variable {State Label : Type}

structure Transition (State Label : Type) where
  before : State
  label : Label
  after : State

inductive Run (Step : State → Label → State → Prop) (start : State) :
    List (Transition State Label) → State → Prop where
  | nil : Run Step start [] start
  | snoc {trace : List (Transition State Label)} {middle after : State} {label : Label}
      (earlier : Run Step start trace middle) (step : Step middle label after) :
      Run Step start (trace ++ [⟨middle, label, after⟩]) after

variable {Step : State → Label → State → Prop} {start after : State}
  {trace : List (Transition State Label)}

/-- What holds at the start and survives every step holds wherever a run ends. -/
theorem run_invariant {Invariant : State → Prop} (initial : Invariant start)
    (preserved : ∀ before label after, Invariant before → Step before label after →
      Invariant after)
    (run : Run Step start trace after) : Invariant after := by
  induction run with
  | nil => exact initial
  | snoc earlier step ih => exact preserved _ _ _ ih step

theorem run_weaken {Other : State → Label → State → Prop}
    (weaker : ∀ before label after, Step before label after → Other before label after)
    (run : Run Step start trace after) : Run Other start trace after := by
  induction run with
  | nil => exact .nil
  | snoc earlier step ih => exact .snoc ih (weaker _ _ _ step)

/-- A run whose steps all have a property is a run of such steps. -/
theorem run_strengthen {Chosen : State → Label → State → Prop}
    (run : Run Step start trace after)
    (chosen : ∀ taken ∈ trace, Chosen taken.before taken.label taken.after) :
    Run (fun before label after => Step before label after ∧ Chosen before label after) start
      trace after := by
  induction run with
  | nil => exact .nil
  | snoc earlier step ih =>
      refine .snoc (ih fun taken member => chosen taken (List.mem_append_left _ member))
        ⟨step, ?_⟩
      exact chosen _ (List.mem_append_right _ (List.mem_singleton_self _))

theorem run_split {front back : List (Transition State Label)}
    (run : Run Step start (front ++ back) after) :
    ∃ middle, Run Step start front middle ∧ Run Step middle back after := by
  generalize whole : front ++ back = total at run
  induction run generalizing back with
  | nil =>
      rcases List.append_eq_nil_iff.mp whole with ⟨rfl, rfl⟩
      exact ⟨start, .nil, .nil⟩
  | @snoc prior middle final label earlier step ih =>
      rcases List.eq_nil_or_concat back with rfl | ⟨rest, last, rfl⟩
      · rw [List.append_nil] at whole
        subst whole
        exact ⟨final, .snoc earlier step, .nil⟩
      · rw [List.concat_eq_append, ← List.append_assoc] at whole
        rcases List.append_inj' whole rfl with ⟨same, lastSame⟩
        cases lastSame
        rcases ih same with ⟨cut, first, second⟩
        refine ⟨cut, first, ?_⟩
        rw [List.concat_eq_append]
        exact .snoc second step

theorem run_single {label : Label} (step : Step start label after) :
    Run Step start [⟨start, label, after⟩] after := .snoc .nil step

theorem run_append {middle : State} {front back : List (Transition State Label)}
    (first : Run Step start front middle) (second : Run Step middle back after) :
    Run Step start (front ++ back) after := by
  induction second with
  | nil => simpa using first
  | snoc earlier step ih =>
      rw [← List.append_assoc]
      exact .snoc ih step

theorem run_nil (run : Run Step start ([] : List (Transition State Label)) after) :
    after = start := by
  generalize empty : ([] : List (Transition State Label)) = none_taken at run
  cases run with
  | nil => rfl
  | snoc _ _ => simp at empty

theorem run_cons {first : Transition State Label} {rest : List (Transition State Label)}
    (run : Run Step start (first :: rest) after) :
    first.before = start ∧ Step start first.label first.after ∧
      Run Step first.after rest after := by
  rcases run_split (show Run Step start ([first] ++ rest) after from run) with
    ⟨middle, single, remaining⟩
  generalize whole : [first] = total at single
  cases single with
  | nil => cases whole
  | @snoc prior before _ label earlier step =>
      have empty : prior = [] := by
        have lengths := congrArg List.length whole
        simpa using lengths
      subst empty
      cases whole
      have same := run_nil earlier
      subst same
      exact ⟨rfl, step, remaining⟩

theorem run_at {taken : Transition State Label} {front back : List (Transition State Label)}
    (run : Run Step start (front ++ taken :: back) after) :
    Run Step start front taken.before ∧ Step taken.before taken.label taken.after := by
  rcases run_split run with ⟨middle, early, late⟩
  rcases run_cons late with ⟨same, step, _⟩
  rw [← same] at early step
  exact ⟨early, step⟩

theorem run_member {taken : Transition State Label} (run : Run Step start trace after)
    (member : taken ∈ trace) :
    ∃ front, Run Step start front taken.before ∧ Step taken.before taken.label taken.after ∧
      ∃ back, trace = front ++ taken :: back := by
  rcases List.append_of_mem member with ⟨front, back, rfl⟩
  rcases run_at run with ⟨early, step⟩
  exact ⟨front, early, step, back, rfl⟩

/-- A run carries over along a function that takes each step, from a state that
satisfies the invariant, to a step of another relation. -/
theorem run_map {Image : Type} {ImageStep : Image → Label → Image → Prop}
    (image : State → Image) {Invariant : State → Prop} (initial : Invariant start)
    (preserved : ∀ before label after, Invariant before → Step before label after →
      Invariant after)
    (simulated : ∀ before label after, Invariant before → Step before label after →
      ImageStep (image before) label (image after))
    (run : Run Step start trace after) :
    Run ImageStep (image start)
      (trace.map fun taken => ⟨image taken.before, taken.label, image taken.after⟩)
      (image after) := by
  induction run with
  | nil => exact .nil
  | snoc earlier step ih =>
      have reached := run_invariant initial preserved earlier
      rw [List.map_append]
      exact .snoc ih (simulated _ _ _ reached step)

def labels (trace : List (Transition State Label)) : List Label := trace.map Transition.label

theorem labels_snoc (trace : List (Transition State Label)) (taken : Transition State Label) :
    labels (trace ++ [taken]) = labels trace ++ [taken.label] := by
  rw [labels, List.map_append]
  rfl

theorem filter_map_snoc {Item Kept : Type} (keep : Item → Option Kept) (items : List Item)
    (item : Item) :
    (items ++ [item]).filterMap keep = items.filterMap keep ++ (keep item).toList := by
  rw [List.filterMap_append, List.filterMap_cons, List.filterMap_nil]
  cases keep item <;> rfl

theorem run_at_label {front back : List Label} {label : Label}
    (run : Run Step start trace after) (cut : labels trace = front ++ label :: back) :
    ∃ early before middle late, labels early = front ∧ labels late = back ∧
      Run Step start early before ∧ Step before label middle ∧ Run Step middle late after := by
  rcases List.map_eq_append_iff.mp cut with ⟨early, rest, rfl, frontSame, restSame⟩
  rcases List.map_eq_cons_iff.mp restSame with ⟨taken, late, rfl, rfl, backSame⟩
  rcases run_split run with ⟨reached, first, second⟩
  rcases run_cons second with ⟨same, step, remaining⟩
  rw [← same] at first step
  exact ⟨early, taken.before, taken.after, late, frontSame, backSame, first, step, remaining⟩

/-- What holds at the start and survives every step with an allowed label holds at the end
of a run of such steps. -/
theorem run_invariant_of_labels {Invariant : State → Prop} {Allowed : Label → Prop}
    (initial : Invariant start)
    (preserved : ∀ before label after, Invariant before → Allowed label →
      Step before label after → Invariant after)
    (run : Run Step start trace after) (allowed : ∀ label ∈ labels trace, Allowed label) :
    Invariant after := by
  induction run with
  | nil => exact initial
  | snoc earlier step ih =>
      simp only [labels_snoc, List.mem_append, List.mem_singleton] at allowed
      exact preserved _ _ _ (ih fun label member => allowed label (.inl member))
        (allowed _ (.inr rfl)) step

/-- A system that can take every input from every state of an invariant has a run for every
list of inputs. -/
theorem run_of_inputs {Input : Type} {inputOf : Label → Input} {Invariant : State → Prop}
    (enabled : ∀ before input, Invariant before →
      ∃ label after, inputOf label = input ∧ Step before label after ∧ Invariant after)
    (initial : Invariant start) (inputs : List Input) :
    ∃ trace after, Run Step start trace after ∧ (labels trace).map inputOf = inputs := by
  induction inputs generalizing start with
  | nil => exact ⟨[], start, .nil, rfl⟩
  | cons input rest ih =>
      rcases enabled start input initial with ⟨label, middle, same, step, kept⟩
      obtain ⟨trace, after, run, inputsSame⟩ := ih kept
      refine ⟨⟨start, label, middle⟩ :: trace, after, run_append (run_single step) run, ?_⟩
      simp only [labels, List.map_cons, same]
      rw [← inputsSame, labels]

/-- A system that can take every allowed label from every state of an invariant has a run for
every list of allowed labels. -/
theorem run_of_labels {Invariant : State → Prop} {Allowed : Label → Prop}
    (enabled : ∀ before label, Invariant before → Allowed label →
      ∃ after, Step before label after ∧ Invariant after)
    (initial : Invariant start) (path : List Label) (allowed : ∀ label ∈ path, Allowed label) :
    ∃ trace after, Run Step start trace after ∧ labels trace = path := by
  induction path generalizing start with
  | nil => exact ⟨[], start, .nil, rfl⟩
  | cons label rest ih =>
      obtain ⟨middle, step, kept⟩ := enabled start label initial (allowed label List.mem_cons_self)
      obtain ⟨trace, after, run, same⟩ :=
        ih kept fun later member => allowed later (List.mem_cons_of_mem label member)
      refine ⟨⟨start, label, middle⟩ :: trace, after, run_append (run_single step) run, ?_⟩
      rw [← same]
      rfl

def follow (next : State → Label → Option State) (start : State) : List Label → Option State
  | [] => some start
  | label :: rest => (next start label).bind fun middle => follow next middle rest

def passed (next : State → Label → Option State) (start : State) :
    List Label → List (Transition State Label)
  | [] => []
  | label :: rest =>
      match next start label with
      | none => []
      | some middle => ⟨start, label, middle⟩ :: passed next middle rest

theorem run_passed {next : State → Label → Option State} {path : List Label}
    (followed : follow next start path = some after) :
    Run (fun before label reached => next before label = some reached) start
      (passed next start path) after := by
  induction path generalizing start with
  | nil =>
      cases followed
      exact .nil
  | cons label rest ih =>
      rcases Option.bind_eq_some_iff.mp followed with ⟨middle, step, remaining⟩
      simp only [passed, step]
      exact run_append (.snoc .nil step) (ih remaining)

theorem labels_passed {next : State → Label → Option State} {path : List Label}
    (followed : follow next start path = some after) : labels (passed next start path) = path := by
  induction path generalizing start with
  | nil => rfl
  | cons label rest ih =>
      rcases Option.bind_eq_some_iff.mp followed with ⟨middle, step, remaining⟩
      simp only [passed, step, labels, List.map_cons]
      rw [← labels, ih remaining]

theorem run_of_follow {next : State → Label → Option State} {path : List Label}
    (followed : follow next start path = some after) :
    ∃ trace, Run (fun before label reached => next before label = some reached) start trace after ∧
      labels trace = path :=
  ⟨_, run_passed followed, labels_passed followed⟩

/-- The last transition of a trace that is of this kind. -/
def Latest (Chosen : Transition State Label → Prop) (trace : List (Transition State Label))
    (taken : Transition State Label) : Prop :=
  ∃ early late, trace = early ++ taken :: late ∧ Chosen taken ∧ ∀ other ∈ late, ¬ Chosen other

section Latest

variable {Chosen : Transition State Label → Prop} {taken next : Transition State Label}

theorem latest_now (chosen : Chosen next) : Latest Chosen (trace ++ [next]) next :=
  ⟨trace, [], rfl, chosen, fun _ member => absurd member List.not_mem_nil⟩

theorem Latest.later (latest : Latest Chosen trace taken) (other : ¬ Chosen next) :
    Latest Chosen (trace ++ [next]) taken := by
  rcases latest with ⟨early, late, rfl, chosen, others⟩
  refine ⟨early, late ++ [next], by simp, chosen, ?_⟩
  intro transition member
  rcases List.mem_append.mp member with before | last
  · exact others transition before
  · rw [List.mem_singleton.mp last]
    exact other

theorem Latest.earlier (latest : Latest Chosen (trace ++ [next]) taken) (other : ¬ Chosen next) :
    Latest Chosen trace taken := by
  rcases latest with ⟨early, late, whole, chosen, others⟩
  rcases List.eq_nil_or_concat late with rfl | ⟨rest, last, rfl⟩
  · cases (List.append_inj' whole rfl).2
    exact absurd chosen other
  · rw [List.concat_eq_append] at whole others
    rw [← List.cons_append, ← List.append_assoc] at whole
    refine ⟨early, rest, (List.append_inj' whole rfl).1, chosen, ?_⟩
    intro transition member
    exact others transition (List.mem_append_left _ member)

theorem Latest.member (latest : Latest Chosen trace taken) : taken ∈ trace ∧ Chosen taken := by
  rcases latest with ⟨early, late, rfl, chosen, _⟩
  exact ⟨List.mem_append_right _ List.mem_cons_self, chosen⟩

/-- The last transition of an image of a trace comes from the last one that it is the image
of. -/
theorem latest_map {Other OtherLabel : Type}
    {image : Transition State Label → Transition Other OtherLabel}
    {Selected : Transition Other OtherLabel → Prop} {found : Transition Other OtherLabel}
    (latest : Latest Selected (trace.map image) found) :
    ∃ source, Latest (fun transition => Selected (image transition)) trace source ∧
      image source = found := by
  rcases latest with ⟨early, late, whole, selected, others⟩
  rcases List.map_eq_append_iff.mp whole with ⟨front, rest, rfl, rfl, restSame⟩
  rcases List.map_eq_cons_iff.mp restSame with ⟨source, back, rfl, rfl, rfl⟩
  refine ⟨source, ⟨front, back, rfl, selected, ?_⟩, rfl⟩
  intro other member
  exact others _ (List.mem_map_of_mem member)

theorem Latest.unique {other : Transition State Label} (first : Latest Chosen trace taken)
    (second : Latest Chosen trace other) : taken = other := by
  rcases first with ⟨early, late, rfl, chosen, noneLater⟩
  rcases second with ⟨otherEarly, otherLate, same, otherChosen, noneAfter⟩
  rcases List.append_eq_append_iff.mp same with ⟨gap, rfl, tail⟩ | ⟨gap, rfl, tail⟩
  · cases gap with
    | nil =>
        cases tail
        rfl
    | cons first rest =>
        cases tail
        exact absurd otherChosen (noneLater _ (List.mem_append_right _ List.mem_cons_self))
  · cases gap with
    | nil =>
        cases tail
        rfl
    | cons first rest =>
        cases tail
        exact absurd chosen (noneAfter _ (List.mem_append_right _ List.mem_cons_self))

end Latest

end Tyrne.Lib.Runs
