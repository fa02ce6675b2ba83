import Mathlib.Logic.Basic

/-! # Runs of partial step functions

A component is a step function over events that is undefined where an event cannot
happen. A run is a list of events that can all happen, one after the other.
-/

namespace CentauriCarbon

variable {State Event : Type}

/-- The state after the events, if each of them can happen. -/
def runEvents (step : State → Event → Option State) (state : State) : List Event → Option State
  | [] => some state
  | event :: events => (step state event).bind fun next => runEvents step next events

@[simp] theorem runEvents_nil (step : State → Event → Option State) (state : State) :
    runEvents step state [] = some state := rfl

variable {step : State → Event → Option State} {Allowed : State → Event → Prop}
  {Holds : State → Prop} {state final : State} {events done later : List Event}

theorem runEvents_cons_eq_some {event : Event} :
    runEvents step state (event :: events) = some final ↔
      ∃ next, step state event = some next ∧ runEvents step next events = some final := by
  rw [runEvents, Option.bind_eq_some_iff]

theorem runEvents_append_eq_bind : runEvents step state (done ++ later) =
    (runEvents step state done).bind fun middle => runEvents step middle later := by
  induction done generalizing state with
  | nil => rfl
  | cons event events induction => simp [runEvents, induction, Option.bind_assoc]

theorem runEvents_append {state middle : State} (ran : runEvents step state done = some middle) :
    runEvents step state (done ++ later) = runEvents step middle later := by
  rw [runEvents_append_eq_bind, ran, Option.bind_some]

/-- What every step with an allowed event keeps, every run of allowed events keeps. -/
theorem runEvents_invariant_of_allowed {Allowed : Event → Prop}
    (kept : ∀ state event next, Holds state → Allowed event → step state event = some next →
      Holds next)
    (allowed : ∀ event ∈ events, Allowed event) (initially : Holds state)
    (ran : runEvents step state events = some final) : Holds final := by
  induction events generalizing state with
  | nil =>
    cases ran
    exact initially
  | cons event events induction =>
    rcases runEvents_cons_eq_some.mp ran with ⟨next, stepped, rest⟩
    exact induction (fun other member => allowed other (List.mem_cons_of_mem _ member))
      (kept state event next initially (allowed event List.mem_cons_self) stepped) rest

theorem runEvents_invariant
    (kept : ∀ state event next, Holds state → step state event = some next → Holds next)
    {events : List Event} {state final : State} (initially : Holds state)
    (ran : runEvents step state events = some final) : Holds final :=
  runEvents_invariant_of_allowed (fun state event next holds _ => kept state event next holds)
    (fun _ _ => trivial) initially ran

/-- A run is shown to end by what can be computed from its last state. -/
theorem exists_of_ran {ran : Option State} (isFinal : ran = some final)
    (holds : ran = some final → Holds final) : ∃ final, ran = some final ∧ Holds final :=
  ⟨final, isFinal, holds isFinal⟩

theorem exists_of_observed {Seen : Type} {ran : Option State} (view : State → Seen) (seen : Seen)
    (observed : ran.map view = some seen)
    (holds : ∀ final, ran = some final → view final = seen → Holds final) :
    ∃ final, ran = some final ∧ Holds final := by
  rcases Option.map_eq_some_iff.mp observed with ⟨final, isFinal, isSeen⟩
  exact ⟨final, isFinal, holds final isFinal isSeen⟩

/-- Every step of a run meets a condition on the state before it. -/
def RunMeets (step : State → Event → Option State) (Allowed : State → Event → Prop) :
    State → List Event → Prop
  | _, [] => True
  | state, event :: events =>
    Allowed state event ∧
      match step state event with
      | none => True
      | some next => RunMeets step Allowed next events

instance decidableRunMeets {step : State → Event → Option State}
    {Allowed : State → Event → Prop} [∀ state event, Decidable (Allowed state event)] :
    ∀ state events, Decidable (RunMeets step Allowed state events)
  | _, [] => .isTrue trivial
  | state, event :: events =>
    have : Decidable (match step state event with
        | none => True
        | some next => RunMeets step Allowed next events) :=
      match step state event with
      | none => .isTrue trivial
      | some next => decidableRunMeets next events
    inferInstanceAs (Decidable (_ ∧ _))

theorem RunMeets.cons {state next : State} {event : Event} (allowed : Allowed state event)
    (stepped : step state event = some next) (later : RunMeets step Allowed next events) :
    RunMeets step Allowed state (event :: events) := by
  refine ⟨allowed, ?_⟩
  rw [stepped]
  exact later

theorem RunMeets.of_append (meets : RunMeets step Allowed state (done ++ later)) :
    RunMeets step Allowed state done := by
  induction done generalizing state with
  | nil => trivial
  | cons event events induction =>
    refine ⟨meets.1, ?_⟩
    split
    · trivial
    next next stepped =>
      have rest := meets.2
      rw [stepped] at rest
      exact induction rest

/-- What every step that meets the condition keeps, every run of such steps keeps. -/
theorem runEvents_invariant_of_meets
    (kept : ∀ state event next, Holds state → Allowed state event →
      step state event = some next → Holds next)
    (initially : Holds state) (meets : RunMeets step Allowed state events)
    (ran : runEvents step state events = some final) : Holds final := by
  induction events generalizing state with
  | nil =>
    cases ran
    exact initially
  | cons event events induction =>
    rcases runEvents_cons_eq_some.mp ran with ⟨next, stepped, rest⟩
    rcases meets with ⟨allowed, later⟩
    rw [stepped] at later
    exact induction (kept state event next initially allowed stepped) later rest

/-- A condition that says exactly when a step keeps a property says it of runs: the property
holds in every state of a run from a state that has it if each step meets the condition. -/
theorem runMeets_iff
    (exactly : ∀ state event, Holds state →
      (Allowed state event ↔ ∀ next, step state event = some next → Holds next))
    (initially : Holds state) : RunMeets step Allowed state events ↔
      ∀ done final, done <+: events → runEvents step state done = some final → Holds final := by
  constructor
  · rintro meets done final ⟨later, rfl⟩ ran
    exact runEvents_invariant_of_meets
      (fun state event next holds allowed => (exactly state event holds).mp allowed next)
      initially meets.of_append ran
  intro holds
  induction events generalizing state with
  | nil => trivial
  | cons event events induction =>
    have kept : ∀ next, step state event = some next → Holds next := by
      intro next stepped
      refine holds [event] next ⟨events, rfl⟩ ?_
      rw [runEvents, stepped]
      rfl
    refine ⟨(exactly state event initially).mpr kept, ?_⟩
    split
    · trivial
    next next stepped =>
      refine induction (kept next stepped) fun done final ⟨later, joined⟩ ran => ?_
      refine holds (event :: done) final ⟨later, by rw [List.cons_append, joined]⟩ ?_
      rw [runEvents, stepped]
      exact ran

/-- The same where a step must also be possible, for a condition that is exact in the states
that can be reached. -/
theorem runMeets_iff_defined {Always Holds : State → Prop}
    (kept : ∀ state event next, Always state → step state event = some next → Always next)
    (exactly : ∀ state event, Always state → Holds state →
      (Allowed state event ↔ ∃ next, step state event = some next ∧ Holds next))
    (always : Always state) (initially : Holds state) : RunMeets step Allowed state events ↔
      ∀ done, done <+: events → ∃ final, runEvents step state done = some final ∧ Holds final := by
  constructor
  · intro meets done isPrefix
    induction done generalizing state events with
    | nil => exact ⟨state, rfl, initially⟩
    | cons event done induction =>
      rcases isPrefix with ⟨later, rfl⟩
      rcases (exactly state event always initially).mp meets.1 with ⟨next, stepped, holds⟩
      have rest := meets.2
      rw [stepped] at rest
      rcases induction (kept state event next always stepped) holds rest ⟨later, rfl⟩ with
        ⟨final, ran, ends⟩
      exact ⟨final, runEvents_cons_eq_some.mpr ⟨next, stepped, ran⟩, ends⟩
  intro defined
  induction events generalizing state with
  | nil => trivial
  | cons event events induction =>
    rcases defined [event] ⟨events, rfl⟩ with ⟨next, ran, holds⟩
    rcases runEvents_cons_eq_some.mp ran with ⟨_, stepped, rest⟩
    cases rest
    refine .cons ((exactly state event always initially).mpr ⟨next, stepped, holds⟩) stepped ?_
    refine induction (kept state event next always stepped) holds fun done ⟨later, joined⟩ => ?_
    rcases defined (event :: done) ⟨later, by rw [List.cons_append, joined]⟩ with
      ⟨final, whole, ends⟩
    rcases runEvents_cons_eq_some.mp whole with ⟨_, first, ran⟩
    rw [stepped] at first
    cases first
    exact ⟨final, ran, ends⟩

theorem eq_ok_of_toOption {Error Value : Type} {result : Except Error Value} {value : Value}
    (isSome : result.toOption = some value) : result = .ok value := by
  cases result with
  | error => cases isSome
  | ok =>
    cases isSome
    rfl

theorem runEvents_of_foldlM {Error : Type} {step : State → Event → Except Error State}
    (folded : events.foldlM step state = .ok final) :
    runEvents (fun state event => (step state event).toOption) state events = some final := by
  induction events generalizing state with
  | nil =>
    cases folded
    rfl
  | cons event events induction =>
    rw [List.foldlM_cons] at folded
    cases stepped : step state event with
    | error =>
      rw [stepped] at folded
      cases folded
    | ok next =>
      rw [stepped] at folded
      rw [runEvents, stepped]
      exact induction folded

end CentauriCarbon
