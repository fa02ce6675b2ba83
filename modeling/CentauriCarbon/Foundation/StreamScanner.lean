import Mathlib.Data.List.Basic

/-! # Incremental stream scanners

A scanner works on a buffer that is filled from a stream in arbitrary pieces. It
either waits for more data or removes some symbols from the front of its buffer,
handing items to its consumer. This file gives the part of the theory that does
not depend on what is scanned: running a scanner until it waits, independence of
how the stream was cut, and refinement of one scanner by another.
-/

namespace CentauriCarbon

structure ScanStep (State Item : Type) where
  consumed : Nat
  next : State
  items : List Item

/-- A scanner's decision on a buffer. `none` waits for more data. A step removes
at least one symbol and never more than are buffered. -/
structure Scanner (State Symbol Item : Type) where
  step : State → List Symbol → Option (ScanStep State Item)
  consumed_pos : ∀ {state buffer result}, step state buffer = some result → 0 < result.consumed
  consumed_le : ∀ {state buffer result},
    step state buffer = some result → result.consumed ≤ buffer.length

@[ext] structure ScanSession (State Symbol Item : Type) where
  items : List Item
  state : State
  buffer : List Symbol

variable {State Symbol Item : Type}

namespace ScanSession

def prepend (earlier : List Item) (session : ScanSession State Symbol Item) :
    ScanSession State Symbol Item :=
  { session with items := earlier ++ session.items }

variable (earlier : List Item) (session : ScanSession State Symbol Item)

@[simp] theorem prepend_items : (session.prepend earlier).items = earlier ++ session.items := rfl

@[simp] theorem prepend_state : (session.prepend earlier).state = session.state := rfl

@[simp] theorem prepend_buffer : (session.prepend earlier).buffer = session.buffer := rfl

@[simp] theorem prepend_nil : session.prepend [] = session := rfl

theorem prepend_prepend (first second : List Item) :
    (session.prepend second).prepend first = session.prepend (first ++ second) := by
  ext1 <;> simp

end ScanSession

namespace Scanner

def runFor (scanner : Scanner State Symbol Item) :
    Nat → State → List Symbol → ScanSession State Symbol Item
  | 0, state, buffer => ⟨[], state, buffer⟩
  | fuel + 1, state, buffer =>
    match scanner.step state buffer with
    | none => ⟨[], state, buffer⟩
    | some result =>
      (scanner.runFor fuel result.next (buffer.drop result.consumed)).prepend result.items

variable (scanner : Scanner State Symbol Item) (session : ScanSession State Symbol Item)

/-- Step until the scanner waits for more data. Every step removes a symbol, so
the number of buffered symbols bounds the number of steps. -/
def drain (state : State) (buffer : List Symbol) : ScanSession State Symbol Item :=
  scanner.runFor buffer.length state buffer

variable {buffer : List Symbol} {state : State} {result : ScanStep State Item}

theorem length_drop_lt (stepped : scanner.step state buffer = some result) :
    (buffer.drop result.consumed).length < buffer.length := by
  have positive := scanner.consumed_pos stepped
  have bounded := scanner.consumed_le stepped
  rw [List.length_drop]
  omega

theorem step_nil (state : State) : scanner.step state [] = none := by
  cases stepped : scanner.step state [] with
  | none => rfl
  | some result =>
    have shorter := scanner.length_drop_lt stepped
    simp at shorter

theorem runFor_eq_runFor (fuel other : Nat) (state : State)
    (buffer : List Symbol) (enough : buffer.length ≤ fuel) (otherEnough : buffer.length ≤ other) :
    scanner.runFor fuel state buffer = scanner.runFor other state buffer := by
  induction fuel generalizing other state buffer with
  | zero =>
    have empty : buffer = [] := List.length_eq_zero_iff.mp (by omega)
    subst empty
    cases other <;> simp [runFor, step_nil]
  | succ fuel induction =>
    cases other with
    | zero =>
      have empty : buffer = [] := List.length_eq_zero_iff.mp (by omega)
      subst empty
      simp [runFor, step_nil]
    | succ other =>
      cases stepped : scanner.step state buffer with
      | none => simp [runFor, stepped]
      | some result =>
        have shorter := scanner.length_drop_lt stepped
        simp only [runFor, stepped]
        rw [induction other _ _ (by omega) (by omega)]

theorem runFor_eq_drain (fuel : Nat) (state : State)
    (buffer : List Symbol) (enough : buffer.length ≤ fuel) :
    scanner.runFor fuel state buffer = scanner.drain state buffer :=
  scanner.runFor_eq_runFor fuel buffer.length state buffer enough (Nat.le_refl _)

theorem drain_of_none (waits : scanner.step state buffer = none) :
    scanner.drain state buffer = ⟨[], state, buffer⟩ := by
  cases buffer with
  | nil => rfl
  | cons head tail => simp [drain, runFor, waits]

theorem drain_of_some
    (stepped : scanner.step state buffer = some result) : scanner.drain state buffer =
      (scanner.drain result.next (buffer.drop result.consumed)).prepend result.items := by
  have shorter := scanner.length_drop_lt stepped
  rw [← scanner.runFor_eq_drain (buffer.length + 1) state buffer (by omega)]
  simp only [runFor, stepped]
  rw [scanner.runFor_eq_drain buffer.length _ _ (Nat.le_of_lt shorter)]

/-- Induction along a drain: either the scanner waits, or it steps and the claim
is already known for the shorter buffer that remains. -/
theorem drain_induction
    {motive : State → List Symbol → Prop}
    (waits : ∀ state buffer, scanner.step state buffer = none → motive state buffer)
    (steps : ∀ state buffer result, scanner.step state buffer = some result →
      motive result.next (buffer.drop result.consumed) → motive state buffer)
    (state : State) (buffer : List Symbol) : motive state buffer := by
  cases stepped : scanner.step state buffer with
  | none => exact waits state buffer stepped
  | some result =>
    have shorter := scanner.length_drop_lt stepped
    exact steps state buffer result stepped
      (drain_induction waits steps result.next (buffer.drop result.consumed))
termination_by buffer.length
decreasing_by exact shorter

theorem step_drain (state : State) (buffer : List Symbol) :
    scanner.step (scanner.drain state buffer).state (scanner.drain state buffer).buffer = none := by
  induction state, buffer using scanner.drain_induction with
  | waits state buffer waiting => rw [scanner.drain_of_none waiting]; exact waiting
  | steps state buffer result stepped induction =>
    rw [scanner.drain_of_some stepped]
    exact induction

/-! ## Independence of cuts -/

/-- Data that arrives later does not change a decision already possible. -/
def Stable : Prop :=
  ∀ state buffer result more, scanner.step state buffer = some result →
    scanner.step state (buffer ++ more) = some result

theorem drain_append (stable : scanner.Stable) (state : State)
    (buffer more : List Symbol) : scanner.drain state (buffer ++ more) =
      (scanner.drain (scanner.drain state buffer).state
        ((scanner.drain state buffer).buffer ++ more)).prepend
          (scanner.drain state buffer).items := by
  induction state, buffer using scanner.drain_induction with
  | waits state buffer waiting => simp [scanner.drain_of_none waiting]
  | steps state buffer result stepped induction =>
    have bounded := scanner.consumed_le stepped
    rw [scanner.drain_of_some (stable state buffer result more stepped),
      scanner.drain_of_some stepped, List.drop_append_of_le_length bounded, induction]
    simp [ScanSession.prepend_prepend]

/-! ## Refinement -/

/-- `scanner` refines `spec` when each of its steps is matched by draining `spec`,
and `spec` has nothing to hand over where `scanner` waits. The two need not make
the same cuts: `spec` may already have discarded what `scanner` still buffers. -/
structure Refines {SpecState : Type} (scanner : Scanner State Symbol Item)
    (spec : Scanner SpecState Symbol Item) (abstraction : State → SpecState) : Prop where
  waits : ∀ state buffer, scanner.step state buffer = none →
    (spec.drain (abstraction state) buffer).items = []
  steps : ∀ state buffer result, scanner.step state buffer = some result →
    spec.drain (abstraction state) buffer =
      (spec.drain (abstraction result.next) (buffer.drop result.consumed)).prepend result.items

/-- A session of `scanner` that has received `stream` agrees with `spec`: what
`spec` finds in the stream is what was handed over, followed by what `spec` finds
in the symbols still buffered. -/
def Agrees {SpecState : Type} (spec : Scanner SpecState Symbol Item)
    (abstraction : State → SpecState) (start : SpecState) (stream : List Symbol)
    (session : ScanSession State Symbol Item) : Prop :=
  spec.drain start stream =
    (spec.drain (abstraction session.state) session.buffer).prepend session.items

def receive (more : List Symbol) : ScanSession State Symbol Item :=
  { session with buffer := session.buffer ++ more }

def poll : ScanSession State Symbol Item :=
  match scanner.step session.state session.buffer with
  | none => session
  | some result =>
    ⟨session.items ++ result.items, result.next, session.buffer.drop result.consumed⟩

def settle : ScanSession State Symbol Item :=
  (scanner.drain session.state session.buffer).prepend session.items

theorem step_settle :
    scanner.step (scanner.settle session).state (scanner.settle session).buffer = none :=
  scanner.step_drain session.state session.buffer

section Agreement

variable {scanner} {SpecState : Type}
  {spec : Scanner SpecState Symbol Item} {abstraction : State → SpecState}
  {start : SpecState} {stream : List Symbol}
  {session : ScanSession State Symbol Item}

theorem Agrees.receive (stable : spec.Stable)
    (agrees : spec.Agrees abstraction start stream session) (more : List Symbol) :
    spec.Agrees abstraction start (stream ++ more) (receive session more) := by
  unfold Agrees at agrees ⊢
  rw [spec.drain_append stable, agrees]
  simp only [Scanner.receive, ScanSession.prepend_items, ScanSession.prepend_state,
    ScanSession.prepend_buffer]
  rw [spec.drain_append stable (abstraction session.state) session.buffer more,
    ScanSession.prepend_prepend]

variable (refines : scanner.Refines spec abstraction)
include refines

theorem runFor_agrees (fuel : Nat) (state : State) (buffer : List Symbol) :
    spec.Agrees abstraction (abstraction state) buffer (scanner.runFor fuel state buffer) := by
  induction fuel generalizing state buffer with
  | zero => rfl
  | succ fuel induction =>
    cases stepped : scanner.step state buffer with
    | none =>
      simp only [runFor, stepped]
      rfl
    | some result =>
      have later := induction result.next (buffer.drop result.consumed)
      unfold Agrees at later ⊢
      simp only [runFor, stepped]
      rw [refines.steps _ _ _ stepped, later]
      simp [ScanSession.prepend_prepend]

variable (agrees : spec.Agrees abstraction start stream session)
include agrees

theorem Agrees.poll : spec.Agrees abstraction start stream (scanner.poll session) := by
  unfold Scanner.poll
  cases stepped : scanner.step session.state session.buffer with
  | none => exact agrees
  | some result =>
    unfold Agrees at agrees ⊢
    rw [agrees, refines.steps _ _ _ stepped]
    simp [ScanSession.prepend_prepend]

theorem Agrees.settle : spec.Agrees abstraction start stream (scanner.settle session) := by
  have drained := runFor_agrees refines session.buffer.length session.state session.buffer
  unfold Agrees at agrees drained ⊢
  rw [agrees, drained]
  simp [Scanner.settle, Scanner.drain, ScanSession.prepend_prepend]

/-- Once the scanner waits, it has handed over exactly what `spec` finds in the
whole stream. -/
theorem Agrees.items_eq (waiting : scanner.step session.state session.buffer = none) :
    session.items = (spec.drain start stream).items := by
  rw [agrees, ScanSession.prepend_items, refines.waits _ _ waiting, List.append_nil]

end Agreement

end Scanner

end CentauriCarbon
