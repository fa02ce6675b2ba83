import Mathlib.Algebra.Order.BigOperators.Group.List
import Mathlib.Algebra.Order.Group.Nat
import Mathlib.Algebra.Order.Ring.Int

/-! # A sender that respects a receive buffer

An abstract sender and a receiver that takes one block at a time from its buffer. Messages of
the receiver acknowledge every block it has taken, the one it is still working on included, and
only an explicit ack promises that the block has also left the buffer. A sender that goes on
counting the last acknowledged block until its ack arrives never exceeds the buffer.
-/

namespace CentauriCarbon.ReceiveWindow

open List

/-- The sizes of all blocks sent; how many of them the sender has seen acknowledged, the
receiver has taken and the receiver has removed from its buffer; the highest ack seen; and the
messages under way to the sender, each with its count and whether it is an ack. -/
structure State where
  sizes : List Nat
  acked : Nat
  accepted : Nat
  removed : Nat
  lastAck : Nat
  up : List (Nat × Bool)

namespace State

def start : State := ⟨[], 0, 0, 0, 0, []⟩

def outstanding (state : State) : Nat := (state.sizes.drop state.removed).sum

def counted (state : State) : Nat :=
  (state.sizes.drop state.acked).sum +
    if state.lastAck < state.acked then state.sizes.getD (state.acked - 1) 0 else 0

end State

/-- A step with a buffer of `window` bytes and blocks of at most `maxSize`. A sender for which
nothing is outstanding sends without looking at the window. -/
inductive Step (window maxSize : Nat) : State → State → Prop
  | send (state : State) (size : Nat) (small : size ≤ maxSize)
      (admitted : state.acked < state.sizes.length → state.counted + maxSize ≤ window) :
      Step window maxSize state { state with sizes := state.sizes ++ [size] }
  | accept (state : State) (available : state.accepted < state.sizes.length)
      (idle : state.accepted = state.removed) :
      Step window maxSize state { state with accepted := state.accepted + 1 }
  | respond (state : State) :
      Step window maxSize state { state with up := state.up ++ [(state.accepted, false)] }
  | remove (state : State) (busy : state.removed < state.accepted) :
      Step window maxSize state { state with removed := state.removed + 1 }
  | ack (state : State) (idle : state.accepted = state.removed) :
      Step window maxSize state { state with up := state.up ++ [(state.accepted, true)] }
  | receive (state : State) (count : Nat) (isAck : Bool) (rest : List (Nat × Bool))
      (first : state.up = (count, isAck) :: rest) :
      Step window maxSize state
        { state with
          acked := count
          lastAck := if isAck then max state.lastAck count else state.lastAck
          up := rest }
  | lose (state : State) (up : List (Nat × Bool)) (fewer : up.Sublist state.up) :
      Step window maxSize state { state with up }

structure Invariant (window maxSize : Nat) (state : State) : Prop where
  acked_le : state.acked ≤ state.accepted
  accepted_le : state.accepted ≤ state.sizes.length
  removed_le : state.removed ≤ state.accepted
  one_taken : state.accepted ≤ state.removed + 1
  lastAck_le : state.lastAck ≤ state.removed
  up_ge : ∀ message ∈ state.up, state.acked ≤ message.1
  up_le : ∀ message ∈ state.up, message.1 ≤ state.accepted
  up_ack : ∀ message ∈ state.up, message.2 = true → message.1 ≤ state.removed
  up_order : state.up.Pairwise fun earlier later => earlier.1 ≤ later.1
  small : ∀ size ∈ state.sizes, size ≤ maxSize
  outstanding_le : state.outstanding ≤ window

theorem invariant_start (window maxSize : Nat) : Invariant window maxSize .start := by
  constructor <;> simp [State.start, State.outstanding]

section Step

variable {window maxSize : Nat} {state next : State}

section

variable (invariant : Invariant window maxSize state)
include invariant

/-- The bytes that an admitted block leaves outstanding. While the sender is ahead of the
buffer by the block that the receiver works on, it still counts that block. -/
theorem Invariant.outstanding_add_le (twoFit : maxSize + maxSize ≤ window)
    (admitted : state.acked < state.sizes.length → state.counted + maxSize ≤ window) :
    state.outstanding + maxSize ≤ window := by
  have acked_le := invariant.acked_le
  have accepted_le := invariant.accepted_le
  have one_taken := invariant.one_taken
  have lastAck_le := invariant.lastAck_le
  unfold State.outstanding
  unfold State.counted at admitted
  rcases lt_or_ge state.removed state.acked with ahead | behind
  · have acked_eq : state.acked = state.removed + 1 := by omega
    have inside : state.removed < state.sizes.length := by omega
    have taken := invariant.small _ (getElem_mem inside)
    have split_sum : (state.sizes.drop state.removed).sum =
        state.sizes.get ⟨state.removed, inside⟩ + (state.sizes.drop state.acked).sum := by
      rw [acked_eq, drop_eq_getElem_cons inside, sum_cons]
      rfl
    rcases lt_or_ge state.acked state.sizes.length with more | all
    · have room := admitted more
      have counts : state.sizes.getD (state.acked - 1) 0 =
          state.sizes.get ⟨state.removed, inside⟩ := by
        rw [acked_eq, Nat.add_sub_cancel, getD_eq_getElem?_getD, getElem?_eq_getElem inside]
        rfl
      rw [if_pos (by omega), counts] at room
      omega
    · rw [drop_eq_nil_of_le all, sum_nil] at split_sum
      have single : state.sizes.get ⟨state.removed, inside⟩ ≤ maxSize := taken
      omega
  · have fewer : (state.sizes.drop state.removed).sum ≤ (state.sizes.drop state.acked).sum := by
      have suffix : state.sizes.drop state.removed =
          (state.sizes.drop state.acked).drop (state.removed - state.acked) := by
        rw [drop_drop, Nat.add_sub_cancel' behind]
      rw [suffix]
      exact (drop_sublist _ _).sum_le_sum fun _ _ => zero_le
    rcases lt_or_ge state.acked state.sizes.length with more | all
    · have room := admitted more
      omega
    · rw [drop_eq_nil_of_le all, sum_nil] at fewer
      omega

/-- A message that carries the receiver's count joins the ones under way. -/
theorem Invariant.signal {isAck : Bool} (honest : isAck → state.accepted = state.removed) :
    Invariant window maxSize { state with up := state.up ++ [(state.accepted, isAck)] } :=
  { invariant with
    up_ge := forall_mem_append.mpr ⟨invariant.up_ge, forall_mem_singleton.mpr invariant.acked_le⟩
    up_le := forall_mem_append.mpr ⟨invariant.up_le, forall_mem_singleton.mpr le_rfl⟩
    up_ack := forall_mem_append.mpr
      ⟨invariant.up_ack, forall_mem_singleton.mpr fun ack => (honest ack).le⟩
    up_order := by
      apply pairwise_append.mpr
      refine ⟨invariant.up_order, pairwise_singleton _ _, ?_⟩
      intro earlier old later new
      rw [mem_singleton.mp new]
      exact invariant.up_le earlier old }

theorem Invariant.receive {count : Nat} (first : state.up = (count, isAck) :: rest) :
    Invariant window maxSize
      { state with
        acked := count
        lastAck := if isAck then max state.lastAck count else state.lastAck
        up := rest } := by
  have member : (count, isAck) ∈ state.up := by simp [first]
  have later : ∀ message ∈ rest, message ∈ state.up := by
    intro message isLater
    rw [first]
    exact mem_cons_of_mem _ isLater
  have order := invariant.up_order
  rw [first] at order
  exact { invariant with
    acked_le := invariant.up_le _ member
    lastAck_le := by
      split
      next ack => exact Nat.max_le.mpr ⟨invariant.lastAck_le, invariant.up_ack _ member ack⟩
      · exact invariant.lastAck_le
    up_ge := fun message isLater => rel_of_pairwise_cons order isLater
    up_le := fun message isLater => invariant.up_le message (later message isLater)
    up_ack := fun message isLater => invariant.up_ack message (later message isLater)
    up_order := order.of_cons }

end

theorem Step.invariant (twoFit : maxSize + maxSize ≤ window) (step : Step window maxSize state next)
    (invariant : Invariant window maxSize state) : Invariant window maxSize next := by
  have accepted_le := invariant.accepted_le
  have removed_le := invariant.removed_le
  have one_taken := invariant.one_taken
  have lastAck_le := invariant.lastAck_le
  cases step with
  | send size fits admitted =>
    exact { invariant with
      accepted_le := by
        rw [length_append]
        exact Nat.le_add_right_of_le accepted_le
      small := forall_mem_append.mpr ⟨invariant.small, forall_mem_singleton.mpr fits⟩
      outstanding_le := by
        have room := invariant.outstanding_add_le twoFit admitted
        have inside := le_trans removed_le accepted_le
        rw [State.outstanding, drop_append_of_le_length inside, sum_append, sum_singleton]
        exact le_trans (Nat.add_le_add_left fits _) room }
  | accept available idle =>
    exact { invariant with
      acked_le := Nat.le_succ_of_le invariant.acked_le
      accepted_le := available
      removed_le := Nat.le_succ_of_le removed_le
      one_taken := Nat.succ_le_succ idle.le
      up_le := fun message member => Nat.le_succ_of_le (invariant.up_le message member) }
  | respond => exact invariant.signal nofun
  | remove busy =>
    exact { invariant with
      removed_le := busy
      one_taken := Nat.le_succ_of_le one_taken
      lastAck_le := Nat.le_succ_of_le lastAck_le
      up_ack := fun message member isAck =>
        Nat.le_succ_of_le (invariant.up_ack message member isAck)
      outstanding_le := by
        have fewer : (state.sizes.drop (state.removed + 1)).sum ≤
            (state.sizes.drop state.removed).sum := by
          rw [← drop_drop]
          exact (drop_sublist _ _).sum_le_sum fun _ _ => zero_le
        exact le_trans fewer invariant.outstanding_le }
  | ack idle => exact invariant.signal fun _ => idle
  | receive count isAck rest first => exact invariant.receive first
  | lose up fewer =>
    exact { invariant with
      up_ge := fun message member => invariant.up_ge message (fewer.subset member)
      up_le := fun message member => invariant.up_le message (fewer.subset member)
      up_ack := fun message member => invariant.up_ack message (fewer.subset member)
      up_order := invariant.up_order.sublist fewer }

end Step

end CentauriCarbon.ReceiveWindow
