import Mathlib.Data.Nat.ModEq

/-! # Go-back-N retransmission

An abstract sender, receiver and two lossy first-in first-out channels. Blocks are
named by their position in the sender's history, so that nothing here depends on how
many bits of a sequence number are transmitted; `Invariant.eq_accepted` says when a
residue is enough to tell the block the receiver waits for.
-/

namespace CentauriCarbon.GoBackN

open List

/-- How many blocks the sender has built and seen acknowledged, how many the receiver
has accepted, and the block numbers and acknowledgements under way. -/
structure State where
  sent : Nat
  acked : Nat
  accepted : Nat
  down : List Nat
  up : List Nat

def State.start : State := ⟨0, 0, 0, [], []⟩

inductive Step (window : Nat) : State → State → Prop
  | build (state : State) (room : state.sent < state.acked + window) :
      Step window state
        { state with sent := state.sent + 1, down := state.down ++ [state.sent] }
  | retransmit (state : State) :
      Step window state
        { state with down := state.down ++ range' state.acked (state.sent - state.acked) }
  | lose (state : State) (down up : List Nat)
      (fewerDown : down.Sublist state.down) (fewerUp : up.Sublist state.up) :
      Step window state { state with down, up }
  | accept (state : State) (rest : List Nat)
      (expected : state.down = state.accepted :: rest) :
      Step window state { state with accepted := state.accepted + 1, down := rest }
  | signal (state : State) :
      Step window state { state with up := state.up ++ [state.accepted] }
  | acknowledge (state : State) (count : Nat) (rest : List Nat)
      (received : state.up = count :: rest) :
      Step window state { state with acked := count, up := rest }

def Steps (window : Nat) : State → State → Prop := Relation.ReflTransGen (Step window)

structure Invariant (window : Nat) (state : State) : Prop where
  acked_le : state.acked ≤ state.accepted
  accepted_le : state.accepted ≤ state.sent
  sent_le : state.sent ≤ state.acked + window
  down_lt : ∀ block ∈ state.down, block < state.sent
  down_recent : ∀ block ∈ state.down, state.accepted ≤ block + window
  down_order : state.down.Pairwise fun earlier later => earlier < later + window
  up_ge : ∀ count ∈ state.up, state.acked ≤ count
  up_le : ∀ count ∈ state.up, count ≤ state.accepted
  up_order : state.up.Pairwise (· ≤ ·)

theorem invariant_start (window : Nat) : Invariant window .start := by
  constructor <;> simp [State.start]

namespace Step

variable {window : Nat} {state next : State}

private theorem retransmit_invariant (invariant : Invariant window state) : Invariant window
      { state with down := state.down ++ range' state.acked (state.sent - state.acked) } where
  __ := invariant
  down_lt := by
    intro block member
    rcases mem_append.mp member with old | new
    · exact invariant.down_lt block old
    · have bounds := mem_range'_1.mp new
      show block < state.sent
      omega
  down_recent := by
    intro block member
    rcases mem_append.mp member with old | new
    · exact invariant.down_recent block old
    have bounds := mem_range'_1.mp new
    have behind := invariant.accepted_le
    have ahead := invariant.sent_le
    show state.accepted ≤ block + window
    omega
  down_order := by
    apply pairwise_append.mpr
    refine ⟨invariant.down_order, ?_, ?_⟩
    · apply (pairwise_lt_range' (s := state.acked)).imp
      intro earlier later before
      exact Nat.lt_add_right window before
    intro earlier old later new
    have bounds := mem_range'_1.mp new
    have sent := invariant.down_lt earlier old
    have ahead := invariant.sent_le
    omega

theorem invariant (step : Step window state next) (holds : Invariant window state) :
    Invariant window next := by
  cases step with
  | build room =>
    exact { holds with
      accepted_le := Nat.le_succ_of_le holds.accepted_le
      sent_le := room
      down_lt := forall_mem_append.mpr
        ⟨fun block old => Nat.lt_succ_of_lt (holds.down_lt block old),
          forall_mem_singleton.mpr (Nat.lt_succ_self _)⟩
      down_recent := forall_mem_append.mpr
        ⟨holds.down_recent, forall_mem_singleton.mpr (Nat.le_add_right_of_le holds.accepted_le)⟩
      down_order := by
        apply pairwise_append.mpr
        refine ⟨holds.down_order, pairwise_singleton _ _, ?_⟩
        intro earlier old later new
        cases mem_singleton.mp new
        exact Nat.lt_add_right window (holds.down_lt earlier old) }
  | retransmit => exact retransmit_invariant holds
  | lose down up fewerDown fewerUp =>
    exact { holds with
      down_lt := fun block member => holds.down_lt block (fewerDown.subset member)
      down_recent := fun block member => holds.down_recent block (fewerDown.subset member)
      down_order := holds.down_order.sublist fewerDown
      up_ge := fun count member => holds.up_ge count (fewerUp.subset member)
      up_le := fun count member => holds.up_le count (fewerUp.subset member)
      up_order := holds.up_order.sublist fewerUp }
  | accept rest expected =>
    have order := holds.down_order
    rw [expected] at order
    exact { holds with
      acked_le := Nat.le_succ_of_le holds.acked_le
      accepted_le := holds.down_lt state.accepted (by simp [expected])
      down_lt := fun block member => holds.down_lt block (by simp [expected, member])
      -- The accepted block was sent before all that follow, so none of them is
      -- further back than a window.
      down_recent := fun block member => rel_of_pairwise_cons order member
      down_order := order.of_cons
      up_le := fun count member => Nat.le_succ_of_le (holds.up_le count member) }
  | signal =>
    exact { holds with
      up_ge := forall_mem_append.mpr ⟨holds.up_ge, forall_mem_singleton.mpr holds.acked_le⟩
      up_le := forall_mem_append.mpr ⟨holds.up_le, forall_mem_singleton.mpr le_rfl⟩
      up_order := by
        apply pairwise_append.mpr
        refine ⟨holds.up_order, pairwise_singleton _ _, ?_⟩
        intro earlier old later new
        cases mem_singleton.mp new
        exact holds.up_le earlier old }
  | acknowledge count rest received =>
    have member : count ∈ state.up := by simp [received]
    have order := holds.up_order
    rw [received] at order
    exact { holds with
      acked_le := holds.up_le count member
      sent_le := Nat.le_trans holds.sent_le
        (Nat.add_le_add_right (holds.up_ge count member) window)
      up_ge := fun later among => rel_of_pairwise_cons order among
      up_le := fun later among => holds.up_le later (by simp [received, among])
      up_order := order.of_cons }

end Step

theorem Steps.invariant {next : State} (steps : Steps window state next)
    (holds : Invariant window state) : Invariant window next := by
  induction steps with
  | refl => exact holds
  | tail _ step induction => exact step.invariant induction

theorem Steps.signals (window : Nat) (state : State) (count : Nat) : Steps window state
      { state with up := state.up ++ replicate count state.accepted } := by
  induction count with
  | zero =>
    rw [replicate_zero, append_nil]
    exact .refl
  | succ count induction =>
    rw [replicate_succ', ← append_assoc]
    exact induction.tail (.signal _)

/-- With a window below the modulus, the residue of a block under way tells whether
it is the block the receiver expects. -/
theorem Invariant.eq_accepted (invariant : Invariant window state) (small : window < modulus)
    (underWay : block ∈ state.down) (sameResidue : block % modulus = state.accepted % modulus) :
    block = state.accepted := by
  have behind := invariant.down_recent block underWay
  have ahead := invariant.down_lt block underWay
  have window_sent := invariant.sent_le
  have window_acked := invariant.acked_le
  rcases Nat.le_total block state.accepted with below | above
  · have multiple : modulus ∣ state.accepted - block := (Nat.modEq_iff_dvd' below).mp sameResidue
    have zero := Nat.eq_zero_of_dvd_of_lt multiple (by omega)
    omega
  have multiple : modulus ∣ block - state.accepted := (Nat.modEq_iff_dvd' above).mp sameResidue.symm
  have zero := Nat.eq_zero_of_dvd_of_lt multiple (by omega)
  omega

/-- What is under way ends with all blocks since one that is accepted or expected. -/
def Covered (state : State) : Prop :=
  ∃ earlier, ∃ first ≤ state.accepted, state.down = earlier ++ range' first (state.sent - first)

theorem Covered.tail (covered : Covered state) (numbers : state.down = index :: later.down)
    (sent : later.sent = state.sent) (grows : state.accepted ≤ later.accepted)
    (expected : index = state.accepted → index < later.accepted) : Covered later := by
  rcases covered with ⟨_ | ⟨other, earlier⟩, first, below, down⟩
  · rw [numbers, nil_append, eq_comm, range'_eq_cons_iff] at down
    rcases down with ⟨rfl, -, others⟩
    refine ⟨[], first + 1, ?_, sent ▸ others⟩
    rcases Nat.eq_or_lt_of_le below with same | before
    · exact expected same
    · exact Nat.le_trans before grows
  · rw [numbers, cons_append, cons.injEq] at down
    exact ⟨earlier, first, Nat.le_trans below grows, sent ▸ down.2⟩

theorem Covered.accepted_eq (covered : Covered state) (invariant : Invariant window state)
    (nothing : state.down = []) : state.accepted = state.sent := by
  rcases covered with ⟨earlier, first, below, down⟩
  rw [nothing, eq_comm, append_eq_nil_iff, range'_eq_nil_iff] at down
  have accepted_le := invariant.accepted_le
  omega

end CentauriCarbon.GoBackN
