import CentauriCarbon.Motion.SeamFinality

/-! # `flush` carries out a sweep

The loop of `flush` follows the sweep over the same moves: its running speeds are those of
the sweep, and the `set_junction` calls it has made are the planned junctions of the moves
in front of `flush_count`, once each.
-/

namespace CentauriCarbon.Motion

open List

def numbered (i : ℕ) (plan : List Junction) : List (ℕ × Junction) := (plan.zipIdx i).map Prod.swap

@[simp] theorem numbered_nil (i : ℕ) : numbered i [] = [] := rfl

theorem numbered_cons (i : ℕ) (junction : Junction) (plan : List Junction) :
    numbered i (junction :: plan) = (i, junction) :: numbered (i + 1) plan := rfl

theorem numbered_append (i : ℕ) (before after : List Junction) :
    numbered i (before ++ after) = numbered i before ++ numbered (i + before.length) after := by
  rw [numbered, zipIdx_append, map_append]
  rfl

def placed (i : ℕ) (spans : List Span) : List Delayed :=
  (spans.zipIdx i).map fun entry => ⟨entry.2, entry.1.startV2, entry.1.endV2⟩

theorem length_spread (mcV2 : ℚ) (spans : List Span) :
    (Sweep.spread mcV2 spans).length = spans.length := by
  induction spans generalizing mcV2 with
  | nil => rfl
  | cons span spans induction => simp [Sweep.spread, induction]

theorem propagate_placed (mcV2 : ℚ) (i : ℕ) (spans : List Span) :
    propagate mcV2 (placed i spans) = numbered i (Sweep.spread mcV2 spans) := by
  induction spans generalizing mcV2 i with
  | nil => rfl
  | cons span spans induction =>
    rw [Sweep.spread, numbered_cons, ← induction]
    rfl

def Committed (i : ℕ) (pass : Pass) (sweep : Sweep) : Prop :=
  if pass.updateFlushCount then
    pass.calls = []
  else
    i + sweep.delayed.length ≤ pass.flushCount ∧
      pass.calls.Perm (numbered (i + sweep.delayed.length)
        (sweep.plan.take (pass.flushCount - (i + sweep.delayed.length))))

structure Follows (i : ℕ) (pass : Pass) (sweep : Sweep) : Prop where
  speeds : pass.toSpeeds = sweep.toSpeeds
  delayed : pass.delayed.reverse = placed i sweep.delayed
  committed : Committed i pass sweep

theorem Follows.start (lazy : Bool) (size : ℕ) :
    Follows size (Pass.start lazy size) Sweep.start where
  speeds := rfl
  delayed := rfl
  committed := by
    cases lazy
    · simp [Committed, Pass.start, Sweep.start]
    · rfl

/-! ## One round -/

namespace Pass

variable (pass : Pass) (i : ℕ) (calls : List (ℕ × Junction)) (peakV2 : ℚ)

@[simp] theorem commit_toSpeeds : (pass.commit i calls).toSpeeds = pass.toSpeeds := by
  rw [commit]
  split <;> rfl

@[simp] theorem commit_delayed : (pass.commit i calls).delayed = pass.delayed := by
  rw [commit]
  split <;> rfl

@[simp] theorem newPeak_toSpeeds :
    (pass.newPeak i peakV2).toSpeeds = { pass.toSpeeds with peakCruiseV2 := peakV2 } := by
  simp only [newPeak, commit_toSpeeds]

@[simp] theorem newPeak_delayed : (pass.newPeak i peakV2).delayed = [] := rfl

variable {pass i}

theorem commit_of_lt (counted : pass.updateFlushCount = false) (before : i < pass.flushCount) :
    pass.commit i calls = { pass with calls := pass.calls ++ calls } := by
  rw [commit, counted]
  exact if_pos (by simpa using before)

theorem commit_of_le (after : pass.flushCount ≤ i) : pass.commit i calls = pass :=
  if_neg (by simp [after])

theorem newPeak_of_counted (counted : pass.updateFlushCount = false)
    (before : i < pass.flushCount) : pass.newPeak i peakV2 =
      { pass with
        peakCruiseV2 := peakV2
        delayed := []
        calls := pass.calls ++ propagate peakV2 pass.delayed.reverse } := by
  simp [newPeak, commit, counted, before]

variable (looking : pass.updateFlushCount)
include looking

theorem commit_of_update : pass.commit i calls = pass := by
  rw [commit, looking]
  rfl

theorem newPeak_of_first (first : pass.peakCruiseV2 = 0) :
    pass.newPeak i peakV2 = { pass with peakCruiseV2 := peakV2, delayed := [] } := by
  simp [newPeak, commit, looking, first]

theorem newPeak_of_second (second : pass.peakCruiseV2 ≠ 0) : pass.newPeak i peakV2 =
      { pass with
        updateFlushCount := false
        flushCount := i
        peakCruiseV2 := peakV2
        delayed := [] } := by
  simp [newPeak, commit, looking, second]

end Pass

section

variable {i : ℕ} {pass : Pass} {sweep : Sweep}

theorem Follows.delayed_eq_nil_iff (follows : Follows i pass sweep) :
    pass.delayed = [] ↔ sweep.delayed = [] := by
  rw [← reverse_eq_nil_iff, follows.delayed, placed, map_eq_nil_iff, zipIdx_eq_nil_iff]

section

variable (follows : Follows (i + 1) pass sweep)
include follows

theorem Follows.peaks_iff :
    (pass.smoothedV2 move + move.smoothDeltaV2 > pass.nextSmoothedV2 ∨ pass.delayed ≠ []) ↔
      sweep.Peaks move := by
  rw [follows.speeds, ne_eq, follows.delayed_eq_nil_iff]

theorem Follows.settle_of_peaks (peaks : sweep.Peaks move) : pass.settle i move =
      (pass.newPeak i (sweep.peakV2 move)).commit i
        [(i, sweep.junction move (sweep.peakV2 move))] := by
  have new : sweep.peakV2 move = sweep.newPeakV2 move := if_pos peaks
  rw [Pass.settle, if_pos (follows.peaks_iff.mpr peaks), Pass.newPeak_toSpeeds, follows.speeds, new]

theorem Follows.settle_of_keeps (keeps : ¬sweep.Peaks move) :
    pass.settle i move = pass.commit i [(i, sweep.junction move (sweep.peakV2 move))] := by
  have old : sweep.peakV2 move = sweep.peakCruiseV2 := if_neg keeps
  rw [Pass.settle, if_neg (mt follows.peaks_iff.mp keeps), follows.speeds, old]

theorem Follows.settle_toSpeeds : (pass.settle i move).toSpeeds =
      { sweep.toSpeeds with peakCruiseV2 := sweep.peakV2 move } := by
  by_cases peaks : sweep.Peaks move
  · rw [follows.settle_of_peaks peaks, Pass.commit_toSpeeds, Pass.newPeak_toSpeeds, follows.speeds]
  · have old : sweep.peakV2 move = sweep.peakCruiseV2 := if_neg peaks
    rw [follows.settle_of_keeps peaks, Pass.commit_toSpeeds, follows.speeds, old]

theorem Follows.settle_delayed : (pass.settle i move).delayed = [] := by
  by_cases peaks : sweep.Peaks move
  · rw [follows.settle_of_peaks peaks, Pass.commit_delayed, Pass.newPeak_delayed]
  · have empty : sweep.delayed = [] := not_not.mp (not_or.mp peaks).2
    rw [follows.settle_of_keeps peaks, Pass.commit_delayed]
    exact follows.delayed_eq_nil_iff.mpr empty

/-- A flush that knows its end makes the calls on the delayed stretch and on the move. -/
theorem Follows.settle_of_counted (move : Move) (counted : pass.updateFlushCount = false)
    (before : i < pass.flushCount) : (pass.settle i move).updateFlushCount = false ∧
      (pass.settle i move).flushCount = pass.flushCount ∧
      (pass.settle i move).calls = pass.calls ++
        (numbered (i + 1) (Sweep.spread (sweep.peakV2 move) sweep.delayed) ++
          [(i, sweep.junction move (sweep.peakV2 move))]) := by
  by_cases peaks : sweep.Peaks move
  · rw [follows.settle_of_peaks peaks, Pass.newPeak_of_counted _ counted before,
      Pass.commit_of_lt, follows.delayed, propagate_placed]
    · exact ⟨counted, rfl, append_assoc _ _ _⟩
    · exact counted
    · exact before
  · have empty : sweep.delayed = [] := not_not.mp (not_or.mp peaks).2
    rw [follows.settle_of_keeps peaks, Pass.commit_of_lt _ counted before, empty]
    exact ⟨counted, rfl, rfl⟩

/-- A flush that is looking for its end makes no calls and ends in front of a move that
cuts. -/
theorem Follows.settle_of_looking (settles : sweep.Settles move)
    (looking : pass.updateFlushCount) : (pass.settle i move).calls = pass.calls ∧
      ((pass.settle i move).updateFlushCount ∨
        (pass.settle i move).updateFlushCount = false ∧
          (pass.settle i move).flushCount = i ∧ sweep.Cuts move) := by
  by_cases peaks : sweep.Peaks move
  · rw [follows.settle_of_peaks peaks]
    by_cases first : pass.peakCruiseV2 = 0
    · rw [Pass.newPeak_of_first _ looking first, Pass.commit_of_update]
      · exact ⟨rfl, Or.inl looking⟩
      · exact looking
    rw [Pass.newPeak_of_second _ looking first, Pass.commit_of_le]
    · rw [follows.speeds] at first
      exact ⟨rfl, Or.inr ⟨rfl, rfl, settles, peaks, first⟩⟩
    · exact le_refl i
  · rw [follows.settle_of_keeps peaks, Pass.commit_of_update _ looking]
    exact ⟨rfl, Or.inl looking⟩

end

theorem committed_perm {calls : List (ℕ × Junction)} {count : ℕ}
    (before : i + 1 + sweep.delayed.length ≤ count)
    (committed : calls.Perm (numbered (i + 1 + sweep.delayed.length)
      (sweep.plan.take (count - (i + 1 + sweep.delayed.length)))))
    (peakV2 : ℚ) (junction : Junction) :
    (calls ++ (numbered (i + 1) (Sweep.spread peakV2 sweep.delayed) ++
        [(i, junction)])).Perm
      (numbered i ((junction :: (Sweep.spread peakV2 sweep.delayed ++ sweep.plan)).take
        (count - i))) := by
  have split : count - i = (Sweep.spread peakV2 sweep.delayed).length +
      (count - (i + 1 + sweep.delayed.length)) + 1 := by
    rw [length_spread]
    omega
  rw [split, take_succ_cons, take_length_add_append, numbered_cons, numbered_append, length_spread]
  have moved : (calls ++ (numbered (i + 1) (Sweep.spread peakV2 sweep.delayed) ++
      [(i, junction)])).Perm
        ((i, junction) :: (numbered (i + 1) (Sweep.spread peakV2 sweep.delayed) ++ calls)) := by
    apply perm_append_comm.trans
    rw [append_assoc, singleton_append]
    exact perm_middle
  exact moved.trans ((committed.append_left _).cons _)

variable (follows : Follows (i + 1) pass sweep)
include follows

theorem Follows.step_of_settles (settles : sweep.Settles move) :
    Follows i (pass.step i move) (sweep.step move) := by
  have passSettles : pass.Settles move := by
    rw [follows.speeds]
    exact settles
  rw [Sweep.step, if_pos settles, Pass.step, if_pos passSettles, follows.speeds]
  constructor
  · dsimp only
    rw [follows.settle_toSpeeds]
  · dsimp only
    rw [follows.settle_delayed]
    rfl
  have committed := follows.committed
  rw [Committed] at committed ⊢
  rw [length_nil, add_zero]
  cases looking : pass.updateFlushCount with
  | true =>
    rw [if_pos looking] at committed
    rcases follows.settle_of_looking settles looking with ⟨calls, still | found⟩
    · rw [if_pos still, calls, committed]
    · rw [if_neg (by rw [found.1]; exact Bool.false_ne_true), found.2.1, calls, committed,
        Nat.sub_self]
      exact ⟨le_refl i, Perm.refl []⟩
  | false =>
    rw [if_neg (by rw [looking]; exact Bool.false_ne_true)] at committed
    have before : i < pass.flushCount := by omega
    rcases follows.settle_of_counted move looking before with ⟨counted, count, calls⟩
    rw [if_neg (by rw [counted]; exact Bool.false_ne_true), count, calls]
    exact ⟨before.le, committed_perm committed.1 committed.2 _ _⟩

theorem Follows.step_of_counted (move : Move) (counted : pass.updateFlushCount = false)
    (before : i < pass.flushCount) : (pass.step i move).updateFlushCount = false ∧
      (pass.step i move).flushCount = pass.flushCount := by
  rw [Pass.step]
  split
  · have settled := follows.settle_of_counted move counted before
    exact ⟨settled.1, settled.2.1⟩
  · exact ⟨counted, rfl⟩

theorem Follows.step_of_looking (move : Move) (looking : pass.updateFlushCount) :
    (pass.step i move).updateFlushCount ∨
      (pass.step i move).updateFlushCount = false ∧
        (pass.step i move).flushCount = i ∧ sweep.Cuts move := by
  rw [Pass.step]
  split
  next settles =>
    rw [follows.speeds] at settles
    exact (follows.settle_of_looking settles looking).2
  · exact Or.inl looking

theorem Follows.step (move : Move) : Follows i (pass.step i move) (sweep.step move) := by
  by_cases settles : sweep.Settles move
  · exact follows.step_of_settles settles
  have passDelays : ¬pass.Settles move := by
    rw [follows.speeds]
    exact settles
  rw [Sweep.step, if_neg settles, Pass.step, if_neg passDelays, ← follows.speeds]
  constructor
  · rfl
  · simp only [Pass.delay, reverse_append, follows.delayed]
    rfl
  have committed := follows.committed
  simp only [Committed, Pass.delay, length_cons] at committed ⊢
  rw [Nat.add_right_comm] at committed
  exact committed

end

theorem ofMoves_cons (lazy : Bool) (i : ℕ) (move : Move) (moves : List Move) :
    Pass.ofMoves lazy (i + (move :: moves).length) i (move :: moves) =
      (Pass.ofMoves lazy (i + 1 + moves.length) (i + 1) moves).step i move := by
  rw [length_cons, add_comm moves.length, ← add_assoc]
  rfl

theorem ofMoves_follows (lazy : Bool) (i : ℕ) (moves : List Move) :
    Follows i (Pass.ofMoves lazy (i + moves.length) i moves) (Sweep.ofMoves moves) := by
  induction moves generalizing i with
  | nil => exact Follows.start lazy i
  | cons move moves induction =>
    rw [ofMoves_cons]
    exact (induction (i + 1)).step move

theorem ofMoves_eager (i : ℕ) (moves : List Move) :
    (Pass.ofMoves false (i + moves.length) i moves).updateFlushCount = false ∧
      (Pass.ofMoves false (i + moves.length) i moves).flushCount = i + moves.length := by
  induction moves generalizing i with
  | nil => exact ⟨rfl, rfl⟩
  | cons move moves induction =>
    rcases induction (i + 1) with ⟨counted, count⟩
    have before : i < (Pass.ofMoves false (i + 1 + moves.length) (i + 1) moves).flushCount := by
      omega
    rcases (ofMoves_follows false (i + 1) moves).step_of_counted move counted before with
      ⟨stepped, same⟩
    rw [ofMoves_cons, stepped, same, count, length_cons]
    exact ⟨rfl, by omega⟩

theorem ofMoves_lazy (i : ℕ) (moves : List Move) :
    (Pass.ofMoves true (i + moves.length) i moves).updateFlushCount ∨
      (Pass.ofMoves true (i + moves.length) i moves).updateFlushCount = false ∧
        ∃ before move after, moves = before ++ move :: after ∧
          (Pass.ofMoves true (i + moves.length) i moves).flushCount = i + before.length ∧
          (Sweep.ofMoves after).Cuts move := by
  induction moves generalizing i with
  | nil => exact Or.inl rfl
  | cons move moves induction =>
    have follows := ofMoves_follows true (i + 1) moves
    rw [ofMoves_cons]
    rcases induction (i + 1) with looking | ⟨counted, before, cut, after, split, count, cuts⟩
    · rcases follows.step_of_looking move looking with still | ⟨found, count, cuts⟩
      · exact Or.inl still
      · exact Or.inr ⟨found, [], move, moves, rfl, count, cuts⟩
    rcases follows.step_of_counted move counted (by omega) with ⟨stepped, same⟩
    refine Or.inr ⟨stepped, move :: before, cut, after, ?_, ?_, cuts⟩
    · rw [split, cons_append]
    · rw [same, count, length_cons]
      omega

theorem callsOn_cons (place other : ℕ) (junction : Junction) (calls : List (ℕ × Junction)) :
    callsOn ((other, junction) :: calls) place =
      if other = place then junction :: callsOn calls place else callsOn calls place := by
  by_cases same : other = place
  · simp [same, callsOn]
  · simp [same, callsOn]

theorem callsOn_numbered_of_lt (before : place < i) (plan : List Junction) :
    callsOn (numbered i plan) place = [] := by
  induction plan generalizing i with
  | nil => rfl
  | cons junction plan induction =>
    rw [numbered_cons, callsOn_cons, if_neg before.ne']
    exact induction (Nat.lt_succ_of_lt before)

theorem callsOn_numbered (i place : ℕ) (plan : List Junction) :
    callsOn (numbered i plan) (i + place) = plan[place]?.toList := by
  induction plan generalizing i place with
  | nil => rfl
  | cons junction plan induction =>
    rw [numbered_cons, callsOn_cons]
    cases place with
    | zero =>
      rw [add_zero, if_pos rfl, callsOn_numbered_of_lt (Nat.lt_succ_self i)]
      rfl
    | succ place =>
      rw [if_neg (by omega), add_comm place, ← add_assoc, induction,
        add_comm 1, getElem?_cons_succ]

/-- The order in which the calls were made does not matter: there is at most one on each
move. -/
theorem callsOn_of_perm (perm : calls.Perm (numbered 0 plan)) (place : ℕ) :
    callsOn calls place = plan[place]?.toList := by
  have same : (callsOn calls place).Perm (plan[place]?.toList) := by
    have onPlan := callsOn_numbered 0 place plan
    rw [zero_add] at onPlan
    rw [← onPlan]
    exact (perm.filter _).map _
  cases found : plan[place]? with
  | none =>
    rw [found] at same
    exact same.eq_nil
  | some junction =>
    rw [found] at same
    exact same.eq_singleton

theorem setJunctions_eq {calls : List (ℕ × Junction)} {before after : List Move}
    (perm : calls.Perm (numbered 0 plan)) (length_eq : plan.length = before.length) :
    setJunctions calls (before ++ after) = zipWith Move.setJunction before plan ++ after := by
  have onMove : ∀ (i : ℕ) (move : Move),
      (callsOn calls i).foldl Move.setJunction move =
        plan[i]?.toList.foldl Move.setJunction move := by
    intro i move
    rw [callsOn_of_perm perm]
  simp only [setJunctions, onMove]
  clear onMove perm
  induction before generalizing plan with
  | nil =>
    rw [length_eq_zero_iff.mp length_eq]
    apply ext_getElem?
    simp
  | cons move before induction =>
    cases plan with
    | nil => simp at length_eq
    | cons junction plan =>
      simp only [length_cons, Nat.succ_inj] at length_eq
      rw [cons_append, mapIdx_cons]
      simp only [getElem?_cons_succ]
      rw [induction length_eq]
      rfl

theorem setJunctions_nil (queue : List Move) : setJunctions [] queue = queue := by
  have set : setJunctions [] ([] ++ queue) = zipWith Move.setJunction [] [] ++ queue :=
    setJunctions_eq (Perm.refl (numbered 0 [])) rfl
  exact set

/-! ## The two kinds of flush -/

variable {lookahead : LookAheadQueue}

/-- A flush that ends in front of `after` sets the planned junctions of the moves in front
and hands these moves over. -/
theorem flush_of_counted {lazy : Bool} {before after : List Move}
    (split : lookahead.queue = before ++ after)
    (settled : (Sweep.ofMoves lookahead.queue).delayed = [])
    (length_eq : (Sweep.ofMoves lookahead.queue).plan.length = lookahead.queue.length)
    (counted : (Pass.ofMoves lazy lookahead.queue.length 0 lookahead.queue).updateFlushCount =
      false)
    (count : (Pass.ofMoves lazy lookahead.queue.length 0 lookahead.queue).flushCount =
      before.length) :
    lookahead.flush lazy =
      (⟨after, lookaheadFlushTime⟩, zipWith Move.setJunction before
        ((Sweep.ofMoves lookahead.queue).plan.take before.length)) := by
  have follows := ofMoves_follows lazy 0 lookahead.queue
  rw [zero_add] at follows
  have committed := follows.committed
  rw [Committed, counted, count, settled] at committed
  simp only [Bool.false_eq_true, if_false, length_nil, add_zero, Nat.sub_zero,
    Nat.zero_le, true_and] at committed
  have taken : ((Sweep.ofMoves lookahead.queue).plan.take before.length).length =
      before.length := by
    rw [length_take, length_eq, split, length_append]
    omega
  have set : setJunctions (Pass.ofMoves lazy lookahead.queue.length 0 lookahead.queue).calls
      lookahead.queue = zipWith Move.setJunction before
        ((Sweep.ofMoves lookahead.queue).plan.take before.length) ++ after := by
    rw [congrArg (setJunctions _) split]
    exact setJunctions_eq committed taken
  rw [LookAheadQueue.flush, set]
  simp only [counted, count, Bool.false_eq_true, false_or]
  have shorter : before.length = (zipWith Move.setJunction before
      ((Sweep.ofMoves lookahead.queue).plan.take before.length)).length := by
    rw [length_zipWith, taken, min_self]
  split
  next none =>
    rw [length_eq_zero_iff.mp none]
    rfl
  · rw [drop_left' shorter.symm, take_left' shorter.symm]

section

variable (settled : (Sweep.ofMoves lookahead.queue).delayed = [])
  (length_eq : (Sweep.ofMoves lookahead.queue).plan.length = lookahead.queue.length)
include settled length_eq

/-- `flush(false)` sets the planned junctions and hands over the whole queue. -/
theorem flush_eager : lookahead.flush false =
      (⟨[], lookaheadFlushTime⟩, zipWith Move.setJunction lookahead.queue
        (Sweep.ofMoves lookahead.queue).plan) := by
  have eager := ofMoves_eager 0 lookahead.queue
  rw [zero_add] at eager
  have flushed := flush_of_counted (append_nil lookahead.queue).symm settled length_eq
    eager.1 eager.2
  rw [flushed, ← length_eq, take_length]

/-- `flush(true)` hands over nothing, or what is in front of a move that cuts. -/
theorem flush_lazy : lookahead.flush true = (⟨lookahead.queue, lookaheadFlushTime⟩, []) ∨
      ∃ before move after, lookahead.queue = before ++ move :: after ∧
        (Sweep.ofMoves after).Cuts move ∧
        lookahead.flush true =
          (⟨move :: after, lookaheadFlushTime⟩, zipWith Move.setJunction before
            ((Sweep.ofMoves lookahead.queue).plan.take before.length)) := by
  have follows := ofMoves_follows true 0 lookahead.queue
  have ended := ofMoves_lazy 0 lookahead.queue
  rw [zero_add] at follows ended
  rcases ended with looking | ⟨counted, before, move, after, split, count, cuts⟩
  · left
    have committed := follows.committed
    rw [Committed, if_pos looking] at committed
    rw [LookAheadQueue.flush, committed, setJunctions_nil]
    simp only [looking, true_or, if_true]
  · right
    rw [zero_add] at count
    exact ⟨before, move, after, split, cuts, flush_of_counted split settled length_eq counted count⟩

end

end CentauriCarbon.Motion
