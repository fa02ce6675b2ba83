import CentauriCarbon.Reactor.Timers
import Mathlib.Algebra.Order.Ring.Int
import Mathlib.Data.List.Infix

/-! # What `check_timers` promises, and when it keeps it

When a callback unregisters a timer at its own place or before it, the timers behind move up
and the next ones are passed over. What `check_timers` promises holds as long as the callbacks
leave the timers that are registered when it starts in their places.
-/

namespace CentauriCarbon.Reactor

open Function List

namespace SelectReactor

/-- Each timer that the next wake-up does not account for has been left alone. -/
structure Changed (before after : SelectReactor) : Prop where
  lt_created : ∀ timer ∈ after.timers, timer < after.created
  next_le : after.nextTimer ≤ before.nextTimer
  waketime : ∀ timer ∈ after.timers, after.nextTimer ≤ after.waketime timer ∨
    timer ∈ before.timers ∧ after.waketime timer = before.waketime timer

variable {before middle after : SelectReactor}

theorem Changed.trans (first : before.Changed middle) (second : middle.Changed after) :
    before.Changed after where
  lt_created := second.lt_created
  next_le := second.next_le.trans first.next_le
  waketime := by
    intro timer member
    rcases second.waketime timer member with counted | ⟨old, same⟩
    · exact .inl counted
    rw [same]
    exact (first.waketime timer old).imp_left second.next_le.trans

end SelectReactor

namespace ReactorAction

def isRegister : ReactorAction → Bool
  | .register _ => true
  | _ => false

end ReactorAction

def Response.registers (response : Response) : ℕ := response.actions.countP (·.isRegister)

namespace SelectReactor

variable {before after : SelectReactor} (capacity : ℕ)
  (lt_created : ∀ timer ∈ before.timers, timer < before.created)
include lt_created

theorem act_spec (action : ReactorAction)
    (room : before.timers.length + [action].countP (·.isRegister) ≤ capacity) :
    ∃ after, before.act capacity action = some after ∧ before.Changed after ∧
      after.timers.length ≤ before.timers.length + [action].countP (·.isRegister) ∧
      ∀ known, known <+: before.timers → (∀ timer ∈ known, action ≠ .unregister timer) →
        known <+: after.timers := by
  cases action with
  | update timer waketime =>
    refine ⟨_, rfl, ⟨lt_created, min_le_left _ _, ?_⟩, Nat.le_add_right _ _, fun _ kept _ => kept⟩
    intro other member
    by_cases same : other = timer
    · left
      rw [same]
      dsimp only [updateTimer]
      rw [update_self]
      exact min_le_right _ _
    · exact .inr ⟨member, update_of_ne same _ _⟩
  | register waketime =>
    have fits : before.timers.length < capacity := room
    refine ⟨_, if_pos fits, ⟨?_, min_le_left _ _, ?_⟩, ?_, fun _ kept _ =>
      kept.trans (prefix_append _ _)⟩
    · intro timer member
      rcases mem_append.mp member with old | new
      · exact Nat.lt_succ_of_lt (lt_created timer old)
      · rw [mem_singleton.mp new]
        exact Nat.lt_succ_self _
    · intro timer member
      rcases mem_append.mp member with old | new
      · exact .inr ⟨old, update_of_ne (lt_created timer old).ne _ _⟩
      · left
        rw [mem_singleton.mp new]
        dsimp only [registerTimer]
        rw [update_self]
        exact min_le_right _ _
    · exact (length_append).le
  | unregister timer =>
    refine ⟨_, rfl, ⟨?_, le_rfl, ?_⟩, length_filter_le _ _, ?_⟩
    · exact fun other member => lt_created other (mem_of_mem_filter member)
    · intro other member
      rw [unregisterTimer, mem_filter, decide_eq_true_iff] at member
      exact .inr ⟨member.1, update_of_ne member.2 _ _⟩
    · intro known kept others
      have stays : known.filter (· ≠ timer) = known := by
        rw [filter_eq_self]
        intro other member
        exact decide_eq_true fun same => others other member (by rw [same])
      rw [← stays]
      exact kept.filter _

theorem acts_spec (actions : List ReactorAction)
    (room : before.timers.length + actions.countP (·.isRegister) ≤ capacity) :
    ∃ after, actions.foldlM (act capacity) before = some after ∧ before.Changed after ∧
      after.timers.length ≤ before.timers.length + actions.countP (·.isRegister) ∧
      ∀ known, known <+: before.timers → (∀ timer ∈ known, .unregister timer ∉ actions) →
        known <+: after.timers := by
  induction actions generalizing before with
  | nil =>
    exact ⟨before, rfl, ⟨lt_created, le_rfl, fun _ member => .inr ⟨member, rfl⟩⟩, le_rfl,
      fun _ kept _ => kept⟩
  | cons action actions induction =>
    rw [← singleton_append, countP_append] at room
    rcases act_spec capacity lt_created action (by omega) with
      ⟨middle, first, changed, length, kept⟩
    rcases induction changed.lt_created (by omega) with ⟨after, rest, later, grown, keptLater⟩
    refine ⟨after, ?_, changed.trans later, ?_, ?_⟩
    · rw [foldlM_cons, first]
      exact rest
    · rw [← singleton_append, countP_append]
      omega
    · intro known isPrefix others
      simp only [mem_cons, not_or] at others
      exact keptLater known (kept known isPrefix fun timer member same =>
        (others timer member).1 same.symm) fun timer member => (others timer member).2

theorem invoke_spec (timer : ℕ) (response : Response)
    (room : before.timers.length + response.registers ≤ capacity) :
    ∃ after, before.invoke capacity timer response = some after ∧ before.Changed after ∧
      after.nextTimer ≤ after.waketime timer ∧
      after.timers.length ≤ before.timers.length + response.registers ∧
      ∀ known, known <+: before.timers → (∀ other ∈ known, .unregister other ∉ response.actions) →
        known <+: after.timers := by
  have started : ∀ other ∈ ({ before with
      waketime := update before.waketime timer never } : SelectReactor).timers,
      other < before.created := lt_created
  rcases acts_spec capacity started response.actions room with
    ⟨acted, actions, changed, length, kept⟩
  rw [invoke, actions, Option.map_some]
  refine ⟨_, rfl, ⟨changed.lt_created, (min_le_left _ _).trans changed.next_le, ?_⟩, ?_, length,
    kept⟩
  · intro other member
    by_cases same : other = timer
    · left
      dsimp only
      rw [same, update_self]
      exact min_le_right _ _
    dsimp only
    rw [update_of_ne same]
    rcases changed.waketime other member with counted | ⟨old, unchanged⟩
    · exact .inl ((min_le_left _ _).trans counted)
    · dsimp only at unchanged
      rw [update_of_ne same] at unchanged
      exact .inr ⟨old, unchanged⟩
  · dsimp only
    rw [update_self]
    exact min_le_right _ _

end SelectReactor

/-! ## The turn of a timer -/

def Precedes (start : SelectReactor) (timer other : ℕ) : Prop :=
  start.timers.idxOf timer < start.timers.idxOf other

instance (start : SelectReactor) (timer other : ℕ) : Decidable (Precedes start timer other) :=
  inferInstanceAs (Decidable (_ < _))

/-- The reactor when the turn of a timer comes: after the callbacks of the timers before it. -/
def turn (start : SelectReactor) (trace : List Invoked) (timer : ℕ) : SelectReactor :=
  match (trace.filter fun run => Precedes start run.timer timer).getLast? with
  | none => start
  | some run => run.after

variable {start : SelectReactor} {run : Invoked} {timer other : ℕ}

theorem turn_append_of_precedes (precedes : Precedes start run.timer timer) :
    turn start (trace ++ [run]) timer = run.after := by
  rw [turn, filter_append, filter_singleton, decide_eq_true precedes]
  simp

theorem turn_append_of_not_precedes (notBefore : ¬Precedes start run.timer timer) :
    turn start (trace ++ [run]) timer = turn start trace timer := by
  rw [turn, filter_append, filter_singleton, decide_eq_false notBefore]
  simp [turn]

theorem precedes_iff (nodup : start.timers.Nodup) (split : start.timers = done ++ timer :: rest)
    (known : other ∈ start.timers) : Precedes start timer other ↔ other ∈ rest := by
  rw [split] at known nodup
  have parts := nodup_append.mp nodup
  have notDone : timer ∉ done := fun member => parts.2.2 timer member timer mem_cons_self rfl
  rw [Precedes, split, idxOf_append_of_notMem notDone, idxOf_cons_self, Nat.add_zero]
  constructor
  · intro lt
    rcases mem_append.mp known with isDone | isRest
    · rw [idxOf_append_of_mem isDone] at lt
      exact absurd (idxOf_lt_length_of_mem isDone) (by omega)
    · rcases mem_cons.mp isRest with rfl | later
      · rw [idxOf_append_of_notMem notDone, idxOf_cons_self] at lt
        omega
      · exact later
  · intro later
    have different : timer ≠ other := by
      rintro rfl
      exact (nodup_cons.mp parts.2.1).1 later
    rw [idxOf_append_of_notMem fun isDone =>
      parts.2.2 other isDone other (mem_cons_of_mem _ later) rfl, idxOf_cons_ne _ different]
    omega

/-! ## The loop -/

/-- The loop has treated the timers `done` of the start, and is still to treat `rest`. -/
structure PassInvariant (capacity : ℕ) (callback : ℕ → Response) (start : SelectReactor)
    (eventtime : ℚ) (done rest : List ℕ) (pass : TimerPass) : Prop where
  lt_created : ∀ timer ∈ pass.reactor.timers, timer < pass.reactor.created
  kept : rest ≠ [] → start.timers <+: pass.reactor.timers
  invoked_sublist : pass.invoked <+ done
  registered : ∀ run ∈ pass.trace, run.timer ∈ run.before.timers
  invoked : ∀ timer ∈ done, (turn start pass.trace timer).waketime timer ≤ eventtime →
    timer ∈ pass.invoked
  current : ∀ timer ∈ rest, (turn start pass.trace timer).waketime = pass.reactor.waketime
  accounted : ∀ timer ∈ pass.reactor.timers,
    pass.reactor.nextTimer ≤ pass.reactor.waketime timer ∨ timer ∈ rest
  room : pass.reactor.timers.length + (rest.map fun timer => (callback timer).registers).sum ≤
    capacity

variable {callback : ℕ → Response} {done rest : List ℕ} {pass : TimerPass} {eventtime : ℚ}

theorem PassInvariant.notDue
    (invariant : PassInvariant capacity callback start eventtime done (timer :: rest) pass)
    (later : eventtime < pass.reactor.waketime timer) :
    PassInvariant capacity callback start eventtime (done ++ [timer]) rest { pass with
      reactor := { pass.reactor with
        nextTimer := min pass.reactor.nextTimer (pass.reactor.waketime timer) } } where
  lt_created := invariant.lt_created
  kept _ := invariant.kept (cons_ne_nil _ _)
  invoked_sublist := invariant.invoked_sublist.trans (sublist_append_left _ _)
  registered := invariant.registered
  invoked := by
    rw [forall_mem_append, forall_mem_singleton]
    refine ⟨invariant.invoked, fun due => ?_⟩
    dsimp only at due
    rw [invariant.current timer mem_cons_self] at due
    exact absurd due (not_le.mpr later)
  current other member := invariant.current other (mem_cons_of_mem _ member)
  accounted := by
    intro other member
    rcases invariant.accounted other member with counted | isRest
    · exact .inl ((min_le_left _ _).trans counted)
    rcases mem_cons.mp isRest with rfl | isRest
    · exact .inl (min_le_right _ _)
    · exact .inr isRest
  room := by
    have room := invariant.room
    rw [map_cons, sum_cons] at room
    exact le_trans (by dsimp only; omega) room

theorem PassInvariant.due
    (invariant : PassInvariant capacity callback start eventtime done (timer :: rest) pass)
    (nodup : start.timers.Nodup) (split : start.timers = done ++ timer :: rest)
    (keeps : rest ≠ [] → ∀ other ∈ start.timers,
      .unregister other ∉ (callback timer).actions) :
    ∃ after, pass.reactor.invoke capacity timer (callback timer) = some after ∧
      PassInvariant capacity callback start eventtime (done ++ [timer]) rest
        ⟨after, pass.trace ++ [⟨timer, pass.reactor, after⟩]⟩ := by
  have room := invariant.room
  rw [map_cons, sum_cons] at room
  have kept := invariant.kept (cons_ne_nil _ _)
  have isTimer : timer ∈ start.timers := by
    rw [split]
    simp
  rcases SelectReactor.invoke_spec capacity invariant.lt_created timer (callback timer) (by omega)
    with ⟨after, invoked, changed, counted, length, keptAfter⟩
  have sameTurn : ∀ other ∈ done ++ [timer], turn start
      (pass.trace ++ [⟨timer, pass.reactor, after⟩]) other = turn start pass.trace other := by
    intro other member
    apply turn_append_of_not_precedes
    have known : other ∈ start.timers := by
      rw [split]
      simpa [or_assoc] using Or.inl member
    rw [precedes_iff nodup split known]
    intro isRest
    rw [split, ← singleton_append, ← append_assoc, nodup_append] at nodup
    exact nodup.2.2 other member other isRest rfl
  have isInvoked : TimerPass.invoked ⟨after, pass.trace ++ [⟨timer, pass.reactor, after⟩]⟩ =
      pass.invoked ++ [timer] := map_append
  refine ⟨after, invoked, changed.lt_created, ?_, ?_, ?_, ?_, ?_, ?_, by dsimp only; omega⟩
  · exact fun more => keptAfter _ kept (keeps more)
  · rw [isInvoked]
    exact invariant.invoked_sublist.append (Sublist.refl _)
  · exact forall_mem_append.mpr
      ⟨invariant.registered, forall_mem_singleton.mpr (kept.subset isTimer)⟩
  · intro other member isDue
    dsimp only at isDue
    rw [sameTurn other member] at isDue
    rw [isInvoked]
    rcases mem_append.mp member with isDone | isLast
    · exact mem_append_left _ (invariant.invoked other isDone isDue)
    · exact mem_append_right _ isLast
  · intro other member
    have precedes : Precedes start timer other :=
      (precedes_iff nodup split (by rw [split]; simp [member])).mpr member
    rw [turn_append_of_precedes precedes]
  · intro other member
    rcases changed.waketime other member with isCounted | ⟨old, same⟩
    · exact .inl isCounted
    rcases invariant.accounted other old with before | isRest
    · left
      dsimp only
      rw [same]
      exact changed.next_le.trans before
    rcases mem_cons.mp isRest with rfl | isRest
    · exact .inl counted
    · exact .inr isRest

/-- The loop reaches every timer of the start at its place. -/
theorem PassInvariant.loop
    (invariant : PassInvariant capacity callback start eventtime done rest pass)
    (nodup : start.timers.Nodup) (split : start.timers = done ++ rest)
    (keeps : ∀ timer ∈ start.timers.dropLast, ∀ other ∈ start.timers,
      .unregister other ∉ (callback timer).actions) :
    ∃ final, (range' done.length rest.length).foldlM
        (TimerPass.visit capacity eventtime callback) pass = some final ∧
      PassInvariant capacity callback start eventtime start.timers [] final := by
  induction rest generalizing done pass with
  | nil =>
    rw [append_nil] at split
    rw [← split] at invariant
    exact ⟨pass, rfl, invariant⟩
  | cons timer rest induction =>
    have isTimer : pass.reactor.timers[done.length]? = some timer := by
      rcases invariant.kept (cons_ne_nil _ _) with ⟨added, timers_eq⟩
      rw [← timers_eq, split]
      simp
    have step : ∃ next, pass.visit capacity eventtime callback done.length = some next ∧
        PassInvariant capacity callback start eventtime (done ++ [timer]) rest next := by
      rw [TimerPass.visit, isTimer]
      dsimp only
      split
      · rcases invariant.due nodup split (fun more other known => keeps timer (by
          rw [split, dropLast_append_of_ne_nil (cons_ne_nil _ _), dropLast_cons_of_ne_nil more]
          simp) other known) with ⟨after, invoked, kept⟩
        exact ⟨_, by rw [invoked, Option.map_some], kept⟩
      next later => exact ⟨_, rfl, invariant.notDue (not_le.mp later)⟩
    rcases step with ⟨next, visited, kept⟩
    rw [length_cons, range'_succ, foldlM_cons, visited]
    have rest := induction kept (by rw [append_assoc]; exact split)
    rw [length_append, length_singleton] at rest
    exact rest

end CentauriCarbon.Reactor
