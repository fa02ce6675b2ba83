import Mathlib.Data.List.Nodup
import CentauriCarbon.Foundation.EventRun
import CentauriCarbon.Reactor.ReactorMutex

/-! # Fairness of the mutex

Greenlets that lock and unlock one mutex in any order. A greenlet that waits sleeps in `pause`
until its timer is due, which only `unlock` brings about.
-/

namespace CentauriCarbon.Reactor

open Function

inductive GreenletSleep where
  | awake
  | never
  | now
  deriving DecidableEq

structure MutexSystem (Greenlet : Type) where
  mutex : ReactorMutex Greenlet
  sleep : Greenlet → GreenletSleep
  /-- The greenlets whose `lock` has returned and that have not called `unlock` since. -/
  holders : List Greenlet
  /-- The calls of `lock`. -/
  calls : List Greenlet
  /-- The returns from `lock`. -/
  grants : List Greenlet
  /-- There was a call of `lock`, and since then no `unlock` without a waiter. -/
  taken : Bool

inductive MutexEvent (Greenlet : Type) where
  | lock (greenlet : Greenlet)
  | wake (greenlet : Greenlet)
  | unlock (greenlet : Greenlet)

namespace MutexSystem

variable {Greenlet : Type}

def start : MutexSystem Greenlet where
  mutex := .new
  sleep _ := .awake
  holders := []
  calls := []
  grants := []
  taken := false

structure Consistent (system : MutexSystem Greenlet) : Prop where
  holders_eq : system.holders = system.mutex.owner.toList
  inOrder : system.calls = system.grants ++ system.mutex.queue
  test_eq : system.mutex.test = system.taken
  awake_iff : ∀ greenlet, system.sleep greenlet = .awake ↔ greenlet ∉ system.mutex.queue
  now_iff : ∀ greenlet, system.sleep greenlet = .now ↔
    system.mutex.nextPending = true ∧ system.mutex.queue.head? = some greenlet
  nodup : system.mutex.queue.Nodup
  pending_of_free : system.mutex.isLocked = true → system.mutex.owner = none →
    system.mutex.nextPending = true

open ReactorMutex (lock_owner lock_queue lock_returned new resume_of_next test)

namespace Consistent

theorem of_start : Consistent (start : MutexSystem Greenlet) := by
  constructor <;> simp [start, new, test]

theorem holders_eq_nil_iff (consistent : Consistent system) :
    system.holders = [] ↔ system.mutex.owner = none := by
  rw [consistent.holders_eq, Option.toList_eq_nil_iff]

theorem nextPending_iff (consistent : Consistent system)
    (isFirst : system.mutex.queue.head? = some first) :
    system.mutex.nextPending ↔ system.holders = [] := by
  have waiting : system.mutex.queue ≠ [] := by
    intro empty
    rw [empty] at isFirst
    cases isFirst
  rw [consistent.holders_eq_nil_iff]
  constructor
  · intro pending
    exact (system.mutex.nextPending_spec pending).1
  · intro free
    exact consistent.pending_of_free (system.mutex.locked_of_queue waiting) free

end Consistent

variable [DecidableEq Greenlet]

def setWaketime (sleep : Greenlet → GreenletSleep) (greenlet : Greenlet)
    (waketime : GreenletSleep) : Greenlet → GreenletSleep :=
  update sleep greenlet waketime

@[simp] theorem setWaketime_self (sleep : Greenlet → GreenletSleep) (greenlet : Greenlet)
    (waketime : GreenletSleep) : setWaketime sleep greenlet waketime greenlet = waketime :=
  update_self _ _ _

@[simp] theorem setWaketime_of_ne (sleep : Greenlet → GreenletSleep) {greenlet other : Greenlet}
    (different : other ≠ greenlet) (waketime : GreenletSleep) :
    setWaketime sleep greenlet waketime other = sleep other :=
  update_of_ne different _ _

def step (system : MutexSystem Greenlet) : MutexEvent Greenlet → Option (MutexSystem Greenlet)
  | .lock greenlet =>
    if system.sleep greenlet = .awake then
      let called := { system with
        mutex := (system.mutex.lock greenlet).1
        calls := system.calls ++ [greenlet]
        taken := true }
      if (system.mutex.lock greenlet).2 then
        some { called with
          holders := greenlet :: system.holders
          grants := system.grants ++ [greenlet] }
      else some { called with sleep := setWaketime system.sleep greenlet .never }
    else none
  | .wake greenlet =>
    if system.sleep greenlet = .now then
      let woken := { system with mutex := (system.mutex.resume greenlet).1 }
      if (system.mutex.resume greenlet).2 then
        some { woken with
          sleep := setWaketime system.sleep greenlet .awake
          holders := greenlet :: system.holders
          grants := system.grants ++ [greenlet] }
      else some { woken with sleep := setWaketime system.sleep greenlet .never }
    else none
  | .unlock greenlet =>
    if system.sleep greenlet = .awake ∧ greenlet ∈ system.holders then
      let unlocked := { system with
        mutex := system.mutex.unlock
        holders := system.holders.erase greenlet }
      match system.mutex.queue with
      | [] => some { unlocked with taken := false }
      | first :: _ => some { unlocked with sleep := setWaketime system.sleep first .now }
    else none

/-! ## What is promised -/

/-- One holder at most, and `lock` returns in the order of the calls. If nobody holds the mutex,
the first waiter is the only greenlet whose timer is due; it takes the mutex when it runs, and
until then nobody else does. -/
structure Fair (system : MutexSystem Greenlet) : Prop where
  exclusive : system.holders.length ≤ 1
  inOrder : system.calls = system.grants ++ system.mutex.queue
  test_eq : system.mutex.test = system.taken
  scheduled : ∀ greenlet, system.sleep greenlet = .now ↔
    system.holders = [] ∧ system.mutex.queue.head? = some greenlet
  takes : ∀ greenlet, system.sleep greenlet = .now → ∃ next,
    system.step (.wake greenlet) = some next ∧ next.holders = [greenlet]
  handsOver : ∀ greenlet next first, system.step (.unlock greenlet) = some next →
    system.mutex.queue.head? = some first →
    ∀ other, next.sleep other = .now ↔ other = first
  noBarging : ∀ first later final, system.holders = [] →
    system.mutex.queue.head? = some first → (∀ event ∈ later, event ≠ .wake first) →
    runEvents step system later = some final →
    final.holders = [] ∧ final.mutex.queue.head? = some first

/-! ## Steps -/

namespace Consistent

variable {system : MutexSystem Greenlet}

/-- A greenlet that does not sleep gets the free mutex, or goes to the end of the queue. -/
theorem lock_cases (stepped : system.step (.lock greenlet) = some next) :
    system.sleep greenlet = .awake ∧
      ((system.mutex.isLocked = false ∧
          next = { system with
            mutex := (system.mutex.lock greenlet).1
            calls := system.calls ++ [greenlet]
            taken := true
            holders := greenlet :: system.holders
            grants := system.grants ++ [greenlet] }) ∨
        (system.mutex.isLocked ∧
          next = { system with
            mutex := (system.mutex.lock greenlet).1
            calls := system.calls ++ [greenlet]
            taken := true
            sleep := setWaketime system.sleep greenlet .never })) := by
  rcases Option.ite_none_right_eq_some.mp stepped with ⟨isAwake, stepped⟩
  refine ⟨isAwake, ?_⟩
  cases free : system.mutex.isLocked with
  | false =>
    rw [lock_returned, free] at stepped
    exact .inl ⟨rfl, (Option.some.inj stepped).symm⟩
  | true =>
    rw [lock_returned, free] at stepped
    exact .inr ⟨rfl, (Option.some.inj stepped).symm⟩

theorem due_of_wake (stepped : system.step (.wake greenlet) = some next) :
    system.sleep greenlet = .now := (Option.ite_none_right_eq_some.mp stepped).1

variable (consistent : Consistent system)
include consistent

theorem lock (stepped : system.step (.lock greenlet) = some next) : Consistent next := by
  rcases lock_cases stepped with ⟨isAwake, ⟨free, rfl⟩ | ⟨locked, rfl⟩⟩
  · have empty := system.mutex.queue_of_unlocked free
    have noOwner := system.mutex.owner_of_unlocked free
    constructor
    · simp [lock_owner, free, consistent.holders_eq, noOwner]
    · simp [lock_queue, free, consistent.inOrder, empty]
    · simp [test]
    · simpa [lock_queue, free] using consistent.awake_iff
    · simpa [lock_queue, free] using consistent.now_iff
    · simp [lock_queue, free, empty]
    · simp [lock_owner, free]
  have notQueued := (consistent.awake_iff greenlet).mp isAwake
  constructor
  · simp [lock_owner, locked, consistent.holders_eq]
  · simp [lock_queue, locked, consistent.inOrder]
  · simp [test]
  · intro other
    by_cases same : other = greenlet
    · simp [lock_queue, locked, same]
    · simp [lock_queue, locked, same, consistent.awake_iff]
  · intro other
    have sameHead : system.mutex.nextPending →
        (system.mutex.queue ++ [greenlet]).head? = system.mutex.queue.head? := fun pending =>
      List.head?_append_of_ne_nil _ (system.mutex.nextPending_spec pending).2
    have now_iff := consistent.now_iff other
    dsimp only
    rw [lock_queue, if_pos locked, ReactorMutex.lock_nextPending,
      and_congr_right fun pending => by rw [sameHead pending], ← now_iff]
    by_cases same : other = greenlet
    · simp [same, isAwake]
    · rw [setWaketime_of_ne _ same]
  · rw [lock_queue, if_pos locked, ← List.concat_eq_append]
    exact consistent.nodup.concat notQueued
  · simpa [lock_owner, locked] using consistent.pending_of_free locked

theorem wake_eq (due : system.sleep greenlet = .now) :
    system.step (.wake greenlet) = some { system with
      mutex := (system.mutex.resume greenlet).1
      sleep := setWaketime system.sleep greenlet .awake
      holders := greenlet :: system.holders
      grants := system.grants ++ [greenlet] } := by
  have next := (consistent.now_iff greenlet).mp due
  rw [step, if_pos due]
  rw [(resume_of_next next).2.2.2.2, if_pos rfl]

theorem wake (stepped : system.step (.wake greenlet) = some next) : Consistent next := by
  have due := due_of_wake stepped
  rw [consistent.wake_eq due] at stepped
  cases stepped
  have isNext := (consistent.now_iff greenlet).mp due
  rcases resume_of_next isNext with ⟨isLocked, nextPending, queue, owner, -⟩
  have noOwner := (system.mutex.nextPending_spec isNext.1).1
  rcases List.head?_eq_some_iff.mp isNext.2 with ⟨rest, queue_eq⟩
  have nodup := consistent.nodup
  rw [queue_eq, List.nodup_cons] at nodup
  constructor
  · simp [owner, consistent.holders_eq, noOwner]
  · simp [queue, consistent.inOrder, queue_eq]
  · exact isLocked.trans consistent.test_eq
  · intro other
    dsimp only
    rw [queue, queue_eq, List.tail_cons]
    by_cases same : other = greenlet
    · simp [same, nodup.1]
    · rw [setWaketime_of_ne _ same, consistent.awake_iff, queue_eq]
      simp [same]
  · intro other
    rw [nextPending]
    by_cases same : other = greenlet
    · simp [same]
    have notNow : system.sleep other ≠ .now := by
      intro alsoDue
      have isFirst := ((consistent.now_iff other).mp alsoDue).2
      rw [isNext.2] at isFirst
      exact same (Option.some.inj isFirst).symm
    simp [same, notNow]
  · rw [queue, queue_eq]
    exact nodup.2
  · simp [owner]

/-- The holder frees the mutex, or makes the timer of the first waiter due. -/
theorem unlock_cases (stepped : system.step (.unlock greenlet) = some next) :
    system.mutex.owner = some greenlet ∧
      ((system.mutex.queue = [] ∧
          next = { system with mutex := system.mutex.unlock, holders := [], taken := false }) ∨
        ∃ first, system.mutex.queue.head? = some first ∧
          next = { system with
            mutex := system.mutex.unlock
            holders := []
            sleep := setWaketime system.sleep first .now }) := by
  rcases Option.ite_none_right_eq_some.mp stepped with ⟨holds, stepped⟩
  have isHolder := holds.2
  rw [consistent.holders_eq, Option.mem_toList] at isHolder
  have released : system.holders.erase greenlet = [] := by
    rw [consistent.holders_eq, isHolder]
    simp
  refine ⟨isHolder, ?_⟩
  rw [released] at stepped
  split at stepped
  next empty => exact .inl ⟨empty, (Option.some.inj stepped).symm⟩
  next first rest queue_eq =>
    exact .inr ⟨first, by rw [queue_eq, List.head?_cons], (Option.some.inj stepped).symm⟩

theorem unlock (stepped : system.step (.unlock greenlet) = some next) : Consistent next := by
  rcases consistent.unlock_cases stepped with
    ⟨isOwner, ⟨empty, rfl⟩ | ⟨first, isFirst, rfl⟩⟩
  · have notPending := system.mutex.nextPending_of_queue empty
    constructor
    · simp
    · simpa using consistent.inOrder
    · simp [test, empty]
    · simpa using consistent.awake_iff
    · simpa [notPending, empty] using consistent.now_iff
    · simp [empty]
    · simp [empty]
  have locked : system.mutex.isLocked := system.mutex.locked_of_owner (by simp [isOwner])
  rcases List.head?_eq_some_iff.mp isFirst with ⟨rest, queue_eq⟩
  have notPending : system.mutex.nextPending = false := by
    rw [← Bool.not_eq_true]
    intro pending
    have noOwner := (system.mutex.nextPending_spec pending).1
    rw [isOwner] at noOwner
    cases noOwner
  constructor
  · simp
  · simpa using consistent.inOrder
  · rw [← consistent.test_eq]
    simp [test, queue_eq]
  · intro other
    dsimp only
    rw [ReactorMutex.unlock_queue]
    by_cases same : other = first
    · simp [same, queue_eq]
    · rw [setWaketime_of_ne _ same, consistent.awake_iff]
  · intro other
    have notNow : system.sleep other ≠ .now := by
      simp [consistent.now_iff, notPending]
    by_cases same : other = first
    · simp [same, queue_eq]
    · simp [same, notNow, queue_eq, Ne.symm same]
  · simpa using consistent.nodup
  · simp [queue_eq]

theorem step (stepped : system.step event = some next) : Consistent next := by
  cases event with
  | lock greenlet => exact consistent.lock stepped
  | wake greenlet => exact consistent.wake stepped
  | unlock greenlet => exact consistent.unlock stepped

/-- While the mutex is on its way to the first waiter, only the wake-up of that waiter changes who
holds it and who is next. -/
theorem next_kept (noHolder : system.holders = []) (isFirst : system.mutex.queue.head? = some first)
    (other : event ≠ .wake first) (stepped : system.step event = some next) :
    next.holders = [] ∧ next.mutex.queue.head? = some first := by
  have pending := (consistent.nextPending_iff isFirst).mpr noHolder
  have waiting := (system.mutex.nextPending_spec pending).2
  cases event with
  | lock greenlet =>
    have locked := system.mutex.locked_of_queue waiting
    rcases lock_cases stepped with ⟨-, ⟨free, -⟩ | ⟨-, rfl⟩⟩
    · rw [locked] at free
      cases free
    · refine ⟨noHolder, ?_⟩
      rw [lock_queue, if_pos locked, List.head?_append_of_ne_nil _ waiting]
      exact isFirst
  | wake greenlet =>
    have due := due_of_wake stepped
    have alsoFirst := ((consistent.now_iff greenlet).mp due).2
    rw [isFirst] at alsoFirst
    cases alsoFirst
    exact absurd rfl other
  | unlock greenlet =>
    have isOwner := (consistent.unlock_cases stepped).1
    rw [consistent.holders_eq_nil_iff, isOwner] at noHolder
    cases noHolder

theorem fair : Fair system where
  __ := consistent
  exclusive := by
    rw [consistent.holders_eq]
    exact Option.length_toList_le
  scheduled := by
    intro greenlet
    rw [consistent.now_iff]
    exact and_congr_left fun isFirst => consistent.nextPending_iff isFirst
  takes := by
    intro greenlet due
    refine ⟨_, consistent.wake_eq due, ?_⟩
    have isNext := (consistent.now_iff greenlet).mp due
    have noHolder := (consistent.nextPending_iff isNext.2).mp isNext.1
    rw [noHolder]
  handsOver := by
    intro greenlet next first stepped isFirst other
    have follows := consistent.unlock stepped
    rcases consistent.unlock_cases stepped with ⟨-, ⟨empty, -⟩ | ⟨woken, -, rfl⟩⟩
    · rw [empty] at isFirst
      cases isFirst
    · have sameQueue := system.mutex.unlock_queue
      rw [follows.now_iff, follows.nextPending_iff (sameQueue ▸ isFirst), sameQueue, isFirst]
      simp [eq_comm]
  noBarging := by
    intro first later final noHolder isFirst others ran
    let Next (state : MutexSystem Greenlet) : Prop :=
      Consistent state ∧ state.holders = [] ∧ state.mutex.queue.head? = some first
    have kept : ∀ state event next, Next state → event ≠ .wake first →
        state.step event = some next → Next next := by
      rintro state event next ⟨holds, none, first⟩ other stepped
      exact ⟨holds.step stepped, holds.next_kept none first other stepped⟩
    exact (runEvents_invariant_of_allowed kept others ⟨consistent, noHolder, isFirst⟩ ran).2

end Consistent

/-- In every run the mutex is a fair lock. -/
theorem reactorMutex_fair {events : List (MutexEvent Greenlet)} {final : MutexSystem Greenlet}
    (ran : runEvents step start events = some final) : Fair final := by
  have kept : ∀ (state : MutexSystem Greenlet) event next, Consistent state →
      step state event = some next → Consistent next := by
    intro state event next consistent stepped
    exact consistent.step stepped
  exact (runEvents_invariant kept Consistent.of_start ran).fair

/-- A newcomer that locks between the hand-over and the wake-up goes behind the others. -/
theorem reactorMutex_fair_to_newcomer :
    ∃ final : MutexSystem Nat,
      runEvents step start
        [.lock 1, .lock 2, .lock 3, .unlock 1, .lock 4, .wake 2, .unlock 2, .wake 3] = some final ∧
      final.holders = [3] ∧ final.grants = [1, 2, 3] ∧ Fair final := by
  refine exists_of_observed (fun final => (final.holders, final.grants)) ([3], [1, 2, 3])
    (by decide +kernel) fun final ran seen => ?_
  exact ⟨congrArg Prod.fst seen, congrArg Prod.snd seen, reactorMutex_fair ran⟩

end MutexSystem

end CentauriCarbon.Reactor
