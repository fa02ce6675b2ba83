import CentauriCarbon.Foundation.EventRun
import CentauriCarbon.Scheduler.TimerOps
import Mathlib.Data.List.Perm.Subperm

/-! # The timer list over whole runs

Tasks add and delete timers, the board dispatches them. As long as callbacks that delete
their own timer spare the next one, the list stays a sorted list of exactly the live
timers.
-/

namespace CentauriCarbon.Scheduler

open List

/-! ## What the list is for -/

/-- The list from `timer_list` consists of the timers and the sentinel. It is sorted, holds
the live timers once each, starts with an earliest timer, and `last_insert` is a place in
it. -/
structure Machine.Lists (machine : Machine) (timers : List TimerId) : Prop where
  first : timers.head? = some machine.sched.timerList
  linked : Linked machine.sched.next (timers ++ [TimerId.sentinel])
  ends : machine.sched.next .sentinel = none
  acyclic : (timers ++ [TimerId.sentinel]).Nodup
  sorted : timers.Pairwise fun first second =>
    timerIsBefore (machine.sched.waketime second) (machine.sched.waketime first) = false
  sentinel_last : ∀ last ∈ timers.getLast?,
    timerIsBefore (machine.sched.waketime last) (machine.sched.waketime .sentinel) = true
  sentinel_eq : machine.sched.waketime .sentinel = machine.sched.waketime .periodic + 0x80000000
  live : ∀ n, .user n ∈ timers ↔ n ∈ machine.live
  periodic : .periodic ∈ timers
  deleted_first : .deleted ∉ timers.tail
  hint : machine.sched.lastInsert ∈ timers
  earliest : ∀ timer ∈ timers,
    timerIsBefore (machine.sched.waketime timer)
      (machine.sched.waketime machine.sched.timerList) = false

/-- What the events ask of their callers: a timer is added while it is not live, and no
waketime lies before the dispatched time. -/
def Machine.Timely (machine : Machine) : SchedEvent → Prop
  | .add n waketime _ =>
    n ∉ machine.live ∧ timerIsBefore waketime machine.dispatched = false
  | .dispatch callback =>
    match machine.sched.timerList with
    | .user n => callback.result = .reschedule →
        timerIsBefore (finalWaketime (machine.sched.waketime (.user n)) callback.actions)
          (machine.sched.waketime (.user n)) = false
    | _ => True
  | _ => True

/-- A callback that deletes its own timer finishes, and it does not delete the timer that
then comes next. -/
def Machine.SparesNext (machine : Machine) (fuel : ℕ) : SchedEvent → Prop
  | .dispatch callback =>
    match machine.sched.timerList with
    | .user n =>
      Spares n false (follow machine.sched.next fuel (.user n)) callback.actions ∧
        (n ∈ Machine.deletions callback.actions → callback.result = .done)
    | _ => True
  | _ => True

def Machine.Along (Condition : Machine → SchedEvent → Prop) (fuel : ℕ) (period : UInt32) :
    Machine → List SchedEvent → Prop
  | _, [] => True
  | machine, event :: events =>
    Condition machine event ∧
      match machine.step fuel period event with
      | none => True
      | some next => Machine.Along Condition fuel period next events

section

variable (machine : Machine) (fuel : ℕ)

instance Machine.Timely.decidable : (event : SchedEvent) → Decidable (machine.Timely event)
  | .add _ _ _ => inferInstanceAs (Decidable (_ ∧ _))
  | .del _ => isTrue trivial
  | .dispatch callback => by
      rw [Machine.Timely]
      cases machine.sched.timerList <;> infer_instance
  | .shutdown => isTrue trivial
  | .clearShutdown => isTrue trivial

instance Machine.SparesNext.decidable :
    (event : SchedEvent) → Decidable (machine.SparesNext fuel event)
  | .add _ _ _ => isTrue trivial
  | .del _ => isTrue trivial
  | .dispatch callback => by
      rw [Machine.SparesNext]
      cases machine.sched.timerList <;> infer_instance
  | .shutdown => isTrue trivial
  | .clearShutdown => isTrue trivial

end

instance Machine.Along.decidable (Condition : Machine → SchedEvent → Prop)
    [∀ machine event, Decidable (Condition machine event)] (fuel : ℕ) (period : UInt32) :
    (machine : Machine) → (events : List SchedEvent) →
      Decidable (Machine.Along Condition fuel period machine events)
  | _, [] => isTrue trivial
  | machine, event :: events => by
      rw [Machine.Along]
      cases machine.step fuel period event with
      | none => infer_instance
      | some next =>
        have rest := Machine.Along.decidable Condition fuel period next events
        infer_instance

/-! ## Steps -/

structure Machine.Good (machine : Machine) (timers : List TimerId) : Prop where
  listed : Listed machine.sched machine.dispatched timers
  live : ∀ n, .user n ∈ timers ↔ n ∈ machine.live

/-- The step is made, and at most one more timer is live. -/
def Machine.StaysGood (machine : Machine) (fuel : ℕ) (period : UInt32) (event : SchedEvent) :
    Prop :=
  ∃ next after, machine.step fuel period event = some next ∧ next.Good after ∧
    next.live.length ≤ machine.live.length + 1

variable {timers : List TimerId} {machine : Machine}

theorem Ordered.not_before (ordered : Ordered waketime origin timers) (earlyMem : early ∈ timers)
    (lateMem : late ∈ timers)
    (before : ticksAfter origin (waketime early) ≤ ticksAfter origin (waketime late)) :
    timerIsBefore (waketime late) (waketime early) = false := by
  rw [← Bool.not_eq_true,
    timerIsBefore_iff_ticks (ordered.near late lateMem) (ordered.near early earlyMem)]
  exact Nat.not_lt.mpr before

theorem Ordered.le_last (ordered : Ordered waketime origin timers) (member : timer ∈ timers)
    (isLast : timers.getLast? = some last) :
    ticksAfter origin (waketime timer) ≤ ticksAfter origin (waketime last) := by
  rcases getLast?_eq_some_iff.mp isLast with ⟨front, rfl⟩
  rcases mem_append.mp member with inFront | atLast
  · exact (pairwise_append.mp ordered.sorted).2.2 timer inFront last (by simp)
  · rw [mem_singleton.mp atLast]

theorem Machine.Good.lists (good : machine.Good timers) : machine.Lists timers := by
  have listed := good.listed
  have ordered := listed.ordered
  rcases head?_eq_some_iff.mp listed.head with ⟨rest, split⟩
  exact
    { first := listed.head
      linked := listed.chained.linked
      ends := listed.chained.ends
      acyclic := listed.chained.nodup_all
      sorted := ordered.sorted.imp_of_mem fun earlyMem lateMem before =>
        ordered.not_before earlyMem lateMem before
      sentinel_last := by
        intro last isLast
        rw [listed.sentinel_eq]
        exact (timerIsBefore_sentinel_iff (ordered.near last (mem_of_getLast? isLast))
          (ordered.near _ listed.periodic)).mpr (ordered.le_last listed.periodic isLast)
      sentinel_eq := listed.sentinel_eq
      live := good.live
      periodic := listed.periodic
      deleted_first := listed.deleted_first
      hint := listed.hint
      earliest := by
        intro timer member
        apply ordered.not_before _ member
        · rw [split] at ordered member
          rcases mem_cons.mp member with rfl | inRest
          · exact le_rfl
          · exact ordered.head_le timer inRest
        · rw [split]
          exact mem_cons_self }

/-- Besides the live timers there are at most the periodic and the deleted timer. -/
theorem Machine.Good.length_le (good : machine.Good timers) :
    timers.length ≤ machine.live.length + 2 := by
  have within : timers ⊆ .deleted :: .periodic :: machine.live.map TimerId.user := by
    intro timer member
    cases timer with
    | periodic => simp
    | sentinel => exact absurd member good.listed.chained.noSentinel
    | deleted => simp
    | user n => simpa using (good.live n).mp member
  have length := (subperm_of_subset good.listed.chained.nodup within).length_le
  simpa using length

section

variable {machine : Machine} {timers : List TimerId} {period : UInt32}

variable (good : machine.Good timers)
include good

theorem Machine.Good.add (timely : machine.Timely (.add n waketime now))
    (enough : timers.length < fuel) : machine.StaysGood fuel period (.add n waketime now) := by
  rcases timely with ⟨notLive, notBefore⟩
  have listed := good.listed
  have fresh : .user n ∉ timers := mt (good.live n).mp notLive
  let sched : Sched := { machine.sched with
    waketime := Function.update machine.sched.waketime (.user n) waketime }
  have own : sched.waketime (.user n) = waketime := Function.update_self _ _ _
  have near : ticksAfter machine.dispatched (sched.waketime (.user n)) < 2 ^ 31 := by
    rw [own]
    exact Nat.lt_of_not_le (mt (timerIsBefore_iff _ _).mpr (ne_true_of_eq_false notBefore))
  have prepared : Listed sched machine.dispatched timers :=
    { listed with
      ordered := listed.ordered.update_of_notMem fresh _ }
  rcases prepared.schedAddTimer fresh near now enough with
    ⟨next, after, added, nextListed, member⟩
  rw [own] at member
  have stepped : machine.step fuel period (.add n waketime now) =
      some { machine with
        sched := next
        live := if sched.tooClose waketime now then [] else n :: machine.live } :=
    congrArg (Option.map _) added
  refine ⟨_, after, stepped, ⟨nextListed, ?_⟩, ?_⟩
  · intro m
    rw [member]
    cases sched.tooClose waketime now with
    | true => simp
    | false => simp [good.live]
  · dsimp only
    split
    · simp
    · simp

theorem Machine.Good.del (enough : timers.length < fuel) :
    machine.StaysGood fuel period (.del n) := by
  rcases good.listed.schedDelTimer n enough with ⟨next, after, deleted, nextListed, member⟩
  have stepped : machine.step fuel period (.del n) =
      some { machine with sched := next, live := machine.live.filter (· ≠ n) } :=
    congrArg (Option.map _) deleted
  refine ⟨_, after, stepped, ⟨nextListed, ?_⟩, ?_⟩
  · intro m
    rw [member, good.live, mem_filter, decide_eq_true_iff]
  · exact (length_filter_le _ _).trans (Nat.le_succ _)

theorem Machine.Good.dispatch (timely : machine.Timely (.dispatch callback))
    (spares : machine.SparesNext fuel (.dispatch callback)) (periodNear : period.toNat < 2 ^ 31)
    (enough : timers.length < fuel) : machine.StaysGood fuel period (.dispatch callback) := by
  have listed := good.listed
  have live := good.live
  rcases head?_eq_some_iff.mp listed.head with ⟨rest, rfl⟩
  -- It is enough to know the list after the dispatch.
  suffices dispatches : ∃ next wake after,
      machine.sched.schedTimerDispatch fuel period callback = some (next, wake) ∧
      Listed next (machine.sched.waketime machine.sched.timerList) after ∧
      (∀ m, .user m ∈ after ↔ m ∈ Machine.liveAfter machine.live callback machine.sched.timerList) ∧
      (Machine.liveAfter machine.live callback machine.sched.timerList).length ≤
        machine.live.length + 1 by
    rcases dispatches with ⟨next, wake, after, dispatched, nextListed, member, length⟩
    exact ⟨_, after, congrArg (Option.map _) dispatched, ⟨nextListed, member⟩, length⟩
  by_cases isUser : ∃ n, machine.sched.timerList = .user n
  · rcases isUser with ⟨n, first⟩
    rw [Machine.SparesNext, first] at spares
    rw [Machine.Timely, first] at timely
    rcases spares with ⟨sparesNext, finishes⟩
    rw [first] at listed live enough ⊢
    have behind : follow machine.sched.next fuel (.user n) = rest ++ [TimerId.sentinel] :=
      listed.chained.linked.follow_eq listed.chained.ends (Nat.lt_of_succ_lt enough)
    rw [behind] at sparesNext
    have behaves : callback.Behaves n (rest ++ [TimerId.sentinel])
        (machine.sched.waketime (.user n)) :=
      { spares := sparesNext
        rescheduled := by
          intro rescheduled
          refine ⟨?_, timely rescheduled⟩
          intro deletes
          rw [finishes deletes] at rescheduled
          cases rescheduled }
    rcases listed.dispatch_user period behaves enough with
      ⟨next, after, dispatched, nextListed, member⟩
    refine ⟨next, _, after, dispatched, nextListed, ?_, ?_⟩
    · intro m
      rw [member, live, Machine.liveAfter, mem_filter, decide_eq_true_iff]
    · exact (length_filter_le _ _).trans (Nat.le_succ _)
  · have notUser : ∀ n, machine.sched.timerList ≠ .user n := not_exists.mp isUser
    have unchanged : Machine.liveAfter machine.live callback machine.sched.timerList =
        machine.live := by
      cases first : machine.sched.timerList with
      | user n => exact absurd first (notUser n)
      | periodic => rfl
      | sentinel => rfl
      | deleted => rfl
    rw [unchanged]
    rcases listed.dispatch_own notUser periodNear callback enough with
      ⟨next, after, dispatched, nextListed, member⟩
    refine ⟨next, _, after, dispatched, nextListed, ?_, Nat.le_succ _⟩
    intro m
    rw [member, live]

theorem Machine.Good.step (timely : machine.Timely event) (spares : machine.SparesNext fuel event)
    (periodNear : period.toNat < 2 ^ 31) (enough : timers.length < fuel) :
    machine.StaysGood fuel period event := by
  cases event with
  | add n waketime now => exact good.add timely enough
  | del n => exact good.del enough
  | dispatch callback => exact good.dispatch timely spares periodNear enough
  | shutdown =>
    exact ⟨_, _, rfl, ⟨good.listed.runShutdown, by simp⟩, Nat.zero_le _⟩
  | clearShutdown =>
    exact ⟨_, timers, rfl, ⟨{ good.listed with }, good.live⟩, Nat.le_succ _⟩

end

theorem Machine.initial_good : Machine.initial.Good [.periodic] where
  listed := Listed.initial
  live := by simp [Machine.initial]

def Machine.Allowed (fuel : ℕ) (machine : Machine) (event : SchedEvent) : Prop :=
  machine.Timely event ∧ machine.SparesNext fuel event

instance (fuel : ℕ) (machine : Machine) (event : SchedEvent) :
    Decidable (Machine.Allowed fuel machine event) :=
  inferInstanceAs (Decidable (_ ∧ _))

theorem Machine.Good.run (periodNear : period.toNat < 2 ^ 31) (good : machine.Good timers)
    (allowed : Machine.Along (Machine.Allowed fuel) fuel period machine events)
    (enough : machine.live.length + events.length + 2 < fuel) :
    ∃ final after, runEvents (Machine.step fuel period) machine events = some final ∧
      final.Good after := by
  induction events generalizing machine timers with
  | nil => exact ⟨machine, timers, rfl, good⟩
  | cons event events induction =>
    rcases allowed with ⟨⟨timely, spares⟩, rest⟩
    have length := good.length_le
    rw [length_cons] at enough
    rcases good.step timely spares periodNear (show timers.length < fuel by omega) with
      ⟨next, after, stepped, nextGood, grows⟩
    rw [stepped] at rest
    rcases induction nextGood rest (by omega) with
      ⟨final, last, ran, finalGood⟩
    exact ⟨final, last, runEvents_cons_eq_some.mpr ⟨next, stepped, ran⟩, finalGood⟩

/-- In every run whose callbacks, once they have deleted their own timer, finish and spare
the next timer, the timer list is a sorted list of exactly the live timers in every state
reached, and it starts with an earliest one. -/
theorem timer_list_sorted (fuel : ℕ) (period : UInt32) (periodNear : period.toNat < 2 ^ 31)
    (events : List SchedEvent)
    (allowed : Machine.Along (Machine.Allowed fuel) fuel period .initial events)
    (enough : events.length + 2 < fuel) :
    ∃ final timers, runEvents (Machine.step fuel period) .initial events = some final ∧
      final.Lists timers := by
  have initially : Machine.initial.live.length + events.length + 2 < fuel := by
    simpa [Machine.initial] using enough
  rcases Machine.initial_good.run periodNear allowed initially with ⟨final, timers, ran, good⟩
  exact ⟨final, timers, ran, good.lists⟩

def sparingRun : List SchedEvent :=
  [.add 1 10 0, .add 2 20 0, .add 3 30 0, .dispatch ⟨[], .done⟩,
    .dispatch ⟨[.delTimer 1, .delTimer 3], .done⟩, .dispatch ⟨[.setWaketime 5000], .reschedule⟩]

theorem timer_list_sorted_sparing :
    Machine.Along (Machine.Allowed 10) 10 1000 .initial sparingRun ∧
      ∃ final timers, runEvents (Machine.step 10 1000) .initial sparingRun = some final ∧
        final.Lists timers :=
  ⟨by decide +kernel, timer_list_sorted 10 1000 (by decide) sparingRun (by decide +kernel)
    (by decide)⟩

def ownDeletionRun : List SchedEvent :=
  [.add 1 10 0, .add 2 20 0, .dispatch ⟨[], .done⟩, .dispatch ⟨[.delTimer 1, .delTimer 2], .done⟩]

/-- The second timer, which is no longer live, is the first one of the list. -/
theorem ownDeletionRun_relists :
    (runEvents (Machine.step 10 1000) .initial ownDeletionRun).map
      (fun machine => (machine.sched.timerList, machine.live)) = some (.user 2, []) := by
  decide +kernel

theorem deleted_timer_listed_again :
    Machine.Along Machine.Timely 10 1000 .initial ownDeletionRun ∧
      ¬∃ final timers,
        runEvents (Machine.step 10 1000) .initial ownDeletionRun = some final ∧
          final.Lists timers := by
  refine ⟨by decide +kernel, ?_⟩
  rintro ⟨final, timers, ran, lists⟩
  have reached := ownDeletionRun_relists
  rw [ran, Option.map_some, Option.some.injEq, Prod.mk.injEq] at reached
  have listed : .user 2 ∈ timers := by
    have first := lists.first
    rw [reached.1] at first
    exact mem_of_mem_head? first
  have live := (lists.live 2).mp listed
  rw [reached.2] at live
  cases live

end CentauriCarbon.Scheduler
