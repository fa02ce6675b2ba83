import CentauriCarbon.Outputs.DigitalOut

/-! # The watchdog of an output pin

A pin with a maximum duration is never left toggling or away from its default level: its
timer is scheduled, and within the maximum duration it loads another setting or shuts down.
-/

namespace CentauriCarbon.Outputs

open Scheduler Option

variable {maxDuration : UInt32}

structure PinRun.Watched (maxDuration : UInt32) (run : PinRun) : Prop where
  scheduled : run.d.scheduled = true
  checkEnd : run.d.checkEnd = true
  now_le : ticksAfter run.applied run.now ≤ ticksAfter run.applied run.d.waketime
  waketime_le : ticksAfter run.applied run.d.waketime ≤ ticksAfter run.applied run.d.endTime
  endTime_le : ticksAfter run.applied run.d.endTime ≤ maxDuration.toNat

structure PinRun.Limited (maxDuration : UInt32) (run : PinRun) : Prop where
  maxDuration_eq : run.d.maxDuration = maxDuration
  cycle_lt : run.d.cycleTime.toNat < 2 ^ 31
  on_lt : ∀ m ∈ run.d.mq, m.onDuration.toNat < 2 ^ 31
  sorted : run.d.mq.IsChain fun m next => ticksAfter m.waketime next.waketime < 2 ^ 31
  pending : ∀ m, run.d.mq.head? = some m →
    run.d.scheduled = true ∧ run.d.checkEnd = true ∧ run.d.endTime = m.waketime
  set : run.d.scheduled = true → run.d.func ≠ .unset
  loading : run.d.scheduled = true → run.d.func = .load → run.d.waketime = run.d.endTime
  toggles : run.d.scheduled = true → run.d.func = .toggle → run.d.toggling = true ∧
    0 < run.d.onDuration.toNat ∧ run.d.onDuration.toNat < 2 ^ 31 ∧
    0 < run.d.offDuration.toNat ∧ run.d.offDuration.toNat < 2 ^ 31
  active : run.d.Active → run.Watched maxDuration

namespace DigitalOut

def nextDuration (d : DigitalOut) : UInt32 :=
  if d.on then d.offDuration else d.onDuration

theorem digitalToggleEvent_eq (d : DigitalOut) : d.digitalToggleEvent =
      if d.checkEnd && !timerIsBefore (d.waketime + d.nextDuration) d.endTime then
        { d with pin := !d.pin, on := !d.on, func := .load, waketime := d.endTime }
      else { d with pin := !d.pin, on := !d.on, waketime := d.waketime + d.nextDuration } := by
  rw [digitalToggleEvent, nextDuration]
  cases d.on with
  | true => rfl
  | false => rfl

/-- A toggle event either comes nearer to the end time or leads to the load event there. -/
theorem digitalToggleEvent_cases {d : DigitalOut} (checkEnd : d.checkEnd)
    (near : ticksAfter d.waketime d.endTime < 2 ^ 31) (short : d.nextDuration.toNat < 2 ^ 31) :
    d.digitalToggleEvent =
        { d with pin := !d.pin, on := !d.on, func := .load, waketime := d.endTime } ∨
      d.nextDuration.toNat < ticksAfter d.waketime d.endTime ∧
        d.digitalToggleEvent =
          { d with pin := !d.pin, on := !d.on, waketime := d.waketime + d.nextDuration } := by
  have nextTicks := ticksAfter_self_add d.waketime d.nextDuration
  have before_iff := timerIsBefore_iff_ticks (nextTicks.trans_lt short) near
  rw [nextTicks] at before_iff
  rw [digitalToggleEvent_eq, checkEnd]
  by_cases before : timerIsBefore (d.waketime + d.nextDuration) d.endTime
  · right
    rw [before]
    exact ⟨before_iff.mp before, rfl⟩
  left
  rw [Bool.not_eq_true] at before
  rw [before]
  rfl

theorem reachesLoad_of_toggle (ticks : ℕ) (d : DigitalOut) (scheduled : d.scheduled)
    (func : d.func = .toggle) (checkEnd : d.checkEnd)
    (durations : 0 < d.onDuration.toNat ∧ d.onDuration.toNat < 2 ^ 31 ∧
      0 < d.offDuration.toNat ∧ d.offDuration.toNat < 2 ^ 31)
    (ticks_eq : ticksAfter d.waketime d.endTime = ticks) (near : ticks < 2 ^ 31) :
    ∃ atLoad, d.ReachesLoad atLoad ∧ atLoad.waketime = d.endTime := by
  induction ticks using Nat.strongRecOn generalizing d with
  | ind ticks induction =>
    have duration : 0 < d.nextDuration.toNat ∧ d.nextDuration.toNat < 2 ^ 31 := by
      rw [nextDuration]
      split
      · exact durations.2.2
      · exact ⟨durations.1, durations.2.1⟩
    rw [← ticks_eq] at near
    rcases digitalToggleEvent_cases checkEnd near duration.2 with loads | ⟨before, toggles⟩
    · refine ⟨d.digitalToggleEvent, .toggle scheduled func (.load ?_ ?_), ?_⟩
      · rw [loads]
        exact scheduled
      · rw [loads]
      · rw [loads]
    have nearer : ticksAfter (d.waketime + d.nextDuration) d.endTime < ticks := by
      rw [← ticksAfter_self_add d.waketime] at before
      have rebased := ticksAfter_rebase before.le
      rw [ticksAfter_self_add] at rebased
      omega
    rcases induction _ nearer d.digitalToggleEvent (by rw [toggles]; exact scheduled)
      (by rw [toggles]; exact func) (by rw [toggles]; exact checkEnd)
      (by rw [toggles]; exact durations) (by rw [toggles]) (by omega) with
      ⟨atLoad, reaches, atEnd⟩
    refine ⟨atLoad, .toggle scheduled func reaches, ?_⟩
    rw [atEnd, toggles]

end DigitalOut

/-! ## One lemma per event -/

namespace PinRun

variable {run : PinRun} {d : DigitalOut}

theorem Limited.setPwmCycle (limited : run.Limited maxDuration) (short : cycleTicks.toNat < 2 ^ 31)
    (set : run.d.commandSetDigitalOutPwmCycle cycleTicks = .ok d) :
    Limited maxDuration { run with d } := by
  rw [DigitalOut.commandSetDigitalOutPwmCycle] at set
  split at set
  · cases set
    exact { limited with cycle_lt := short, active := fun active => { limited.active active with } }
  · cases set

/-- A setting that may be queued is within the maximum duration of the current one. -/
theorem Watched.queued (watched : run.Watched maxDuration) (half : maxDuration.toNat < 2 ^ 31)
    (lead : ticksAfter run.now clock < 2 ^ 31)
    (notPast : timerIsBefore run.d.endTime clock = false) :
    ticksAfter run.applied run.now ≤ ticksAfter run.applied clock ∧
      ticksAfter run.applied clock ≤ ticksAfter run.applied run.d.endTime := by
  have now_le := watched.now_le.trans watched.waketime_le
  have rebased := ticksAfter_rebase now_le
  have endTime_le := watched.endTime_le
  have near : ticksAfter run.now run.d.endTime < 2 ^ 31 := by omega
  have before_iff := timerIsBefore_iff_ticks near lead
  rw [notPast] at before_iff
  have clock_le : ticksAfter run.now clock ≤ ticksAfter run.now run.d.endTime := by
    have notLt := before_iff.not.mp (by simp)
    omega
  have clock_eq : ticksAfter run.applied clock =
      ticksAfter run.applied run.now + ticksAfter run.now clock := by
    have bound := run.now.toNat_lt
    simp only [ticksAfter_eq] at *
    omega
  omega

section

variable (limited : run.Limited maxDuration)
include limited

theorem Limited.update (positive : maxDuration ≠ 0)
    (updated : run.d.commandUpdateDigitalOut run.now value = .ok d) :
    Limited maxDuration { run with d, applied := run.now } := by
  rw [DigitalOut.commandUpdateDigitalOut] at updated
  split at updated
  · cases updated
  next noQueue =>
    have mq : run.d.mq = [] := by simpa using noQueue
    dsimp only at updated
    split at updated
    · cases updated
      exact { limited with
        pending := fun m isHead => by simp [mq] at isHead
        set := nofun
        loading := fun _ _ => rfl
        toggles := nofun
        active := fun _ => by
          refine ⟨rfl, rfl, ?_, le_rfl, ?_⟩
          · dsimp only
            rw [ticksAfter_self]
            exact Nat.zero_le _
          · dsimp only
            rw [ticksAfter_self_add, limited.maxDuration_eq] }
    next unlimited =>
      cases updated
      have isDefault : (value.toUInt8 != 0) = run.d.defaultOn := by
        rw [limited.maxDuration_eq] at unlimited
        simpa [positive] using unlimited
      exact { limited with
        pending := fun m isHead => by simp [mq] at isHead
        set := nofun
        loading := nofun
        toggles := nofun
        active := fun active => by simp [DigitalOut.Active, isDefault] at active }

variable (half : maxDuration.toNat < 2 ^ 31)
include half

theorem Limited.queue (lead : ticksAfter run.now clock < 2 ^ 31) (short : onTicks.toNat < 2 ^ 31)
    (inOrder : ∀ last, run.d.mq.getLast? = some last → ticksAfter last.waketime clock < 2 ^ 31)
    (queued : run.d.commandQueueDigitalOut clock onTicks = .ok d) :
    Limited maxDuration { run with d } := by
  have on_lt : ∀ m ∈ run.d.mq ++ [⟨clock, onTicks⟩], m.onDuration.toNat < 2 ^ 31 :=
    List.forall_mem_append.mpr ⟨limited.on_lt, List.forall_mem_singleton.mpr short⟩
  have sorted : List.IsChain (fun m next => ticksAfter m.waketime next.waketime < 2 ^ 31)
      (run.d.mq ++ [⟨clock, onTicks⟩]) := by
    apply limited.sorted.append (List.isChain_singleton _)
    intro last isLast next isNext
    cases isNext
    exact inOrder last isLast
  rw [DigitalOut.commandQueueDigitalOut] at queued
  dsimp only at queued
  cases mq : run.d.mq with
  | cons first rest =>
    rw [mq] at queued on_lt sorted
    cases queued
    exact { limited with
      on_lt
      sorted
      pending := fun m isHead => limited.pending m (by rw [mq]; exact isHead)
      active := fun active => { limited.active active with } }
  | nil =>
    rw [mq] at queued on_lt sorted
    rw [if_neg (by simp)] at queued
    split at queued
    · cases queued
    next inTime =>
      have watch : run.d.Active → run.Watched maxDuration ∧
          ticksAfter run.applied run.now ≤ ticksAfter run.applied clock ∧
          ticksAfter run.applied clock ≤ ticksAfter run.applied run.d.endTime ∧
          timerIsBefore run.d.endTime clock = false := by
        intro active
        have watched := limited.active active
        have notPast : timerIsBefore run.d.endTime clock = false := by
          simpa [watched.checkEnd] using inTime
        have range := watched.queued half lead notPast
        exact ⟨watched, range.1, range.2, notPast⟩
      split at queued
      next untilThen =>
        -- The toggle events go on until the new end time.
        rw [Bool.and_eq_true] at untilThen
        cases queued
        have isActive : run.d.Active := .inl untilThen.1
        rcases watch isActive with ⟨watched, now_le, clock_le, notPast⟩
        have endTime_le := watched.endTime_le
        have waketime_le := watched.waketime_le
        have waketimeNear : ticksAfter run.applied run.d.waketime < 2 ^ 31 := by omega
        have before := (timerIsBefore_iff_ticks waketimeNear (by omega)).mp untilThen.2
        exact { limited with
          on_lt
          sorted
          pending := by
            intro m isHead
            cases isHead
            exact ⟨watched.scheduled, rfl, rfl⟩
          loading := by
            intro scheduled load
            have atEnd := limited.loading scheduled load
            rw [atEnd, notPast] at untilThen
            exact absurd untilThen.2 (by simp)
          active := fun _ =>
            ⟨watched.scheduled, rfl, watched.now_le, before.le, by
              dsimp only
              omega⟩ }
      · cases queued
        exact { limited with
          on_lt
          sorted
          pending := by
            intro m isHead
            cases isHead
            exact ⟨rfl, rfl, rfl⟩
          set := nofun
          loading := fun _ _ => rfl
          toggles := nofun
          active := by
            intro active
            rcases watch active with ⟨watched, now_le, clock_le, _⟩
            exact ⟨rfl, rfl, now_le, le_rfl, clock_le.trans watched.endTime_le⟩ }

theorem Limited.wait (notBeyond : run.d.scheduled → ticks ≤ run.d.waketime - run.now) :
    Limited maxDuration { run with now := run.now + ticks } :=
  { limited with
    active := by
      intro active
      have watched := limited.active active
      have ticks_le : ticks.toNat ≤ ticksAfter run.now run.d.waketime := notBeyond watched.scheduled
      have rebased := ticksAfter_rebase watched.now_le
      have now_le := watched.now_le
      have waketime_le := watched.waketime_le
      have endTime_le := watched.endTime_le
      have later : ticksAfter run.applied (run.now + ticks) =
          ticksAfter run.applied run.now + ticks.toNat := ticksAfter_add (by omega)
      have stillBefore : ticksAfter run.applied (run.now + ticks) ≤
          ticksAfter run.applied run.d.waketime := by omega
      exact { watched with now_le := stillBefore } }

theorem Limited.toggle (scheduled : run.d.scheduled) (func : run.d.func = .toggle)
    (due : run.now = run.d.waketime) :
    Limited maxDuration { run with d := run.d.digitalToggleEvent } := by
  rcases limited.toggles scheduled func with ⟨toggling, durations⟩
  have watched := limited.active (.inl toggling)
  have waketime_le := watched.waketime_le
  have endTime_le := watched.endTime_le
  have near : ticksAfter run.d.waketime run.d.endTime < 2 ^ 31 := by
    rw [ticksAfter_rebase waketime_le]
    omega
  have short : run.d.nextDuration.toNat < 2 ^ 31 := by
    rw [DigitalOut.nextDuration]
    split
    · exact durations.2.2.2
    · exact durations.2.1
  rcases DigitalOut.digitalToggleEvent_cases watched.checkEnd near short with
    loads | ⟨before, toggles⟩
  · rw [loads]
    exact { limited with
      set := nofun
      loading := fun _ _ => rfl
      toggles := nofun
      active := fun _ => { watched with
        now_le := by
          rw [due]
          exact waketime_le
        waketime_le := le_rfl } }
  have rebased := ticksAfter_rebase waketime_le
  have later : ticksAfter run.applied (run.d.waketime + run.d.nextDuration) =
      ticksAfter run.applied run.d.waketime + run.d.nextDuration.toNat :=
    ticksAfter_add (by omega)
  rw [toggles]
  exact { limited with
    loading := fun _ load => by
      rw [func] at load
      cases load
    active := fun _ => { watched with
      now_le := by
        rw [due, later]
        exact Nat.le_add_right _ _
      waketime_le := by
        dsimp only
        omega } }

end

structure Loaded (maxDuration : UInt32) (d : DigitalOut) (onDuration : UInt32) : Prop where
  maxDuration_eq : d.maxDuration = maxDuration
  cycle_lt : d.cycleTime.toNat < 2 ^ 31
  on_lt : ∀ m ∈ d.mq, m.onDuration.toNat < 2 ^ 31
  sorted : d.mq.IsChain fun m next => ticksAfter m.waketime next.waketime < 2 ^ 31
  pending : ∀ m, d.mq.head? = some m → d.checkEnd = true ∧ d.endTime = m.waketime
  scheduled : d.scheduled = true
  func : d.func = .load
  toggles : d.toggling = true → onDuration ≠ 0 ∧ onDuration < d.cycleTime
  active : d.Active → d.checkEnd = true ∧ ticksAfter d.waketime d.endTime ≤ maxDuration.toNat

/-- The next event is set up at the end time, unless there is nothing to wait for. -/
theorem Loaded.atEnd (loaded : Loaded maxDuration d onDuration) :
    Limited maxDuration ⟨{ d with waketime := d.endTime }, d.waketime, d.waketime⟩ where
  __ := loaded
  pending := fun m isHead => ⟨loaded.scheduled, loaded.pending m isHead⟩
  set := fun _ => by simp [loaded.func]
  loading := fun _ _ => rfl
  toggles := fun _ toggle => by simp [loaded.func] at toggle
  active := by
    intro active
    rcases loaded.active active with ⟨checkEnd, endTime_le⟩
    refine ⟨loaded.scheduled, checkEnd, ?_, le_rfl, endTime_le⟩
    rw [ticksAfter_self]
    exact Nat.zero_le _

theorem Loaded.scheduleNext (loaded : Loaded maxDuration d onDuration)
    (half : maxDuration.toNat < 2 ^ 31) :
    Limited maxDuration ⟨d.scheduleNext onDuration, d.waketime, d.waketime⟩ := by
  rw [DigitalOut.scheduleNext]
  split
  · split
    next unchecked =>
      have unchecked : d.checkEnd = false := by simpa using unchecked
      exact { loaded with
        pending := fun m isHead => by simpa [unchecked] using loaded.pending m isHead
        set := nofun
        loading := nofun
        toggles := nofun
        active := fun active => by simpa [unchecked] using loaded.active active }
    · exact loaded.atEnd
  next toggling =>
    have toggling : d.toggling := by simpa using toggling
    rcases loaded.active (.inl toggling) with ⟨checkEnd, endTime_le⟩
    rcases loaded.toggles toggling with ⟨nonzero, shorter⟩
    dsimp only
    split
    · exact loaded.atEnd
    next before =>
      have before : timerIsBefore (d.waketime + onDuration) d.endTime := by
        simpa [checkEnd] using before
      have cycle_lt := loaded.cycle_lt
      have shorter : onDuration.toNat < d.cycleTime.toNat := shorter
      have positive : 0 < onDuration.toNat := by
        rw [Nat.pos_iff_ne_zero]
        exact fun zero => nonzero (UInt32.toNat.inj zero)
      have off_eq : (d.cycleTime - onDuration).toNat =
          d.cycleTime.toNat - onDuration.toNat :=
        UInt32.toNat_sub_of_le _ _ shorter.le
      have onTicks := ticksAfter_self_add d.waketime onDuration
      have sooner : onDuration.toNat < ticksAfter d.waketime d.endTime := by
        rw [← onTicks]
        exact (timerIsBefore_iff_ticks (by omega) (by omega)).mp before
      exact { loaded with
        pending := fun m isHead => ⟨loaded.scheduled, loaded.pending m isHead⟩
        set := nofun
        loading := nofun
        toggles := fun _ _ => by
          dsimp only
          refine ⟨toggling, positive, ?_, ?_, ?_⟩
          · omega
          · omega
          · omega
        active := fun _ => by
          refine ⟨loaded.scheduled, checkEnd, ?_, ?_, endTime_le⟩
          · dsimp only
            rw [ticksAfter_self]
            exact Nat.zero_le _
          · dsimp only
            omega }

/-- With a setting queued, the end time is that of the setting, which is not after the one
given. -/
theorem DigitalOut.queuedEnd_of_head (isHead : d.mq.head? = some next)
    (queuedEnd : d.queuedEnd given = .ok endTime) :
    endTime = some next.waketime ∧
      ∀ limit, given = some limit → timerIsBefore limit next.waketime = false := by
  rw [DigitalOut.queuedEnd] at queuedEnd
  cases mq : d.mq with
  | nil =>
    rw [mq] at isHead
    cases isHead
  | cons first rest =>
    rw [mq] at isHead queuedEnd
    cases isHead
    dsimp only at queuedEnd
    split at queuedEnd
    · cases queuedEnd
    next inTime =>
      cases queuedEnd
      refine ⟨rfl, ?_⟩
      rintro limit rfl
      exact Bool.eq_false_iff.mpr inTime

theorem Limited.load (limited : run.Limited maxDuration) (positive : maxDuration ≠ 0)
    (half : maxDuration.toNat < 2 ^ 31) (scheduled : run.d.scheduled)
    (func : run.d.func = .load) (due : run.now = run.d.waketime)
    (loads : run.d.digitalLoadEvent = .ok d) :
    Limited maxDuration { run with d, applied := run.d.waketime } := by
  rw [DigitalOut.digitalLoadEvent] at loads
  cases mq : run.d.mq with
  | nil =>
    rw [mq] at loads
    cases loads
  | cons m rest =>
    rw [mq] at loads
    dsimp only at loads
    have atTime : run.d.waketime = m.waketime := by
      rw [limited.loading scheduled func]
      exact (limited.pending m (by rw [mq]; rfl)).2.2
    have sorted := limited.sorted
    have on_lt := limited.on_lt
    rw [mq] at sorted on_lt
    split at loads
    · cases loads
    next endTime queuedEnd =>
      cases loads
      rw [due]
      refine Loaded.scheduleNext
        { maxDuration_eq := limited.maxDuration_eq
          cycle_lt := limited.cycle_lt
          on_lt := fun m member => on_lt m (List.mem_cons_of_mem _ member)
          sorted := sorted.tail
          pending := ?_
          scheduled
          func
          toggles := ?_
          active := ?_ } half
      · intro next isHead
        rw [(DigitalOut.queuedEnd_of_head isHead queuedEnd).1]
        exact ⟨rfl, rfl⟩
      · simp
      intro active
      have setting : DigitalOut.settingEnd
          { run.d with mq := rest, pin := m.onDuration != 0 } (m.onDuration != 0)
          (m.onDuration != 0 && decide (m.onDuration < run.d.cycleTime)) =
          some (run.d.waketime + maxDuration) := by
        rw [DigitalOut.settingEnd, limited.maxDuration_eq, if_pos]
        rcases active with toggling | notDefault
        · dsimp only at toggling
          simp [toggling, positive]
        · dsimp only at notDefault
          simp [notDefault, positive]
      rw [setting] at queuedEnd
      have limit := ticksAfter_self_add run.d.waketime maxDuration
      cases rest with
      | nil =>
        cases queuedEnd
        exact ⟨rfl, limit.le⟩
      | cons next rest =>
        rcases DigitalOut.queuedEnd_of_head rfl queuedEnd with ⟨rfl, inTime⟩
        have near : ticksAfter run.d.waketime next.waketime < 2 ^ 31 := by
          rw [atTime]
          exact sorted.rel
        have before_iff := timerIsBefore_iff_ticks (limit.trans_lt half) near
        refine ⟨rfl, ?_⟩
        change ticksAfter run.d.waketime next.waketime ≤ _
        rw [← limit, ← not_lt, ← before_iff, inTime _ rfl]
        exact Bool.false_ne_true

theorem Limited.orderedStep (positive : maxDuration ≠ 0) (half : maxDuration.toNat < 2 ^ 31)
    (limited : run.Limited maxDuration) (stepped : run.orderedStep event = some next) :
    next.Limited maxDuration := by
  rw [PinRun.orderedStep, ite_none_right_eq_some, boundedStep, ite_none_right_eq_some] at stepped
  rcases stepped with ⟨inOrder, bounded, stepped⟩
  cases event with
  | setPwmCycle cycleTicks =>
    rw [step, map_eq_some_iff] at stepped
    rcases stepped with ⟨d, set, rfl⟩
    exact limited.setPwmCycle (of_decide_eq_true bounded) (eq_ok_of_toOption set)
  | queue clock onTicks =>
    rw [step, map_eq_some_iff] at stepped
    rcases stepped with ⟨d, queued, rfl⟩
    rw [Bounded, Bool.and_eq_true, decide_eq_true_iff, decide_eq_true_iff] at bounded
    refine limited.queue half bounded.1 bounded.2 ?_ (eq_ok_of_toOption queued)
    intro last isLast
    rw [InOrder, isLast] at inOrder
    exact of_decide_eq_true inOrder
  | update value =>
    rw [step, map_eq_some_iff] at stepped
    rcases stepped with ⟨d, updated, rfl⟩
    exact limited.update positive (eq_ok_of_toOption updated)
  | timer =>
    rw [step, ite_none_right_eq_some, Bool.and_eq_true, beq_iff_eq] at stepped
    rcases stepped with ⟨⟨scheduled, due⟩, stepped⟩
    split at stepped
    · cases stepped
    next func =>
      cases stepped
      exact limited.toggle half scheduled func due
    next func =>
      rcases map_eq_some_iff.mp stepped with ⟨d, loads, rfl⟩
      exact limited.load positive half scheduled func due (eq_ok_of_toOption loads)
  | wait ticks =>
    rw [step, ite_none_right_eq_some] at stepped
    rcases stepped with ⟨notBeyond, passed⟩
    cases passed
    apply limited.wait half
    intro scheduled
    simpa [scheduled] using notBeyond

theorem initial_limited (value : Bool) (maxDuration now : UInt32) :
    (initial value maxDuration now).Limited maxDuration where
  maxDuration_eq := rfl
  cycle_lt := Nat.two_pow_pos 31
  on_lt := by simp [initial, DigitalOut.commandConfigDigitalOut]
  sorted := List.isChain_nil
  pending := nofun
  set := nofun
  loading := nofun
  toggles := nofun
  active := fun active => by simp [initial, DigitalOut.commandConfigDigitalOut,
    DigitalOut.Active] at active

end PinRun

def DigitalOut.LoadsOrShutsDown (d : DigitalOut) : Prop :=
  (∃ reason, d.digitalLoadEvent = .error reason) ∨
    ∃ m mq loaded, d.mq = m :: mq ∧ d.digitalLoadEvent = .ok loaded ∧ loaded.mq = mq ∧
      loaded.pin = (m.onDuration != 0)

theorem DigitalOut.loadsOrShutsDown (d : DigitalOut) : d.LoadsOrShutsDown := by
  cases result : d.digitalLoadEvent with
  | error reason => exact .inl ⟨reason, result⟩
  | ok loaded =>
    have loads := result
    rw [digitalLoadEvent] at loads
    cases mq : d.mq with
    | nil =>
      rw [mq] at loads
      cases loads
    | cons m rest =>
      rw [mq] at loads
      dsimp only at loads
      split at loads
      · cases loads
      · cases loads
        refine .inr ⟨m, rest, _, mq, result, ?_⟩
        rw [scheduleNext]
        dsimp only
        split
        · split <;> exact ⟨rfl, rfl⟩
        · split <;> exact ⟨rfl, rfl⟩

/-- In every run without a shutdown whose settings are queued in the order of their times:
while the pin is toggling or away from its default level, the load event that follows is
scheduled at most the maximum duration after the setting was applied, and it loads a
setting or shuts down; no more than that time has passed. -/
theorem max_duration_enforced (value : Bool) (maxDuration start : UInt32)
    (positive : 0 < maxDuration) (half : maxDuration < 0x80000000)
    (events : List DigitalEvent) (final : PinRun)
    (ran : runEvents PinRun.orderedStep (.initial value maxDuration start) events = some final)
    (active : final.d.Active) :
    (∃ atLoad, final.d.ReachesLoad atLoad ∧
      ticksAfter final.applied atLoad.waketime ≤ maxDuration.toNat ∧
      atLoad.LoadsOrShutsDown) ∧
    ticksAfter final.applied final.now ≤ maxDuration.toNat := by
  have nonzero : maxDuration ≠ 0 := by
    rintro rfl
    exact absurd positive (by decide)
  have limited : final.Limited maxDuration :=
    runEvents_invariant (fun _ _ _ before stepped => before.orderedStep nonzero half stepped)
      (PinRun.initial_limited value maxDuration start) ran
  have watched := limited.active active
  have waketime_le := watched.waketime_le
  have endTime_le := watched.endTime_le
  have half : maxDuration.toNat < 2 ^ 31 := half
  refine ⟨?_, watched.now_le.trans (waketime_le.trans endTime_le)⟩
  have reaches : ∃ atLoad, final.d.ReachesLoad atLoad ∧
      atLoad.waketime = final.d.endTime := by
    cases func : final.d.func with
    | unset => exact absurd func (limited.set watched.scheduled)
    | load =>
      exact ⟨final.d, .load watched.scheduled func, limited.loading watched.scheduled func⟩
    | toggle =>
      have durations := (limited.toggles watched.scheduled func).2
      have rebased := ticksAfter_rebase waketime_le
      exact DigitalOut.reachesLoad_of_toggle _ final.d watched.scheduled func
        watched.checkEnd durations rfl (by omega)
  rcases reaches with ⟨atLoad, reaches, atEnd⟩
  refine ⟨atLoad, reaches, ?_, atLoad.loadsOrShutsDown⟩
  rw [atEnd]
  exact endTime_le

def pwmSettings : List DigitalEvent :=
  [.setPwmCycle 200, .queue 1000 100, .queue 1800 0, .wait 1000, .timer, .wait 100, .timer]

theorem max_duration_enforced_pwm :
    ∃ final, runEvents PinRun.orderedStep (.initial false 1000 0) pwmSettings = some final ∧
      final.d.Active ∧ ticksAfter final.applied final.now ≤ 1000 := by
  refine exists_of_observed (·.d.toggling) true (by decide +kernel) fun final ran toggling => ?_
  exact ⟨.inl toggling, (max_duration_enforced false 1000 0 (by decide)
    (by decide) pwmSettings final ran (.inl toggling)).2⟩

def backwardSettings : List DigitalEvent :=
  [.setPwmCycle 200, .queue 0x7ffffff5 100, .queue 0 50, .wait 0x7ffffff5, .timer, .wait 100,
    .timer]

/-- A setting queued behind one that is nearly half a turn later defeats the check: the pin
still toggles 100 ticks after the setting, with a maximum duration of 10 ticks. -/
theorem max_duration_exceeded :
    (runEvents PinRun.boundedStep (.initial false 10 0) backwardSettings).map
        (fun final => (final.d.toggling, ticksAfter final.applied final.now,
          final.d.func, ticksAfter final.applied final.d.waketime)) =
      some (true, 100, .toggle, 200) := by
  decide +kernel

end CentauriCarbon.Outputs
