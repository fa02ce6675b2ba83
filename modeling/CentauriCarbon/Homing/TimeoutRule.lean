import CentauriCarbon.Homing.Trdispatch

/-! # The timeout rule of homing with several micro-controllers

A timeout is never extended on the strength of a micro-controller's own reports, and a
trigger reaches every micro-controller once.
-/

namespace CentauriCarbon.Homing

open List

def Handled.Timeout (round : Handled) (place : ℕ) (msg : List UInt32) (reqClock : UInt64)
    (m : TrdispatchMcu) (time : ℚ) : Prop :=
  round.reported[place]? = some m ∧ LeastOther round.reported place time ∧
  reqClock = m.ce.clockFromTime time + m.expireTicks ∧
  msg = [m.setTimeoutMsgtag, m.trsyncOid, reqClock.toUInt32]

/-- The timeouts sent in a round, except to the silent micro-controller, are computed from a
time that is not past its last status time, nor is the clock of that time. -/
def Handled.BoundedBy (round : Handled) (silent : ℕ) (status : ℚ) : Prop :=
  ∀ place msg reqClock, place ≠ silent →
    .trsyncSetTimeout place msg reqClock ∈ round.sent →
    ∃ m time, round.Timeout place msg reqClock m time ∧ time ≤ status ∧
      reqClock = UInt64.ofInt (m.ce.clockAt time + m.expireTicks.toNat) ∧
      m.ce.clockAt time ≤ m.ce.clockAt status

def Handled.Early (round : Handled) : Prop := ∀ m ∈ round.reported, m.statusTime < never

instance (round : Handled) : Decidable round.Early :=
  inferInstanceAs (Decidable (∀ m ∈ round.reported, m.statusTime < never))

namespace Trdispatch.Handles

variable {td next : Trdispatch} {message : StateMessage} {round : Handled}

section

variable (handles : td.Handles message next round)
include handles

/-- A timeout is sent to a micro-controller if it passes the test against the one before. -/
theorem timeout_passes (sent : .trsyncSetTimeout place msg reqClock ∈ round.sent) :
    ∃ m, round.reported[place]? = some m ∧
      reqClock = expireFrom (LeastTwo.scan never (statusTimes round.reported)) place m ∧
      msg = [m.setTimeoutMsgtag, m.trsyncOid, reqClock.toUInt32] ∧
      m.minExtendTicks ≤ reqClock - m.expireClock := by
  cases handles with
  | ignored => simp at sent
  | triggered =>
    rcases mem_mapIdx.mp sent with ⟨place, _, isTrigger⟩
    cases isTrigger
  | @extended tdm mcus extended _ _ _ _ extends_eq =>
    rw [extends_eq] at sent
    rcases mem_flatMap.mp sent with ⟨entry, isEntry, sent⟩
    rcases mem_mapIdx.mp isEntry with ⟨sentPlace, bound, rfl⟩
    rw [extendTimeout] at sent
    split at sent
    next passes =>
      cases mem_singleton.mp sent
      exact ⟨mcus[place], getElem?_eq_getElem bound, rfl, rfl, passes⟩
    · simp at sent

theorem timeout (early : round.Early) (sent : .trsyncSetTimeout place msg reqClock ∈ round.sent) :
    ∃ m time, round.Timeout place msg reqClock m time := by
  rcases handles.timeout_passes sent with ⟨m, isM, clock_eq, msg_eq, -⟩
  exact ⟨m, _, isM, leastOther_scan isM early, clock_eq, msg_eq⟩

theorem reported_getElem? (place : ℕ) : round.reported[place]? = td.mcus[place]? ∨
      message.place = place ∧ ∃ tdm lastStatusClock, td.mcus[place]? = some tdm ∧
        round.reported[place]? = some { tdm with ce := message.clockEst, lastStatusClock } := by
  cases handles with
  | ignored => exact .inl rfl
  | triggered => exact .inl rfl
  | @extended tdm mcus _ _ _ isMcu recorded _ =>
    rw [recorded, recordStatus]
    by_cases own : message.place = place
    · right
      rw [own] at isMcu ⊢
      have bound := (List.getElem?_eq_some_iff.mp isMcu).1
      exact ⟨rfl, tdm, _, isMcu, getElem?_set_self bound⟩
    · left
      exact getElem?_set_ne own

theorem next_getElem? (place : ℕ) : next.mcus[place]? = round.reported[place]? ∨
      ∃ m expireClock, round.reported[place]? = some m ∧
        next.mcus[place]? = some { m with expireClock } := by
  cases handles with
  | ignored => exact .inl rfl
  | triggered => exact .inl rfl
  | @extended tdm mcus _ _ _ _ _ extends_eq =>
    rw [extends_eq, getElem?_map, getElem?_mapIdx]
    cases found : mcus[place]? with
    | none => exact .inl rfl
    | some m =>
      right
      simp only [Option.map_some, extendTimeout]
      split
      · exact ⟨m, _, rfl, rfl⟩
      · exact ⟨m, m.expireClock, rfl, rfl⟩

end

theorem view_eq {View : Type} (view : TrdispatchMcu → View)
    (timeoutFree : ∀ m expireClock, view { m with expireClock } = view m)
    (handles : td.Handles message next round)
    (statusFree : message.place = place → ∀ m ce lastStatusClock,
      view { m with ce, lastStatusClock } = view m) :
    round.reported[place]?.map view = td.mcus[place]?.map view ∧
      next.mcus[place]?.map view = td.mcus[place]?.map view := by
  have reported : round.reported[place]?.map view = td.mcus[place]?.map view := by
    rcases handles.reported_getElem? place with same | ⟨own, tdm, _, isMcu, recorded⟩
    · rw [same]
    · rw [isMcu, recorded, Option.map_some, Option.map_some, statusFree own]
  refine ⟨reported, ?_⟩
  rw [← reported]
  rcases handles.next_getElem? place with same | ⟨m, _, isMcu, extended⟩
  · rw [same]
  · rw [isMcu, extended, Option.map_some, Option.map_some, timeoutFree]

variable (handles : td.Handles message next round)
include handles

theorem triggers_eq (dispatchReason : UInt32) :
    next.mcus.mapIdx (sendTrsyncTrigger dispatchReason) =
      td.mcus.mapIdx (sendTrsyncTrigger dispatchReason) := by
  apply ext_getElem?
  intro place
  rw [getElem?_mapIdx, getElem?_mapIdx]
  exact (handles.view_eq (sendTrsyncTrigger dispatchReason place) (fun _ _ => rfl)
    (fun _ _ _ _ => rfl)).2

theorem increasing (before : ∀ m ∈ td.mcus, 0 < m.ce.estFreq)
    (estimate : 0 < message.clockEst.estFreq) :
    (∀ m ∈ round.reported, 0 < m.ce.estFreq) ∧ ∀ m ∈ next.mcus, 0 < m.ce.estFreq := by
  have reported : ∀ m ∈ round.reported, 0 < m.ce.estFreq := by
    intro m member
    rcases mem_iff_getElem?.mp member with ⟨place, isMcu⟩
    rcases handles.reported_getElem? place with same | ⟨_, tdm, clock, _, recorded⟩
    · rw [same] at isMcu
      exact before m (mem_of_getElem? isMcu)
    · rw [recorded] at isMcu
      cases isMcu
      exact estimate
  refine ⟨reported, ?_⟩
  intro m member
  rcases mem_iff_getElem?.mp member with ⟨place, isMcu⟩
  rcases handles.next_getElem? place with same | ⟨old, expireClock, isOld, extended⟩
  · rw [same] at isMcu
    exact reported m (mem_of_getElem? isMcu)
  · rw [extended] at isMcu
    cases isMcu
    exact reported old (mem_of_getElem? isOld)

theorem dispatchReason_eq : next.dispatchReason = td.dispatchReason := by
  cases handles <;> rfl

theorem canTrigger_of_well (well : message.canTrigger ≠ 0) : next.canTrigger = td.canTrigger := by
  cases handles with
  | ignored => rfl
  | triggered _ trigger => exact absurd trigger well
  | extended => rfl

theorem quiet_of_off (off : td.canTrigger = false) : next.canTrigger = false ∧ round.sent = [] := by
  cases handles with
  | ignored => exact ⟨off, rfl⟩
  | triggered isOn => simp [off] at isOn
  | extended isOn => simp [off] at isOn

theorem trigger_sent (isOn : td.canTrigger) (isMcu : td.mcus[message.place]? = some tdm)
    (addressed : message.oid = tdm.trsyncOid) (trigger : message.canTrigger = 0) :
    next.canTrigger = false ∧
      round.sent = td.mcus.mapIdx (sendTrsyncTrigger td.dispatchReason) := by
  cases handles with
  | ignored unaddressed => exact absurd addressed (unaddressed isOn tdm isMcu)
  | triggered => exact ⟨rfl, rfl⟩
  | extended _ well => exact absurd trigger well

end Trdispatch.Handles

namespace Trdispatch

/-- What every handled message keeps holds after all of them, and what it gives holds of
every round. -/
theorem run_rule (invariant : Trdispatch → Prop) (property : Handled → Prop)
    (step : ∀ td, invariant td → ∀ message ∈ messages, ∀ next round,
      td.Handles message next round → invariant next ∧ property round) (td : Trdispatch)
    (holds : invariant td) :
    invariant (td.after messages) ∧ ∀ round ∈ td.rounds messages, property round := by
  induction messages generalizing td with
  | nil => exact ⟨holds, by simp [rounds]⟩
  | cons message messages induction =>
    have first := step td holds message (by simp) _ _ (td.handles message)
    have rest := induction (fun td holds later isLater =>
      step td holds later (mem_cons_of_mem _ isLater)) _ first.1
    refine ⟨rest.1, ?_⟩
    intro round member
    rw [rounds, mem_cons] at member
    rcases member with rfl | later
    · exact first.2
    · exact rest.2 round later

variable (td : Trdispatch)

theorem handles_of_mem_rounds {round : Handled} (isRound : round ∈ td.rounds messages) :
    ∃ before message next, Handles before message next round :=
  (run_rule (fun _ => True) (fun round => ∃ before message next, Handles before message next round)
    (fun td _ message _ next _ handles => ⟨trivial, td, message, next, handles⟩) td trivial).2 round
    isRound

theorem rounds_append (before later : List StateMessage) :
    td.rounds (before ++ later) = td.rounds before ++ (td.after before).rounds later := by
  induction before generalizing td with
  | nil => rfl
  | cons message before induction => simp [rounds, after, induction]

/-- Once a micro-controller is silent, its last status time bounds the others' timeouts. -/
theorem silent_bounds (messages : List StateMessage) (increasing : ∀ m ∈ td.mcus, 0 < m.ce.estFreq)
    (estimates : ∀ message ∈ messages, 0 < message.clockEst.estFreq)
    (isMcu : td.mcus[silent]? = some tdm)
    (isSilent : ∀ message ∈ messages, message.place ≠ silent) :
    ∀ round ∈ td.rounds messages, round.Early → round.BoundedBy silent tdm.statusTime := by
  have stays : td.mcus[silent]?.map TrdispatchMcu.statusTime = some tdm.statusTime := by
    rw [isMcu]
    rfl
  refine (run_rule (fun td => (∀ m ∈ td.mcus, 0 < m.ce.estFreq) ∧
    td.mcus[silent]?.map TrdispatchMcu.statusTime = some tdm.statusTime)
    (fun round => round.Early → round.BoundedBy silent tdm.statusTime) ?_ td
    ⟨increasing, stays⟩).2
  rintro td ⟨increasing, stays⟩ message isMessage next round handles
  have positive := handles.increasing increasing (estimates message isMessage)
  have status := handles.view_eq TrdispatchMcu.statusTime (fun _ _ => rfl)
    (fun own => absurd own (isSilent message isMessage))
  rw [stays] at status
  refine ⟨⟨positive.2, status.2⟩, ?_⟩
  intro early place msg reqClock notSilent sent
  rcases handles.timeout early sent with ⟨m, time, timeout⟩
  have isM := timeout.1
  rcases Option.map_eq_some_iff.mp status.1 with ⟨reported, isReported, statusTime⟩
  have several : 1 < round.reported.length := by
    have placeBound := (List.getElem?_eq_some_iff.mp isM).1
    have silentBound := (List.getElem?_eq_some_iff.mp isReported).1
    omega
  have time_le : time ≤ tdm.statusTime :=
    (timeout.2.1.2 several).2 ⟨silent, reported, notSilent.symm, isReported, statusTime⟩
  refine ⟨m, time, timeout, time_le, ?_,
    ClockEstimate.clockAt_mono (positive.1 m (mem_of_getElem? isM)) time_le⟩
  rw [timeout.2.2.1, ClockEstimate.clockFromTime, ClockEstimate.clockAt, UInt64.ofInt_add,
    UInt64.ofInt_add, ofInt_toNat, ofInt_toNat]

theorem start_eq {td : Trdispatch} (inactive : td.isActive = false) (present : td.mcus ≠ [])
    (dispatchReason : UInt32) :
    td.start dispatchReason = { td with dispatchReason, isActive := true, canTrigger := true } := by
  rw [start, if_neg (by simp [inactive, present])]

end Trdispatch

/-- After `trdispatch_start`, whatever the micro-controllers report and in whatever order:
each timeout that is sent is computed from the least status time of the others; a
micro-controller that stops reporting bounds all later timeouts of the others; the first
report of a trigger is passed on to each of them once, and then nothing more is sent. -/
theorem timeout_rule (td : Trdispatch) (inactive : td.isActive = false)
    (present : td.mcus ≠ []) (dispatchReason : UInt32) (messages : List StateMessage)
    (increasing : (∀ m ∈ td.mcus, 0 < m.ce.estFreq) ∧
      ∀ message ∈ messages, 0 < message.clockEst.estFreq)
    (early : ∀ round ∈ (td.start dispatchReason).rounds messages, round.Early) :
    (∀ round ∈ (td.start dispatchReason).rounds messages, ∀ place msg reqClock,
      .trsyncSetTimeout place msg reqClock ∈ round.sent →
      ∃ m time, round.Timeout place msg reqClock m time) ∧
    (∀ before later, messages = before ++ later →
      ∀ silent tdm, ((td.start dispatchReason).after before).mcus[silent]? = some tdm →
      (∀ message ∈ later, message.place ≠ silent) →
      ∀ round ∈ ((td.start dispatchReason).after before).rounds later,
        round.BoundedBy silent tdm.statusTime) ∧
    ∀ before message later, messages = before ++ message :: later →
      (∀ earlier ∈ before, earlier.canTrigger ≠ 0) → message.canTrigger = 0 →
      (∃ tdm, ((td.start dispatchReason).after before).mcus[message.place]? = some tdm ∧
        message.oid = tdm.trsyncOid) →
      (((td.start dispatchReason).after before).handleTrsyncState message).2.sent =
          td.mcus.mapIdx (sendTrsyncTrigger dispatchReason) ∧
        ∀ round ∈ (((td.start dispatchReason).after before).handleTrsyncState
          message).1.rounds later, round.sent = [] := by
  rw [Trdispatch.start_eq inactive present] at early ⊢
  refine ⟨?_, ?_, ?_⟩
  · intro round isRound place msg reqClock sent
    rcases Trdispatch.handles_of_mem_rounds _ isRound with ⟨_, _, _, handles⟩
    exact handles.timeout (early round isRound) sent
  · rintro before later rfl silent tdm isMcu isSilent round isRound
    rw [Trdispatch.rounds_append] at early
    have reached := (Trdispatch.run_rule (fun td => ∀ m ∈ td.mcus, 0 < m.ce.estFreq)
      (fun _ => True) (fun td before message isMessage _ _ handles =>
        ⟨(handles.increasing before
          (increasing.2 message (mem_append_left _ isMessage))).2, trivial⟩)
      { td with dispatchReason, isActive := true, canTrigger := true } increasing.1).1
    exact Trdispatch.silent_bounds _ later reached
      (fun message isMessage => increasing.2 message (mem_append_right _ isMessage))
      isMcu isSilent round isRound (early round (mem_append_right _ isRound))
  · rintro before message later - well trigger addressed
    have reached := (Trdispatch.run_rule (fun reached => reached.canTrigger = true ∧
        reached.dispatchReason = dispatchReason ∧
        reached.mcus.mapIdx (sendTrsyncTrigger dispatchReason) =
          td.mcus.mapIdx (sendTrsyncTrigger dispatchReason)) (fun _ => True)
      (fun reached holds earlier isEarlier next round handles =>
        ⟨⟨(handles.canTrigger_of_well (well earlier isEarlier)).trans holds.1,
          handles.dispatchReason_eq.trans holds.2.1,
          (handles.triggers_eq _).trans holds.2.2⟩, trivial⟩)
      { td with dispatchReason, isActive := true, canTrigger := true } ⟨rfl, rfl, rfl⟩).1
    rcases addressed with ⟨tdm, isMcu, oid⟩
    have sent := (Trdispatch.handles _ message).trigger_sent reached.1 isMcu oid trigger
    rw [reached.2.1, reached.2.2] at sent
    refine ⟨sent.2, ?_⟩
    exact (Trdispatch.run_rule (fun td => td.canTrigger = false) (fun round => round.sent = [])
      (fun td off _ _ _ _ handles => handles.quiet_of_off off) _ sent.1).2

def twoMcus : Trdispatch where
  mcus := [⟨1, 20, 21, 1000, 1250, 250, 50, ⟨1000, 0, 0, 1000⟩⟩,
    ⟨2, 20, 21, 1000, 1250, 250, 50, ⟨1000, 0, 0, 1000⟩⟩]
  isActive := false
  canTrigger := false
  dispatchReason := 0

def twoReports : List StateMessage :=
  [⟨0, 1, 1, 1200, ⟨1200, 0, 0, 1000⟩⟩, ⟨1, 2, 1, 1210, ⟨1210, 0, 0, 1000⟩⟩,
    ⟨0, 1, 1, 1400, ⟨1400, 0, 0, 1000⟩⟩, ⟨0, 1, 0, 1500, ⟨1500, 0, 0, 1000⟩⟩]

theorem timeout_rule_two_mcus :
    ((twoMcus.start 4).rounds twoReports).map Handled.sent =
      [[.trsyncSetTimeout 1 [20, 2, 1450] 1450], [.trsyncSetTimeout 0 [20, 1, 1460] 1460],
        [.trsyncSetTimeout 1 [20, 2, 1650] 1650],
        [.trsyncTrigger 0 [21, 1, 4], .trsyncTrigger 1 [21, 2, 4]]] ∧
    ∀ round ∈ (twoMcus.start 4).rounds twoReports, ∀ place msg reqClock,
      .trsyncSetTimeout place msg reqClock ∈ round.sent →
      ∃ m time, round.Timeout place msg reqClock m time :=
  ⟨by decide +kernel, (timeout_rule twoMcus rfl (by decide) 4 twoReports
    ⟨by decide +kernel, by decide +kernel⟩ (by decide +kernel)).1⟩

/-! ## Timeouts that move -/

/-- Every timeout sent in a round stands in a relation to the micro-controller it goes to, as
it was before. -/
def Handled.Timeouts (round : Handled) (relation : TrdispatchMcu → UInt64 → Prop) : Prop :=
  ∀ place msg reqClock, .trsyncSetTimeout place msg reqClock ∈ round.sent →
    ∃ m, round.reported[place]? = some m ∧ relation m reqClock

def TrdispatchMcu.Extends (m : TrdispatchMcu) (reqClock : UInt64) : Prop :=
  m.expireClock.toNat + m.minExtendTicks.toNat ≤ reqClock.toNat

/-- No expire clock is past the clock that a status time of another micro-controller gives. -/
def Ahead (mcus : List TrdispatchMcu) : Prop :=
  ∀ m ∈ mcus.zipIdx, ∀ other ∈ mcus.zipIdx, m.2 ≠ other.2 ∨ mcus.length = 1 →
    m.1.expireClock ≤ m.1.ce.clockFromTime other.1.statusTime + m.1.expireTicks

instance (mcus : List TrdispatchMcu) : Decidable (Ahead mcus) :=
  inferInstanceAs (Decidable (∀ m ∈ _, ∀ other ∈ _, _ → _))

/-- Before every message of a run, with the status that it reports. -/
def StaysAhead (td : Trdispatch) : List StateMessage → Prop
  | [] => True
  | message :: messages =>
    (∀ tdm ∈ td.mcus[message.place]?,
      Ahead (recordStatus td.mcus message.place tdm message.clock message.clockEst)) ∧
    StaysAhead (td.handleTrsyncState message).1 messages

instance instDecidableStaysAhead : (td : Trdispatch) → (messages : List StateMessage) →
    Decidable (StaysAhead td messages)
  | _, [] => .isTrue trivial
  | td, message :: messages =>
    have := instDecidableStaysAhead (td.handleTrsyncState message).1 messages
    inferInstanceAs (Decidable (_ ∧ _))

theorem Trdispatch.Handles.extends {td next : Trdispatch} {round : Handled}
    (handles : td.Handles message next round) (early : round.Early)
    (ahead : ∀ tdm ∈ td.mcus[message.place]?,
      Ahead (recordStatus td.mcus message.place tdm message.clock message.clockEst)) :
    round.Timeouts TrdispatchMcu.Extends := by
  intro place msg reqClock sent
  rcases handles.timeout_passes sent with ⟨m, isM, clock_eq, -, passes⟩
  refine ⟨m, isM, ?_⟩
  have least := leastOther_scan isM early
  have bound := (List.getElem?_eq_some_iff.mp isM).1
  have isAhead : Ahead round.reported := by
    cases handles with
    | ignored => simp at sent
    | triggered =>
      rcases mem_mapIdx.mp sent with ⟨place, _, isTrigger⟩
      cases isTrigger
    | extended _ _ isMcu recorded =>
      rw [recorded]
      exact ahead _ isMcu
  have member : (m, place) ∈ round.reported.zipIdx := mk_mem_zipIdx_iff_getElem?.mpr isM
  have notEarlier : m.expireClock ≤ reqClock := by
    rw [clock_eq, expireFrom]
    generalize (LeastTwo.scan never (statusTimes round.reported)).other never place = time
      at least ⊢
    by_cases alone : round.reported.length = 1
    · have own := least.1 alone
      have isOnly := mem_of_getElem? isM
      rcases length_eq_one_iff.mp alone with ⟨only, reported_eq⟩
      rw [reported_eq, mem_singleton] at isOnly
      rw [reported_eq, map_singleton, ← isOnly, cons.injEq] at own
      rw [← own.1]
      exact isAhead (m, place) member (m, place) member (Or.inr alone)
    · rcases (least.2 (by omega)).1 with ⟨other, found, notPlace, isFound, status⟩
      rw [← status]
      exact isAhead (m, place) member (found, other) (mk_mem_zipIdx_iff_getElem?.mpr isFound)
        (Or.inl notPlace.symm)
  -- the difference is unsigned, and the extension only if the new clock is not the earlier one
  rw [UInt64.le_iff_toNat_le, UInt64.toNat_sub_of_le _ _ notEarlier] at passes
  rw [UInt64.le_iff_toNat_le] at notEarlier
  rw [TrdispatchMcu.Extends]
  omega

/-- Over every run in which no expire clock is ahead of the status times, each timeout is an
extension by at least `min_extend_ticks`. -/
theorem timeouts_extend (td : Trdispatch) (messages : List StateMessage)
    (early : ∀ round ∈ td.rounds messages, round.Early) (ahead : StaysAhead td messages) :
    ∀ round ∈ td.rounds messages, round.Timeouts TrdispatchMcu.Extends := by
  induction messages generalizing td with
  | nil => simp [Trdispatch.rounds]
  | cons message messages induction =>
    rw [Trdispatch.rounds, forall_mem_cons] at early ⊢
    exact ⟨(td.handles message).extends early.1 ahead.1, induction _ early.2 ahead.2⟩

theorem timeouts_extend_two_mcus : StaysAhead (twoMcus.start 4) twoReports ∧
    ∀ round ∈ (twoMcus.start 4).rounds twoReports, round.Timeouts TrdispatchMcu.Extends := by
  have ahead : StaysAhead (twoMcus.start 4) twoReports := by decide +kernel
  exact ⟨ahead, timeouts_extend (twoMcus.start 4) twoReports (by decide +kernel) ahead⟩

/-- The clock estimate of the second micro-controller is corrected to a higher frequency, so
that its status time moves back and with it the timeout of the first, from 1250 to 1167. -/
theorem timeout_moves_back :
    ((twoMcus.start 4).rounds [⟨1, 2, 1, 1100, ⟨1100, 0, 0, 1200⟩⟩]).map Handled.sent =
      [[.trsyncSetTimeout 0 [20, 1, 1167] 1167, .trsyncSetTimeout 1 [20, 2, 1450] 1450]] ∧
    ¬ ∀ round ∈ (twoMcus.start 4).rounds [⟨1, 2, 1, 1100, ⟨1100, 0, 0, 1200⟩⟩],
      round.Timeouts TrdispatchMcu.Extends := by
  refine ⟨by decide +kernel, ?_⟩
  intro extending
  rcases extending _ (mem_singleton_self _) 0 [20, 1, 1167] 1167 (by decide +kernel) with
    ⟨m, isM, later⟩
  cases isM
  rw [TrdispatchMcu.Extends] at later
  exact absurd later (by decide)

end CentauriCarbon.Homing
