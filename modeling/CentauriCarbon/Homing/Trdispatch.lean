import CentauriCarbon.Foundation.LeastTwo
import Mathlib.Data.Rat.Floor

/-! # Dispatch of synchronized triggers on the host

During a homing move the host reads the `trsync_state` messages of several
micro-controllers. It extends their timeouts as long as all of them report, and passes a
trigger on to all of them. The times, `double` in the source, are rational numbers.
-/

namespace CentauriCarbon.Homing

structure ClockEstimate where
  lastClock : UInt64
  convClock : UInt64
  convTime : ℚ
  estFreq : ℚ

def truncate (value : ℚ) : ℤ :=
  if 0 ≤ value then ⌊value⌋ else ⌈value⌉

namespace ClockEstimate

def clockFromClock32 (ce : ClockEstimate) (clock32 : UInt32) : UInt64 :=
  ce.lastClock + UInt64.ofInt (clock32 - ce.lastClock.toUInt32).toInt32.toInt

def clockToTime (ce : ClockEstimate) (clock : UInt64) : ℚ :=
  ce.convTime + (clock - ce.convClock).toInt64.toInt / ce.estFreq

def clockFromTime (ce : ClockEstimate) (time : ℚ) : UInt64 :=
  UInt64.ofInt (truncate ((time - ce.convTime) * ce.estFreq + 1 / 2)) + ce.convClock

end ClockEstimate

def never : ℚ := 9999999999999999

structure TrdispatchMcu where
  trsyncOid : UInt32
  setTimeoutMsgtag : UInt32
  triggerMsgtag : UInt32
  lastStatusClock : UInt64
  expireClock : UInt64
  expireTicks : UInt64
  minExtendTicks : UInt64
  ce : ClockEstimate

def TrdispatchMcu.statusTime (m : TrdispatchMcu) : ℚ := m.ce.clockToTime m.lastStatusClock

inductive DispatchMessage where
  | trsyncTrigger (place : ℕ) (msg : List UInt32)
  | trsyncSetTimeout (place : ℕ) (msg : List UInt32) (reqClock : UInt64)
  deriving DecidableEq

/-- A `trsync_state` message of the micro-controller at a place, and the clock estimate of
its serial queue. A message that cannot be parsed is none of these; it is ignored. -/
structure StateMessage where
  place : ℕ
  oid : UInt32
  canTrigger : UInt32
  clock : UInt32
  clockEst : ClockEstimate

structure Trdispatch where
  mcus : List TrdispatchMcu
  isActive : Bool
  canTrigger : Bool
  dispatchReason : UInt32

def Trdispatch.start (td : Trdispatch) (dispatchReason : UInt32) : Trdispatch :=
  if td.isActive || td.mcus.isEmpty then td
  else { td with dispatchReason, isActive := true, canTrigger := true }

def sendTrsyncTrigger (dispatchReason : UInt32) (place : ℕ) (tdm : TrdispatchMcu) :
    DispatchMessage :=
  .trsyncTrigger place [tdm.triggerMsgtag, tdm.trsyncOid, dispatchReason]

def sendTrsyncSetTimeout (place : ℕ) (tdm : TrdispatchMcu) : DispatchMessage :=
  .trsyncSetTimeout place [tdm.setTimeoutMsgtag, tdm.trsyncOid, tdm.expireClock.toUInt32]
    tdm.expireClock

def statusTimes (mcus : List TrdispatchMcu) : List (ℕ × ℚ) :=
  mcus.mapIdx fun place m => (place, m.statusTime)

def expireFrom (found : LeastTwo ℕ ℚ) (place : ℕ) (m : TrdispatchMcu) : UInt64 :=
  m.ce.clockFromTime (found.other never place) + m.expireTicks

/-- The timeout of one micro-controller is extended if needed. The C comparison of a signed
with an unsigned number is unsigned. -/
def extendTimeout (found : LeastTwo ℕ ℚ) (place : ℕ) (m : TrdispatchMcu) :
    TrdispatchMcu × List DispatchMessage :=
  let expire := expireFrom found place m
  if m.minExtendTicks ≤ expire - m.expireClock then
    let m := { m with expireClock := expire }
    (m, [sendTrsyncSetTimeout place m])
  else (m, [])

def recordStatus (mcus : List TrdispatchMcu) (place : ℕ) (tdm : TrdispatchMcu)
    (clock : UInt32) (clockEst : ClockEstimate) : List TrdispatchMcu :=
  mcus.set place { tdm with ce := clockEst, lastStatusClock := clockEst.clockFromClock32 clock }

structure Handled where
  reported : List TrdispatchMcu
  sent : List DispatchMessage

def Trdispatch.handleTrsyncState (td : Trdispatch) (message : StateMessage) :
    Trdispatch × Handled :=
  match td.mcus[message.place]? with
  | none => (td, ⟨td.mcus, []⟩)
  | some tdm =>
    if message.oid ≠ tdm.trsyncOid then (td, ⟨td.mcus, []⟩)
    else if !td.canTrigger then (td, ⟨td.mcus, []⟩)
    else if message.canTrigger = 0 then
      ({ td with canTrigger := false },
        ⟨td.mcus, td.mcus.mapIdx (sendTrsyncTrigger td.dispatchReason)⟩)
    else
      let mcus := recordStatus td.mcus message.place tdm message.clock message.clockEst
      let found := LeastTwo.scan never (statusTimes mcus)
      let extended := mcus.mapIdx (extendTimeout found)
      ({ td with mcus := extended.map Prod.fst }, ⟨mcus, extended.flatMap Prod.snd⟩)

namespace Trdispatch

def after (td : Trdispatch) : List StateMessage → Trdispatch
  | [] => td
  | message :: messages => (td.handleTrsyncState message).1.after messages

def rounds (td : Trdispatch) : List StateMessage → List Handled
  | [] => []
  | message :: messages =>
    (td.handleTrsyncState message).2 :: (td.handleTrsyncState message).1.rounds messages

end Trdispatch

/-! ## Clocks and times -/

theorem truncate_mono (le : first ≤ second) : truncate first ≤ truncate second := by
  rw [truncate, truncate]
  split
  next nonneg =>
    rw [if_pos (nonneg.trans le)]
    exact Int.floor_le_floor le
  next negative =>
    have ceil_le_zero : ⌈first⌉ ≤ 0 := Int.ceil_nonpos.mpr (not_le.mp negative).le
    split
    next nonneg => exact ceil_le_zero.trans (Int.floor_nonneg.mpr nonneg)
    · exact Int.ceil_le_ceil le

theorem ofInt_toNat (clock : UInt64) : UInt64.ofInt clock.toNat = clock := by
  have bound := clock.toNat_lt
  have reduced : (clock.toNat : ℤ) % 2 ^ 64 = clock.toNat := by omega
  rw [UInt64.ofInt, reduced]
  simp

namespace ClockEstimate

/-- The clock of a time, as a number without bound. -/
def clockAt (ce : ClockEstimate) (time : ℚ) : ℤ :=
  truncate ((time - ce.convTime) * ce.estFreq + 1 / 2) + ce.convClock.toNat

theorem clockAt_mono {ce : ClockEstimate} (increasing : 0 < ce.estFreq) (le : first ≤ second) :
    ce.clockAt first ≤ ce.clockAt second := by
  have truncated := truncate_mono (add_le_add_left
    (mul_le_mul_of_nonneg_right (sub_le_sub_right le ce.convTime) increasing.le) (1 / 2))
  rw [clockAt, clockAt]
  omega

end ClockEstimate

/-! ## What the handler can do -/

def LeastOther (mcus : List TrdispatchMcu) (place : ℕ) (time : ℚ) : Prop :=
  (mcus.length = 1 → mcus.map TrdispatchMcu.statusTime = [time]) ∧
  (1 < mcus.length → IsLeast { status | ∃ other m, other ≠ place ∧ mcus[other]? = some m ∧
    m.statusTime = status } time)

theorem mem_statusTimes :
    entry ∈ statusTimes mcus ↔ ∃ m, mcus[entry.1]? = some m ∧ m.statusTime = entry.2 := by
  rw [statusTimes, List.mem_mapIdx]
  constructor
  · rintro ⟨place, bound, rfl⟩
    exact ⟨mcus[place], List.getElem?_eq_getElem bound, rfl⟩
  · rintro ⟨m, found, status⟩
    rcases List.getElem?_eq_some_iff.mp found with ⟨bound, isMcu⟩
    exact ⟨entry.1, bound, by rw [isMcu, status]⟩

theorem map_statusTimes (mcus : List TrdispatchMcu) :
    (statusTimes mcus).map Prod.fst = List.range mcus.length ∧
      (statusTimes mcus).map Prod.snd = mcus.map TrdispatchMcu.statusTime := by
  constructor
  all_goals
    apply List.ext_getElem
    · simp [statusTimes]
    · intro place _ _
      simp [statusTimes]

/-- The pass over the micro-controllers finds what each timeout is computed from. -/
theorem leastOther_scan (found : mcus[place]? = some m) (early : ∀ m ∈ mcus, m.statusTime < never) :
    LeastOther mcus place ((LeastTwo.scan never (statusTimes mcus)).other never place) := by
  have member : (place, m.statusTime) ∈ statusTimes mcus := mem_statusTimes.mpr ⟨m, found, rfl⟩
  have below : ∀ entry ∈ statusTimes mcus, entry.2 < never := by
    intro entry isEntry
    rcases mem_statusTimes.mp isEntry with ⟨other, isMcu, status⟩
    rw [← status]
    exact early other (List.mem_of_getElem? isMcu)
  have length : (statusTimes mcus).length = mcus.length := List.length_mapIdx
  rcases map_statusTimes mcus with ⟨places, statuses⟩
  have nodup : ((statusTimes mcus).map Prod.fst).Nodup := places ▸ List.nodup_range
  rcases LeastTwo.other_scan nodup below member with ⟨alone, own⟩ | least
  · constructor
    · intro _
      rw [own, ← statuses, alone]
      rfl
    · intro several
      rw [← length, alone] at several
      exact absurd several (by simp)
  have same : { value | ∃ other ∈ statusTimes mcus, other.1 ≠ place ∧ other.2 = value } =
      { status | ∃ other m, other ≠ place ∧ mcus[other]? = some m ∧ m.statusTime = status } := by
    ext status
    constructor
    · rintro ⟨other, isEntry, notPlace, rfl⟩
      rcases mem_statusTimes.mp isEntry with ⟨m, isMcu, value⟩
      exact ⟨other.1, m, notPlace, isMcu, value⟩
    · rintro ⟨other, m, notPlace, isMcu, value⟩
      exact ⟨(other, status), mem_statusTimes.mpr ⟨m, isMcu, value⟩, notPlace, rfl⟩
  rw [same] at least
  constructor
  · intro single
    rcases least.1 with ⟨other, m, notPlace, isMcu, _⟩
    have otherBound := (List.getElem?_eq_some_iff.mp isMcu).1
    have placeBound := (List.getElem?_eq_some_iff.mp found).1
    omega
  · intro _
    exact least

namespace Trdispatch

inductive Handles (td : Trdispatch) (message : StateMessage) :
    Trdispatch → Handled → Prop where
  | ignored
      (unaddressed : td.canTrigger = true → ∀ tdm, td.mcus[message.place]? = some tdm →
        message.oid ≠ tdm.trsyncOid) : Handles td message td ⟨td.mcus, []⟩
  | triggered (isOn : td.canTrigger = true) (trigger : message.canTrigger = 0) :
      Handles td message { td with canTrigger := false }
        ⟨td.mcus, td.mcus.mapIdx (sendTrsyncTrigger td.dispatchReason)⟩
  | extended {tdm : TrdispatchMcu} {mcus : List TrdispatchMcu}
      {extended : List (TrdispatchMcu × List DispatchMessage)}
      (isOn : td.canTrigger = true) (well : message.canTrigger ≠ 0)
      (isMcu : td.mcus[message.place]? = some tdm)
      (recorded : mcus = recordStatus td.mcus message.place tdm message.clock message.clockEst)
      (extends_eq : extended =
        mcus.mapIdx (extendTimeout (LeastTwo.scan never (statusTimes mcus)))) :
      Handles td message { td with mcus := extended.map Prod.fst }
        ⟨mcus, extended.flatMap Prod.snd⟩

theorem handles (td : Trdispatch) (message : StateMessage) :
    td.Handles message (td.handleTrsyncState message).1 (td.handleTrsyncState message).2 := by
  rw [handleTrsyncState]
  split
  next noMcu =>
    apply Handles.ignored
    intro _ tdm isMcu
    rw [noMcu] at isMcu
    cases isMcu
  next tdm isMcu =>
    split
    next otherOid =>
      apply Handles.ignored
      intro _ found isFound
      rw [isMcu] at isFound
      cases isFound
      exact otherOid
    · split
      next isOff =>
        apply Handles.ignored
        intro isOn
        simp [isOn] at isOff
      next isOn =>
        have isOn : td.canTrigger := by simpa using isOn
        split
        next trigger => exact Handles.triggered isOn trigger
        next well => exact Handles.extended isOn well isMcu rfl rfl

end Trdispatch

end CentauriCarbon.Homing
