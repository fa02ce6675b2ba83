import CentauriCarbon.Foundation.EventRun
import CentauriCarbon.Scheduler.TimerOrder

/-! # The uptime of the micro-controller

The micro-controller reads the low word of its tick counter only. `stats_update` remembers the
word at which statistics were last sent and counts the times it wrapped; `command_get_uptime`
answers with both words of the counter.
-/

namespace CentauriCarbon.Clock

open Scheduler (timerIsBefore ticksAfter timerIsBefore_iff ticksAfter_eq)

structure Stats where
  count : UInt32
  sum : UInt32
  sumsq : UInt32
  statsSendTime : UInt32
  statsSendTimeHigh : UInt32
  deriving DecidableEq

structure StatsMessage where
  count : UInt32
  sum : UInt32
  sumsq : UInt32

structure Uptime where
  high : UInt32
  clock : UInt32

def sumsqBase : UInt32 := 256

def divRoundUp (n d : UInt32) : UInt32 := (n + d - 1) / d

def nextSumsq (sumsq diff : UInt32) : UInt32 :=
  let next :=
    if diff ≤ 0xffff then sumsq + divRoundUp (diff * diff) sumsqBase
    else if diff ≤ 0xfffff then sumsq + divRoundUp diff sumsqBase * diff
    else 0xffffffff
  if next < sumsq then 0xffffffff else next

def statsUpdate (fiveSeconds : UInt32) (stats : Stats) (start cur : UInt32) :
    Option StatsMessage × Stats :=
  let diff := cur - start
  let stats := { stats with
    count := stats.count + 1
    sum := stats.sum + diff
    sumsq := nextSumsq stats.sumsq diff }
  if timerIsBefore cur (stats.statsSendTime + fiveSeconds) then (none, stats)
  else
    (some ⟨stats.count, stats.sum, stats.sumsq⟩,
      { count := 0
        sum := 0
        sumsq := 0
        statsSendTime := cur
        statsSendTimeHigh :=
          if cur < stats.statsSendTime then stats.statsSendTimeHigh + 1
          else stats.statsSendTimeHigh })

def commandGetUptime (stats : Stats) (cur : UInt32) : Uptime where
  high := stats.statsSendTimeHigh + if cur < stats.statsSendTime then 1 else 0
  clock := cur

/-- The statistics with the true number of ticks since power-up, now and when `stats_update`
last ran. -/
structure Mcu where
  time : Nat
  updated : Nat
  stats : Stats
  deriving DecidableEq

def Mcu.powerUp : Mcu := ⟨0, 0, ⟨0, 0, 0, 0, 0⟩⟩

inductive McuEvent where
  | tick (count : Nat)
  | statsUpdate (start : UInt32)

def Mcu.timerReadTime (mcu : Mcu) : UInt32 := .ofNat mcu.time

/-- One event. Time passes no further than to the next run of `stats_update`, which is due five
seconds before half a turn of the counter is over. -/
def mcuStep (fiveSeconds : UInt32) (mcu : Mcu) : McuEvent → Option Mcu
  | .tick count =>
    if mcu.time + count ≤ mcu.updated + (2 ^ 31 - fiveSeconds.toNat) then
      some { mcu with time := mcu.time + count }
    else none
  | .statsUpdate start =>
    some { mcu with
      updated := mcu.time
      stats := (statsUpdate fiveSeconds mcu.stats start mcu.timerReadTime).2 }

structure Mcu.Dated (fiveSeconds : UInt32) (mcu : Mcu) (sent : Nat) : Prop where
  sendTime : mcu.stats.statsSendTime = .ofNat sent
  sendTimeHigh : mcu.stats.statsSendTimeHigh = .ofNat (sent / 2 ^ 32)
  sent_le : sent ≤ mcu.updated
  updated_le : mcu.updated ≤ mcu.time
  time_lt : mcu.time < sent + 2 ^ 31
  recent : mcu.updated = sent ∨ mcu.updated < sent + fiveSeconds.toNat

section Dated

variable {fiveSeconds : UInt32} {mcu : Mcu} {sent : Nat}

/-- A word that is less than a turn older has wrapped exactly if it is greater. -/
theorem highWord_add_carry (ordered : earlier ≤ now) (near : now < earlier + 2 ^ 32) :
    (UInt32.ofNat (earlier / 2 ^ 32) +
        if UInt32.ofNat now < UInt32.ofNat earlier then 1 else 0) =
      UInt32.ofNat (now / 2 ^ 32) := by
  apply UInt32.toNat_inj.mp
  split
  next wrapped =>
    rw [UInt32.lt_iff_toNat_lt, UInt32.toNat_ofNat', UInt32.toNat_ofNat'] at wrapped
    rw [UInt32.toNat_add, UInt32.toNat_ofNat', UInt32.toNat_ofNat']
    change (_ + 1) % _ = _
    omega
  next same =>
    rw [UInt32.lt_iff_toNat_lt, UInt32.toNat_ofNat', UInt32.toNat_ofNat'] at same
    rw [UInt32.add_zero, UInt32.toNat_ofNat', UInt32.toNat_ofNat']
    omega

theorem Mcu.dated_powerUp (fiveSeconds : UInt32) : Mcu.powerUp.Dated fiveSeconds 0 where
  sendTime := rfl
  sendTimeHigh := rfl
  sent_le := le_rfl
  updated_le := le_rfl
  time_lt := by decide
  recent := .inl rfl

variable (dated : mcu.Dated fiveSeconds sent)
include dated

theorem Mcu.Dated.tick (positive : 0 < fiveSeconds) {count : Nat} {next : Mcu}
    (stepped : mcuStep fiveSeconds mcu (.tick count) = some next) :
    next.Dated fiveSeconds sent := by
  have ticks : 0 < fiveSeconds.toNat := UInt32.lt_iff_toNat_lt.mp positive
  have updated_le := dated.updated_le
  have time_lt := dated.time_lt
  rcases Option.ite_none_right_eq_some.mp stepped with ⟨inTime, ⟨⟩⟩
  exact { dated with
    updated_le := Nat.le_add_right_of_le updated_le
    time_lt := by
      dsimp only
      rcases dated.recent with same | recent <;> omega }

/-- `stats_update` runs: it stores the words of the present time, or leaves them for later. -/
theorem Mcu.Dated.statsUpdate (start : UInt32) : ∃ nextSent, Mcu.Dated fiveSeconds
      { mcu with
        updated := mcu.time
        stats := (statsUpdate fiveSeconds mcu.stats start mcu.timerReadTime).2 } nextSent := by
  have near := dated.time_lt
  have ordered := le_trans dated.sent_le dated.updated_le
  by_cases early : timerIsBefore mcu.timerReadTime (mcu.stats.statsSendTime + fiveSeconds)
  · refine ⟨sent, ?_⟩
    rw [Clock.statsUpdate, if_pos early]
    exact { dated with
      sent_le := ordered
      updated_le := le_rfl
      recent := by
        -- five seconds have not passed
        rw [timerIsBefore_iff, ticksAfter_eq, dated.sendTime, Mcu.timerReadTime, UInt32.toNat_add,
          UInt32.toNat_ofNat', UInt32.toNat_ofNat'] at early
        right
        dsimp only
        omega }
  refine ⟨mcu.time, ?_⟩
  rw [Clock.statsUpdate, if_neg early]
  have carried := highWord_add_carry ordered (lt_of_lt_of_le near (by omega))
  rw [← dated.sendTime, ← dated.sendTimeHigh] at carried
  exact {
    sendTime := rfl
    sendTimeHigh := by
      rw [← carried]
      change (if mcu.timerReadTime < mcu.stats.statsSendTime then _ else _) =
        _ + if mcu.timerReadTime < mcu.stats.statsSendTime then _ else _
      by_cases wrapped : mcu.timerReadTime < mcu.stats.statsSendTime
      · rw [if_pos wrapped, if_pos wrapped]
      · rw [if_neg wrapped, if_neg wrapped, UInt32.add_zero]
    sent_le := le_rfl
    updated_le := le_rfl
    time_lt := by
      dsimp only
      omega
    recent := .inl rfl }

end Dated

theorem uptime_of_run {fiveSeconds : UInt32} (positive : 0 < fiveSeconds) {mcu : Mcu}
    (ran : runEvents (mcuStep fiveSeconds) .powerUp events = some mcu) :
    (commandGetUptime mcu.stats mcu.timerReadTime).high = .ofNat (mcu.time / 2 ^ 32) := by
  have tracked : ∃ sent, mcu.Dated fiveSeconds sent := by
    have start : ∃ sent, Mcu.powerUp.Dated fiveSeconds sent := ⟨0, Mcu.dated_powerUp fiveSeconds⟩
    have kept : ∀ mcu event next, (∃ sent, mcu.Dated fiveSeconds sent) →
        mcuStep fiveSeconds mcu event = some next → ∃ sent, next.Dated fiveSeconds sent := by
      rintro mcu event next ⟨sent, dated⟩ stepped
      cases event with
      | tick count => exact ⟨sent, dated.tick positive stepped⟩
      | statsUpdate start =>
        cases stepped
        exact dated.statsUpdate start
    exact runEvents_invariant kept start ran
  rcases tracked with ⟨sent, dated⟩
  have near := dated.time_lt
  rw [commandGetUptime, dated.sendTime, dated.sendTimeHigh]
  apply highWord_add_carry
  · exact le_trans dated.sent_le dated.updated_le
  · omega

end CentauriCarbon.Clock
