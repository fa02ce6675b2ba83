import CentauriCarbon.Scheduler.TimerList
import Mathlib.Algebra.Order.Ring.Int
import Mathlib.Data.List.Nodup

/-! # Sorted timer lists

Waketimes wrap around. Seen from an origin that no timer lies before, they are ordered by
the number of ticks that pass until they are reached, and `timer_is_before` agrees with
this order as long as no timer is `2^31` ticks or more away.
-/

namespace CentauriCarbon.Scheduler

open Function List

/-- The ticks from the origin until the time is reached. -/
def ticksAfter (origin time : UInt32) : ℕ := (time - origin).toNat

theorem ticksAfter_eq (origin time : UInt32) :
    ticksAfter origin time = (2 ^ 32 - origin.toNat + time.toNat) % 2 ^ 32 :=
  UInt32.toNat_sub time origin

theorem ticksAfter_self (origin : UInt32) : ticksAfter origin origin = 0 := by
  rw [ticksAfter, UInt32.sub_self]
  rfl

theorem timerIsBefore_iff (time1 time2 : UInt32) :
    timerIsBefore time1 time2 ↔ 2 ^ 31 ≤ ticksAfter time2 time1 := by
  rw [timerIsBefore, decide_eq_true_iff, Int32.lt_iff_toInt_lt]
  change (time1 - time2).toBitVec.toInt < 0 ↔ _
  rw [BitVec.toInt_neg_iff]
  change 2 ^ 32 ≤ 2 * ticksAfter time2 time1 ↔ _
  omega

/-- `timer_is_before` between times that are both less than half a turn away. -/
theorem timerIsBefore_iff_ticks (near1 : ticksAfter origin time1 < 2 ^ 31)
    (near2 : ticksAfter origin time2 < 2 ^ 31) :
    timerIsBefore time1 time2 ↔ ticksAfter origin time1 < ticksAfter origin time2 := by
  have bound2 := time2.toNat_lt
  rw [timerIsBefore_iff]
  simp only [ticksAfter_eq] at *
  omega

theorem timerIsBefore_sentinel_iff (near : ticksAfter origin time < 2 ^ 31)
    (limitNear : ticksAfter origin limit < 2 ^ 31) :
    timerIsBefore time (limit + 0x80000000) ↔ ticksAfter origin limit ≤ ticksAfter origin time := by
  have sum : (limit + 0x80000000).toNat = (limit.toNat + 0x80000000) % 2 ^ 32 :=
    UInt32.toNat_add _ _
  rw [timerIsBefore_iff]
  simp only [ticksAfter_eq] at *
  omega

theorem ticksAfter_rebase (ordered : ticksAfter origin later ≤ ticksAfter origin time) :
    ticksAfter later time = ticksAfter origin time - ticksAfter origin later := by
  have laterBound := later.toNat_lt
  simp only [ticksAfter_eq] at *
  omega

theorem ticksAfter_self_add (origin ticks : UInt32) :
    ticksAfter origin (origin + ticks) = ticks.toNat := by
  rw [ticksAfter, UInt32.add_comm, UInt32.add_sub_cancel]

theorem ticksAfter_add (small : ticksAfter origin time + ticks.toNat < 2 ^ 32) :
    ticksAfter origin (time + ticks) = ticksAfter origin time + ticks.toNat := by
  have sum : (time + ticks).toNat = (time.toNat + ticks.toNat) % 2 ^ 32 := UInt32.toNat_add _ _
  simp only [ticksAfter_eq] at *
  omega

/-! ## Chains that end in the sentinel -/

structure Chained (next : TimerId → Option TimerId) (timers : List TimerId) : Prop where
  linked : Linked next (timers ++ [TimerId.sentinel])
  ends : next .sentinel = none
  nodup : timers.Nodup
  noSentinel : .sentinel ∉ timers

namespace Chained

variable {next : TimerId → Option TimerId} {timers : List TimerId}

theorem head_notMem (chained : Chained next (t :: timers)) : t ∉ timers :=
  (nodup_cons.mp chained.nodup).1

theorem tail (chained : Chained next (t :: timers)) : Chained next timers where
  linked := chained.linked.tail
  ends := chained.ends
  nodup := (nodup_cons.mp chained.nodup).2
  noSentinel := fun member => chained.noSentinel (mem_cons_of_mem _ member)

theorem next_head (chained : Chained next (t :: timers)) :
    next t = (timers ++ [TimerId.sentinel]).head? := by
  cases timers with
  | nil | cons => exact chained.linked.next_eq

section

variable (chained : Chained next timers)
include chained

theorem ne_sentinel (member : t ∈ timers) : t ≠ .sentinel :=
  ne_of_mem_of_not_mem member chained.noSentinel

theorem nodup_all : (timers ++ [TimerId.sentinel]).Nodup := by
  rw [nodup_append]
  refine ⟨chained.nodup, nodup_singleton _, ?_⟩
  intro timer member other isSentinel
  rw [mem_singleton.mp isSentinel]
  exact chained.ne_sentinel member

theorem update_of_notMem (notMem : t ∉ timers) (notSentinel : t ≠ .sentinel)
    (value : Option TimerId) : Chained (update next t value) timers :=
  { chained with
    linked := by
      apply chained.linked.update_of_notMem
      simp [notMem, notSentinel]
    ends := by
      rw [update_of_ne notSentinel.symm]
      exact chained.ends }

theorem cons (notMem : t ∉ timers) (notSentinel : t ≠ .sentinel)
    (points : next t = (timers ++ [TimerId.sentinel]).head?) : Chained next (t :: timers) where
  linked := by
    cases timers with
    | nil | cons => exact Linked.cons points chained.linked
  ends := chained.ends
  nodup := nodup_cons.mpr ⟨notMem, chained.nodup⟩
  noSentinel := by
    rw [mem_cons, not_or]
    exact ⟨notSentinel.symm, chained.noSentinel⟩

end

variable {before after : List TimerId} {prev : TimerId}

theorem insert (chained : Chained next (before ++ prev :: after))
    (notMem : t ∉ before ++ prev :: after) (notSentinel : t ≠ .sentinel)
    (first : (after ++ [TimerId.sentinel]).head? = some pos) :
    Chained (update (update next t (some pos)) prev (some t))
      (before ++ prev :: t :: after) := by
  have linked := chained.linked
  have nodup := chained.nodup_all
  have prevNotSentinel : prev ≠ .sentinel := chained.ne_sentinel (by simp)
  constructor
  · rw [append_assoc, cons_append] at linked nodup ⊢
    apply linked.insert nodup _ first
    have outside : t ∉ before ++ prev :: after ++ [TimerId.sentinel] := by
      simpa [notSentinel] using notMem
    rwa [append_assoc, cons_append] at outside
  · rw [update_of_ne prevNotSentinel.symm, update_of_ne notSentinel.symm]
    exact chained.ends
  · rw [append_cons]
    apply nodup_middle.mpr
    rw [append_assoc, singleton_append]
    exact nodup_cons.mpr ⟨notMem, chained.nodup⟩
  · have outside := chained.noSentinel
    simp only [mem_append, mem_cons, not_or] at outside ⊢
    exact ⟨outside.1, outside.2.1, notSentinel.symm, outside.2.2⟩

theorem unlink (chained : Chained next (before ++ prev :: t :: after)) :
    Chained (update next prev (next t)) (before ++ prev :: after) := by
  have linked := chained.linked
  have nodup := chained.nodup_all
  have shorter : (before ++ prev :: after).Sublist (before ++ prev :: t :: after) :=
    (Sublist.refl before).append ((sublist_cons_self t after).cons_cons prev)
  have prevNotSentinel : prev ≠ .sentinel := chained.ne_sentinel (by simp)
  constructor
  · rw [append_assoc, cons_append] at linked nodup ⊢
    exact linked.unlink nodup
  · rw [update_of_ne prevNotSentinel.symm]
    exact chained.ends
  · exact chained.nodup.sublist shorter
  · exact fun member => chained.noSentinel (shorter.subset member)

end Chained

structure Ordered (waketime : TimerId → UInt32) (origin : UInt32) (timers : List TimerId) :
    Prop where
  near : ∀ timer ∈ timers, ticksAfter origin (waketime timer) < 2 ^ 31
  sorted : timers.Pairwise fun first second =>
    ticksAfter origin (waketime first) ≤ ticksAfter origin (waketime second)

namespace Ordered

variable {waketime : TimerId → UInt32} {origin : UInt32} {timers : List TimerId}

section

variable (ordered : Ordered waketime origin timers)
include ordered

theorem sublist (shorter : fewer.Sublist timers) : Ordered waketime origin fewer where
  near := fun timer member => ordered.near timer (shorter.subset member)
  sorted := ordered.sorted.sublist shorter

theorem congr (same : ∀ timer ∈ timers, other timer = waketime timer) :
    Ordered other origin timers where
  near := by
    intro timer member
    rw [same timer member]
    exact ordered.near timer member
  sorted := by
    apply ordered.sorted.imp_of_mem
    intro first second firstMem secondMem before
    rw [same first firstMem, same second secondMem]
    exact before

theorem update_of_notMem (notMem : t ∉ timers) (time : UInt32) :
    Ordered (update waketime t time) origin timers := by
  apply ordered.congr
  intro timer member
  exact update_of_ne (ne_of_mem_of_not_mem member notMem) time waketime

theorem cons (near : ticksAfter origin (waketime t) < 2 ^ 31)
    (first : ∀ timer ∈ timers, ticksAfter origin (waketime t) ≤
      ticksAfter origin (waketime timer)) : Ordered waketime origin (t :: timers) where
  near := forall_mem_cons.mpr ⟨near, ordered.near⟩
  sorted := pairwise_cons.mpr ⟨first, ordered.sorted⟩

end

theorem head_le (ordered : Ordered waketime origin (t :: timers)) :
    ∀ timer ∈ timers, ticksAfter origin (waketime t) ≤ ticksAfter origin (waketime timer) :=
  (pairwise_cons.mp ordered.sorted).1

theorem rebase (ordered : Ordered waketime origin (t :: timers)) :
    Ordered waketime (waketime t) timers where
  near := by
    intro timer member
    have near := ordered.near timer (mem_cons_of_mem _ member)
    rw [ticksAfter_rebase (ordered.head_le timer member)]
    omega
  sorted := by
    have sorted := (pairwise_cons.mp ordered.sorted).2
    apply sorted.imp_of_mem
    intro first second firstMem secondMem before
    rw [ticksAfter_rebase (ordered.head_le first firstMem),
      ticksAfter_rebase (ordered.head_le second secondMem)]
    omega

theorem insert {before after : List TimerId}
    (ordered : Ordered waketime origin (before ++ after))
    (near : ticksAfter origin (waketime t) < 2 ^ 31)
    (earlier : ∀ timer ∈ before,
      ticksAfter origin (waketime timer) ≤ ticksAfter origin (waketime t))
    (later : ∀ timer ∈ after, ticksAfter origin (waketime t) ≤ ticksAfter origin (waketime timer)) :
    Ordered waketime origin (before ++ t :: after) where
  near := by
    have allNear := ordered.near
    rw [forall_mem_append] at allNear ⊢
    exact ⟨allNear.1, forall_mem_cons.mpr ⟨near, allNear.2⟩⟩
  sorted := by
    have sorted := ordered.sorted
    rw [pairwise_append] at sorted ⊢
    refine ⟨sorted.1, pairwise_cons.mpr ⟨later, sorted.2.1⟩, fun first member => ?_⟩
    exact forall_mem_cons.mpr ⟨earlier first member, sorted.2.2 first member⟩

end Ordered

/-! ## Finding the place of a timer -/

structure PlaceFor (waketime : TimerId → UInt32) (origin time : UInt32)
    (timers before : List TimerId) (prev : TimerId) (after : List TimerId) (found : TimerId) :
    Prop where
  split : timers = before ++ prev :: after
  first : (after ++ [TimerId.sentinel]).head? = some found
  earlier : ∀ timer ∈ before ++ [prev], ticksAfter origin (waketime timer) ≤ ticksAfter origin time
  later : ∀ timer ∈ after, ticksAfter origin time < ticksAfter origin (waketime timer)

/-- The walk of `insert_timer` from a timer that is not later than the new waketime. -/
theorem walk_from_timer {next : TimerId → Option TimerId} {waketime : TimerId → UInt32}
    (earlier : List TimerId) (chained : Chained next (earlier ++ pos :: timers))
    (ordered : Ordered waketime origin (earlier ++ pos :: timers))
    (near : ticksAfter origin time < 2 ^ 31)
    (notLater : ticksAfter origin (waketime pos) ≤ ticksAfter origin time)
    (stops : ∃ timer ∈ timers ++ [TimerId.sentinel], timerIsBefore time (waketime timer))
    (enough : timers.length < fuel) : ∃ before prev after found,
      PlaceFor waketime origin time (earlier ++ pos :: timers) before prev after found ∧
      walk next (fun pos => timerIsBefore time (waketime pos)) fuel pos = .found prev found := by
  have linked : Linked next (pos :: (timers ++ [TimerId.sentinel])) := by
    have whole := chained.linked
    rw [append_assoc, cons_append] at whole
    exact (isChain_split.mp whole).2
  rcases linked.walk_found stops enough with
    ⟨front, prev, skipped, after, found, ends, split, first, passes, atFound, walked⟩
  subst split
  have whole : earlier ++ pos :: (skipped ++ after) = earlier ++ front ++ prev :: after := by
    rw [← cons_append, ← ends]
    simp
  have sorted := pairwise_append.mp ordered.sorted
  refine ⟨earlier ++ front, prev, after, found, ⟨whole, first, ?_, ?_⟩, walked⟩
  · rw [append_assoc, ends]
    intro timer member
    rcases mem_append.mp member with isEarlier | member
    · exact (sorted.2.2 timer isEarlier pos mem_cons_self).trans notLater
    rcases mem_cons.mp member with rfl | wasSkipped
    · exact notLater
    have timerNear := ordered.near timer (by simp [wasSkipped])
    have passed := passes timer wasSkipped
    rw [← Bool.not_eq_true, timerIsBefore_iff_ticks near timerNear] at passed
    exact Nat.le_of_not_lt passed
  cases after with
  | nil => simp
  | cons follower after =>
    cases first
    have foundNear := ordered.near found (by simp)
    rw [timerIsBefore_iff_ticks near foundNear] at atFound
    rw [whole] at ordered
    have behind : Ordered waketime origin (found :: after) :=
      ordered.sublist ((sublist_cons_self prev _).trans (sublist_append_right _ _))
    exact forall_mem_cons.mpr ⟨atFound, fun timer member =>
      Nat.lt_of_lt_of_le atFound (behind.head_le timer member)⟩

/-- Some timer behind `pos`, or the sentinel, stops the walk of `insert_timer`. -/
theorem exists_stop {waketime : TimerId → UInt32} (earlier : List TimerId)
    (ordered : Ordered waketime origin (earlier ++ pos :: timers))
    (near : ticksAfter origin time < 2 ^ 31)
    (notLater : ticksAfter origin (waketime pos) ≤ ticksAfter origin time)
    (periodic : .periodic ∈ earlier ++ pos :: timers)
    (sentinel_eq : waketime .sentinel = waketime .periodic + 0x80000000) :
    ∃ timer ∈ timers ++ [TimerId.sentinel], timerIsBefore time (waketime timer) := by
  have limitNear := ordered.near _ periodic
  by_cases reached : ticksAfter origin (waketime .periodic) ≤ ticksAfter origin time
  · refine ⟨.sentinel, by simp, ?_⟩
    rw [sentinel_eq]
    exact (timerIsBefore_sentinel_iff near limitNear).mpr reached
  refine ⟨.periodic, ?_, ?_⟩
  · have sorted := pairwise_append.mp ordered.sorted
    rcases mem_append.mp periodic with isEarlier | member
    · have before := sorted.2.2 _ isEarlier pos mem_cons_self
      omega
    rcases mem_cons.mp member with same | behind
    · rw [same] at reached
      exact absurd notLater reached
    · exact mem_append_left _ behind
  · exact (timerIsBefore_iff_ticks near limitNear).mpr (Nat.lt_of_not_le reached)

end CentauriCarbon.Scheduler
