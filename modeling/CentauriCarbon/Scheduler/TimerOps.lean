import CentauriCarbon.Scheduler.TimerOrder

/-! # The operations on the timer list

Adding and deleting from a task keep the list sorted. So does a dispatch, whose callback
runs while its own timer is still the first of the list.
-/

namespace CentauriCarbon.Scheduler

open Function List

structure Listed (sched : Sched) (origin : UInt32) (timers : List TimerId) : Prop where
  chained : Chained sched.next timers
  ordered : Ordered sched.waketime origin timers
  head : timers.head? = some sched.timerList
  deleted_first : .deleted ∉ timers.tail
  periodic : .periodic ∈ timers
  sentinel_eq : sched.waketime .sentinel = sched.waketime .periodic + 0x80000000
  hint : sched.lastInsert ∈ timers
  hint_ne : sched.lastInsert ≠ .deleted

theorem Listed.initial : Listed .initial 0 [.periodic] where
  chained := ⟨Linked.cons rfl (isChain_singleton _), rfl, by simp, by simp⟩
  ordered := ⟨by decide, by simp⟩
  head := rfl
  deleted_first := by simp
  periodic := by simp
  sentinel_eq := rfl
  hint := by simp [Sched.initial]
  hint_ne := by decide

variable {timers before after : List TimerId} {prev next : TimerId} {sched : Sched}

theorem Listed.runShutdown (listed : Listed sched origin timers) :
    Listed sched.runShutdown origin [.deleted, .periodic] where
  __ := listed
  chained :=
    { linked := by
        apply Linked.cons
        · rfl
        · exact Linked.cons rfl (isChain_singleton _)
      ends := listed.chained.ends
      nodup := by decide
      noSentinel := by decide }
  ordered := by
    have near := listed.ordered.near _ listed.periodic
    constructor
    · intro timer member
      rcases mem_pair.mp member with rfl | rfl
      · exact near
      · exact near
    · rw [pairwise_pair]
      exact le_rfl
  head := rfl
  deleted_first := by decide
  periodic := by decide
  hint := mem_cons_of_mem _ mem_cons_self
  hint_ne := nofun

theorem filter_ne_of_notMem (outside : del ∉ timers) : timers.filter (· ≠ del) = timers := by
  apply filter_eq_self.mpr
  intro timer member
  exact decide_eq_true (ne_of_mem_of_not_mem member outside)

theorem filter_ne_of_split (nodup : (before ++ prev :: del :: after).Nodup) :
    (before ++ prev :: del :: after).filter (· ≠ del) = before ++ prev :: after := by
  rw [append_cons] at nodup
  have outside := (nodup_cons.mp (nodup_middle.mp nodup)).1
  rw [append_assoc, singleton_append] at outside
  rw [← filter_ne_of_notMem outside]
  simp [filter_append, filter_cons]

/-- The walk of `sched_del_timer` from the first timer, which is another one. -/
theorem removeTimer_behind (chained : Chained sched.next (sched.timerList :: rest))
    (notFirst : sched.timerList ≠ del) (notSentinel : TimerId.sentinel ≠ del)
    (enough : rest.length + 1 < fuel) :
    ∃ next, sched.removeTimer fuel del = some { sched with next } ∧
      Chained next (sched.timerList :: rest.filter (· ≠ del)) ∧
      (∀ timer, timer ∉ sched.timerList :: rest → next timer = sched.next timer) ∧
      (rest.head? ≠ some del → next sched.timerList = sched.next sched.timerList) := by
  have linked : Linked sched.next (sched.timerList :: (rest ++ [TimerId.sentinel])) :=
    chained.linked
  rw [Sched.removeTimer, if_neg notFirst]
  by_cases member : del ∈ rest
  · have stops : ∃ timer ∈ rest ++ [TimerId.sentinel], decide (timer = del) :=
      ⟨del, mem_append_left _ member, decide_eq_true rfl⟩
    rcases linked.walk_found stops (Nat.lt_of_succ_lt enough) with
      ⟨before, prev, skipped, after, found, ends, split, first, passes, atFound, walked⟩
    rw [decide_eq_true_iff] at atFound
    subst atFound
    cases after with
    | nil => exact absurd (Option.some.inj first) notSentinel
    | cons follower after =>
      cases first
      have whole : sched.timerList :: rest = before ++ prev :: found :: after := by
        rw [split, ← cons_append, ← ends]
        simp
      have kept : sched.timerList :: rest.filter (· ≠ found) = before ++ prev :: after := by
        have nodup := chained.nodup
        rw [whole] at nodup
        rw [← filter_ne_of_split nodup, ← whole, filter_cons, if_pos (decide_eq_true notFirst)]
      have prevMem : prev ∈ sched.timerList :: rest := by
        rw [whole]
        simp
      rw [walked]
      refine ⟨_, rfl, ?_, ?_, ?_⟩
      · rw [kept]
        rw [whole] at chained
        exact chained.unlink
      · intro timer outside
        exact update_of_ne (ne_of_mem_of_not_mem prevMem outside).symm _ _
      intro notNext
      apply update_of_ne
      rintro rfl
      apply notNext
      cases before with
      | nil =>
        rw [(cons.inj whole).2]
        rfl
      | cons other before =>
        have again : sched.timerList ∈ rest := by
          rw [(cons.inj whole).2]
          simp
        exact absurd again chained.head_notMem
  · have passes : ∀ timer ∈ rest ++ [TimerId.sentinel], decide (timer = del) = false := by
      intro timer isIn
      rw [decide_eq_false_iff_not]
      rintro rfl
      rcases mem_append.mp isIn with isIn | isIn
      · exact member isIn
      · exact notSentinel (mem_singleton.mp isIn).symm
    rw [linked.walk_ended chained.ends passes enough]
    refine ⟨sched.next, rfl, ?_, fun _ _ => rfl, fun _ => rfl⟩
    rw [filter_ne_of_notMem member]
    exact chained

def hintAfter (hint del : TimerId) : TimerId := if hint = del then .periodic else hint

theorem hintAfter_mem (member : hint ∈ timers) (periodic : .periodic ∈ timers)
    (notPeriodic : .periodic ≠ del) : hintAfter hint del ∈ timers.filter (· ≠ del) := by
  rw [hintAfter]
  split
  · exact mem_filter.mpr ⟨periodic, decide_eq_true notPeriodic⟩
  next other => exact mem_filter.mpr ⟨member, decide_eq_true other⟩

theorem hintAfter_ne (other : hint ≠ .deleted) : hintAfter hint del ≠ .deleted := by
  rw [hintAfter]
  split
  · exact nofun
  · exact other

theorem Listed.schedDelTimer (listed : Listed sched origin timers) (n : ℕ)
    (enough : timers.length < fuel) : ∃ next after, sched.schedDelTimer fuel (.user n) = some next ∧
      Listed next origin after ∧
      ∀ m, .user m ∈ after ↔ .user m ∈ timers ∧ m ≠ n := by
  rcases head?_eq_some_iff.mp listed.head with ⟨rest, rfl⟩
  have deleted_first : .deleted ∉ rest := listed.deleted_first
  by_cases first : sched.timerList = .user n
  · -- The first timer is replaced by `deleted_timer`.
    rw [Sched.schedDelTimer, Sched.removeTimer, if_pos first]
    rw [first] at listed
    have outside : .user n ∉ rest := listed.chained.head_notMem
    have hint := hintAfter_mem listed.hint listed.periodic (nofun : TimerId.periodic ≠ .user n)
    refine ⟨_, .deleted :: rest, rfl, ?_, ?_⟩
    · constructor
      · apply (listed.chained.tail.update_of_notMem deleted_first nofun _).cons deleted_first nofun
        exact listed.chained.next_head
      · apply (((listed.ordered.sublist (sublist_cons_self _ _)).update_of_notMem
          deleted_first _)).cons
        · rw [update_self]
          exact listed.ordered.near _ mem_cons_self
        · intro timer member
          rw [update_self, update_of_ne (ne_of_mem_of_not_mem member deleted_first)]
          exact listed.ordered.head_le timer member
      · rfl
      · exact deleted_first
      · simpa using listed.periodic
      · exact listed.sentinel_eq
      · rw [filter_cons, if_neg (by simp)] at hint
        exact mem_cons_of_mem _ (mem_of_mem_filter hint)
      · exact hintAfter_ne listed.hint_ne
    · intro m
      rw [first]
      by_cases same : m = n
      · simp [same, outside]
      · simp [same]
  · have chained := listed.chained
    rcases removeTimer_behind chained first nofun enough with ⟨next, removed, shorter, -, -⟩
    have kept : sched.timerList :: rest.filter (· ≠ .user n) =
        (sched.timerList :: rest).filter (· ≠ .user n) := by
      rw [filter_cons, if_pos (decide_eq_true first)]
    rw [Sched.schedDelTimer, removed]
    refine ⟨_, sched.timerList :: rest.filter (· ≠ .user n), rfl, ?_, ?_⟩
    · constructor
      · exact shorter
      · exact listed.ordered.sublist (filter_sublist.cons_cons _)
      · rfl
      · exact fun member => deleted_first (mem_of_mem_filter member)
      · rw [kept]
        exact mem_filter.mpr ⟨listed.periodic, rfl⟩
      · exact listed.sentinel_eq
      · rw [kept]
        exact hintAfter_mem listed.hint listed.periodic nofun
      · exact hintAfter_ne listed.hint_ne
    · intro m
      rw [kept, mem_filter]
      simp

/-! ## Adding a timer -/

theorem mem_insert_behind :
    timer ∈ before ++ prev :: new :: after ↔ timer = new ∨ timer ∈ before ++ prev :: after := by
  simp only [mem_append, mem_cons]
  rw [or_left_comm (a := timer = new), or_left_comm (a := timer = new)]

theorem listed_insert (sched : Sched)
    (place : PlaceFor sched.waketime origin (sched.waketime t) timers before prev after found)
    (chained : Chained sched.next timers) (ordered : Ordered sched.waketime origin timers)
    (head : timers.head? = some sched.timerList) (deleted_first : .deleted ∉ timers.tail)
    (fresh : t ∉ timers) (notSentinel : t ≠ .sentinel) (notDeleted : t ≠ .deleted)
    (near : ticksAfter origin (sched.waketime t) < 2 ^ 31) (periodic : .periodic ∈ t :: timers)
    (sentinel_eq : sched.waketime .sentinel = sched.waketime .periodic + 0x80000000)
    (hintMem : hint ∈ t :: timers) (hintNe : hint ≠ .deleted) : Listed { sched with
      next := update (update sched.next t (some found)) prev (some t)
      lastInsert := hint } origin (before ++ prev :: t :: after) := by
  have split := place.split
  subst split
  exact {
    chained := chained.insert fresh notSentinel place.first
    ordered := by
      rw [append_cons] at ordered
      have inserted := ordered.insert near place.earlier fun timer member =>
        (place.later timer member).le
      rwa [append_assoc, singleton_append] at inserted
    head := by
      cases before with
      | nil => exact head
      | cons other before => exact head
    deleted_first := by
      cases before with
      | nil | cons => simpa [notDeleted.symm] using deleted_first
    periodic := mem_insert_behind.mpr (mem_cons.mp periodic)
    sentinel_eq
    hint := mem_insert_behind.mpr (mem_cons.mp hintMem)
    hint_ne := hintNe }

/-- The new list after a timer is put in front of all others, behind `deleted_timer`. -/
theorem listed_front {t : TimerId} (chained : Chained sched.next timers)
    (ordered : Ordered sched.waketime origin timers) (noDeleted : .deleted ∉ timers)
    (fresh : t ∉ timers) (notSentinel : t ≠ .sentinel) (notDeleted : t ≠ .deleted)
    (notPeriodic : t ≠ .periodic) (near : ticksAfter origin (sched.waketime t) < 2 ^ 31)
    (earliest : ∀ timer ∈ timers, ticksAfter origin (sched.waketime t) ≤
      ticksAfter origin (sched.waketime timer))
    (periodic : .periodic ∈ timers)
    (sentinel_eq : sched.waketime .sentinel = sched.waketime .periodic + 0x80000000)
    (hint : sched.lastInsert ∈ timers) : Listed { sched with
      next := update (update sched.next t (timers ++ [TimerId.sentinel]).head?) .deleted (some t)
      waketime := update sched.waketime .deleted (sched.waketime t)
      timerList := .deleted } origin (.deleted :: t :: timers) := by
  have outside : .deleted ∉ t :: timers := by
    rw [mem_cons, not_or]
    exact ⟨notDeleted.symm, noDeleted⟩
  have withTimer := (chained.update_of_notMem fresh notSentinel
    (timers ++ [TimerId.sentinel]).head?).cons fresh notSentinel (update_self _ _ _)
  have sorted := ordered.cons near earliest
  constructor
  · apply (withTimer.update_of_notMem outside nofun (some t)).cons outside nofun
    exact update_self _ _ _
  · apply (sorted.update_of_notMem outside _).cons
    · rw [update_self]
      exact near
    · intro timer member
      rw [update_self, update_of_ne (ne_of_mem_of_not_mem member outside)]
      rcases mem_cons.mp member with rfl | member
      · exact le_rfl
      · exact earliest timer member
  · rfl
  · exact outside
  · exact mem_cons_of_mem _ (mem_cons_of_mem _ periodic)
  · exact sentinel_eq
  · exact mem_cons_of_mem _ (mem_cons_of_mem _ hint)
  · exact ne_of_mem_of_not_mem hint noDeleted

theorem Listed.schedAddTimer (listed : Listed sched origin timers) (fresh : .user n ∉ timers)
    (near : ticksAfter origin (sched.waketime (.user n)) < 2 ^ 31) (now : UInt32)
    (enough : timers.length < fuel) :
    ∃ next after, sched.schedAddTimer fuel (.user n) now = some next ∧
      Listed next origin after ∧
      ∀ m, .user m ∈ after ↔
        sched.tooClose (sched.waketime (.user n)) now = false ∧ (m = n ∨ .user m ∈ timers) := by
  rcases head?_eq_some_iff.mp listed.head with ⟨rest, rfl⟩
  have firstNear := listed.ordered.near _ mem_cons_self
  rw [Sched.schedAddTimer]
  by_cases before : timerIsBefore (sched.waketime (.user n)) (sched.waketime sched.timerList)
  · rw [if_pos before]
    by_cases late : (timerIsBefore (sched.waketime (.user n)) now && !sched.shutdownStatus)
    · rw [if_pos late]
      have close : sched.tooClose (sched.waketime (.user n)) now := by
        rw [Sched.tooClose, before, Bool.true_and]
        exact late
      refine ⟨_, _, rfl, listed.runShutdown, ?_⟩
      simp [close]
    rw [if_neg late]
    have close : sched.tooClose (sched.waketime (.user n)) now = false := by
      rw [Sched.tooClose, before, Bool.true_and]
      simpa using late
    have earlier := (timerIsBefore_iff_ticks near firstNear).mp before
    have earliest : ∀ timer ∈ sched.timerList :: rest,
        ticksAfter origin (sched.waketime (.user n)) ≤ ticksAfter origin (sched.waketime timer) :=
      forall_mem_cons.mpr ⟨earlier.le, fun timer member =>
        earlier.le.trans (listed.ordered.head_le timer member)⟩
    by_cases replaced : sched.timerList = .deleted
    · rw [if_pos replaced]
      rw [replaced] at listed fresh earliest
      have follower := listed.chained.next_head
      rw [follower]
      rw [mem_cons, not_or] at fresh
      have inRest : ∀ timer, timer ≠ .deleted → timer ∈ .deleted :: rest → timer ∈ rest :=
        fun timer other member => (mem_cons.mp member).resolve_left other
      refine ⟨_, _, rfl, listed_front listed.chained.tail
        (listed.ordered.sublist (sublist_cons_self _ _)) listed.deleted_first fresh.2
        nofun nofun nofun near (fun timer member =>
          earliest timer (mem_cons_of_mem _ member))
        (inRest _ nofun listed.periodic) listed.sentinel_eq
        (inRest _ listed.hint_ne listed.hint), ?_⟩
      simp [close, replaced]
    · rw [if_neg replaced]
      have noDeleted : .deleted ∉ sched.timerList :: rest := by
        rw [mem_cons, not_or]
        exact ⟨Ne.symm replaced, listed.deleted_first⟩
      refine ⟨_, _, rfl, listed_front listed.chained listed.ordered noDeleted fresh
        nofun nofun nofun near earliest listed.periodic listed.sentinel_eq listed.hint, ?_⟩
      simp [close]
  · rw [if_neg before]
    have close : sched.tooClose (sched.waketime (.user n)) now = false := by
      rw [Sched.tooClose, eq_false_of_ne_true before]
      rfl
    have notLater : ticksAfter origin (sched.waketime sched.timerList) ≤
        ticksAfter origin (sched.waketime (.user n)) := by
      rw [timerIsBefore_iff_ticks near firstNear] at before
      exact Nat.le_of_not_lt before
    have stops := exists_stop [] listed.ordered near notLater listed.periodic listed.sentinel_eq
    rcases walk_from_timer [] listed.chained listed.ordered near notLater stops
      (Nat.lt_of_succ_lt enough) with
      ⟨front, prev, after, found, place, walked⟩
    rw [nil_append] at place
    rw [Sched.insertTimer, walked]
    refine ⟨_, front ++ prev :: .user n :: after, rfl, listed_insert _ place listed.chained
      listed.ordered listed.head listed.deleted_first fresh nofun nofun near
      (mem_cons_of_mem _ listed.periodic) listed.sentinel_eq
      (mem_cons_of_mem _ listed.hint) listed.hint_ne, ?_⟩
    intro m
    rw [place.split, mem_insert_behind, close, TimerId.user.injEq]
    simp only [true_and]

/-! ## Callbacks -/

structure Running (sched : Sched) (origin : UInt32) (t : TimerId) (rest : List TimerId)
    (deletedOwn : Bool) : Prop where
  chained : Chained sched.next (t :: rest)
  ordered : Ordered sched.waketime origin rest
  noDeleted : .deleted ∉ rest
  periodic : .periodic ∈ t :: rest
  sentinel_eq : sched.waketime .sentinel = sched.waketime .periodic + 0x80000000
  hint : sched.lastInsert ∈ t :: rest
  place : if deletedOwn then
      sched.timerList = .deleted ∧ sched.next .deleted = sched.next t
    else sched.timerList = t

/-- The callback of timer `n` runs with the timers `behind` it. Once it has deleted its own
timer, it leaves alone the timer that comes next. -/
def Spares (n : ℕ) : Bool → List TimerId → List CallbackAction → Prop
  | _, _, [] => True
  | deletedOwn, behind, .setWaketime _ :: actions => Spares n deletedOwn behind actions
  | deletedOwn, behind, .delTimer m :: actions =>
    if m = n then
      Spares n true behind actions
    else
      (deletedOwn = true → behind.head? ≠ some (.user m)) ∧
        Spares n deletedOwn (behind.filter (· ≠ .user m)) actions

instance Spares.decidable (n : ℕ) : (deletedOwn : Bool) → (behind : List TimerId) →
    (actions : List CallbackAction) → Decidable (Spares n deletedOwn behind actions)
  | _, _, [] => isTrue trivial
  | deletedOwn, behind, .setWaketime _ :: actions => Spares.decidable n deletedOwn behind actions
  | deletedOwn, behind, .delTimer m :: actions => by
      have own := Spares.decidable n true behind actions
      have other := Spares.decidable n deletedOwn (behind.filter (· ≠ .user m)) actions
      rw [Spares]
      infer_instance

def finalWaketime (waketime : UInt32) (actions : List CallbackAction) : UInt32 :=
  actions.foldl (fun waketime action =>
    match action with
    | .setWaketime updated => updated
    | .delTimer _ => waketime) waketime

theorem Running.remove_behind (running : Running sched origin (.user n) rest true)
    (spares : rest.head? ≠ some (.user m)) (enough : rest.length + 1 < fuel) :
    ∃ next, sched.removeTimer fuel (.user m) = some { sched with next } ∧
      Chained next (.user n :: rest.filter (· ≠ .user m)) ∧
      next .deleted = next (.user n) := by
  rcases running.place with ⟨first, points⟩
  have outside : .user n ∉ rest := running.chained.head_notMem
  have chained : Chained sched.next (sched.timerList :: rest) := by
    rw [first]
    apply running.chained.tail.cons running.noDeleted nofun
    rw [points]
    exact running.chained.next_head
  have notFirst : sched.timerList ≠ .user m := by
    rw [first]
    exact nofun
  rcases removeTimer_behind chained notFirst nofun enough with
    ⟨next, removed, shorter, same, sameFirst⟩
  have ownSame : next (.user n) = sched.next (.user n) := by
    apply same
    rw [first, mem_cons, not_or]
    exact ⟨nofun, outside⟩
  have deletedSame := sameFirst spares
  rw [first] at shorter deletedSame
  refine ⟨next, removed, ?_, ?_⟩
  · apply shorter.tail.cons (fun member => outside (mem_of_mem_filter member)) nofun
    rw [ownSame, ← points, ← deletedSame]
    exact shorter.next_head
  · rw [ownSame, deletedSame, points]

@[simp] theorem deletions_nil : Machine.deletions [] = [] := rfl

@[simp] theorem deletions_delTimer (m : ℕ) (actions : List CallbackAction) :
    Machine.deletions (.delTimer m :: actions) = m :: Machine.deletions actions := rfl

def remaining (rest : List TimerId) (actions : List CallbackAction) : List TimerId :=
  rest.filter fun timer => decide (timer ∉ (Machine.deletions actions).map TimerId.user)

theorem remaining_delTimer (rest : List TimerId) (m : ℕ) (actions : List CallbackAction) :
    remaining rest (.delTimer m :: actions) = remaining (rest.filter (· ≠ .user m)) actions := by
  rw [remaining, remaining, filter_filter]
  simp [Bool.and_comm]

section

variable (running : Running sched origin (.user n) rest deletedOwn)
include running

theorem Running.setWaketime (waketime : UInt32) :
    Running { sched with waketime := update sched.waketime (.user n) waketime }
      origin (.user n) rest deletedOwn :=
  { running with
    ordered := running.ordered.update_of_notMem running.chained.head_notMem _ }

variable (enough : rest.length + 1 < fuel)
include enough

theorem Running.delOwn : ∃ next, sched.schedDelTimer fuel (.user n) = some next ∧
      next.waketime (.user n) = sched.waketime (.user n) ∧
      Running next origin (.user n) rest true := by
  have outside : .user n ∉ rest := running.chained.head_notMem
  have hint : hintAfter sched.lastInsert (.user n) ∈ .user n :: rest := by
    rw [hintAfter]
    split
    · exact running.periodic
    · exact running.hint
  cases deletedOwn with
  | false =>
    have first : sched.timerList = .user n := running.place
    have noDeleted : .deleted ∉ .user n :: rest := by
      rw [mem_cons, not_or]
      exact ⟨nofun, running.noDeleted⟩
    rw [Sched.schedDelTimer, Sched.removeTimer, if_pos first]
    refine ⟨_, rfl, rfl, ?_⟩
    exact { running with
      chained := running.chained.update_of_notMem noDeleted nofun _
      ordered := running.ordered.update_of_notMem running.noDeleted _
      hint
      place := ⟨rfl, rfl⟩ }
  | true =>
    have notNext : rest.head? ≠ some (.user n) := fun atHead =>
      outside (mem_of_mem_head? atHead)
    rcases running.remove_behind notNext enough with ⟨next, removed, chained, points⟩
    rw [filter_ne_of_notMem outside] at chained
    rw [Sched.schedDelTimer, removed]
    refine ⟨_, rfl, rfl, ?_⟩
    exact { running with chained, hint, place := ⟨running.place.1, points⟩ }

theorem Running.delOther (other : m ≠ n) (spares : deletedOwn → rest.head? ≠ some (.user m)) :
    ∃ next, sched.schedDelTimer fuel (.user m) = some next ∧
      next.waketime (.user n) = sched.waketime (.user n) ∧
      Running next origin (.user n) (rest.filter (· ≠ .user m))
        deletedOwn := by
  have ownOther : TimerId.user n ≠ .user m := fun same => other (TimerId.user.inj same).symm
  have kept : .user n :: rest.filter (· ≠ .user m) = (.user n :: rest).filter (· ≠ .user m) := by
    rw [filter_cons, if_pos (decide_eq_true ownOther)]
  have removed : ∃ next, sched.removeTimer fuel (.user m) = some { sched with next } ∧
      Chained next (.user n :: rest.filter (· ≠ .user m)) ∧
      (deletedOwn → next .deleted = next (.user n)) := by
    cases deletedOwn with
    | false =>
      have first : sched.timerList = .user n := running.place
      have chained := running.chained
      rw [← first] at chained ownOther
      rcases removeTimer_behind chained ownOther nofun enough with
        ⟨next, removed, shorter, -, -⟩
      rw [first] at shorter
      exact ⟨next, removed, shorter, nofun⟩
    | true =>
      rcases running.remove_behind (spares rfl) enough with ⟨next, removed, shorter, points⟩
      exact ⟨next, removed, shorter, fun _ => points⟩
  rcases removed with ⟨next, removed, chained, points⟩
  rw [Sched.schedDelTimer, removed]
  refine ⟨_, rfl, rfl, ?_⟩
  constructor
  · exact chained
  · exact running.ordered.sublist filter_sublist
  · exact fun member => running.noDeleted (mem_of_mem_filter member)
  · rw [kept]
    exact mem_filter.mpr ⟨running.periodic, rfl⟩
  · exact running.sentinel_eq
  · rw [kept]
    exact hintAfter_mem running.hint running.periodic nofun
  · have place := running.place
    cases deletedOwn with
    | false => exact place
    | true => exact ⟨place.1, points rfl⟩

theorem Running.runActions (spares : Spares n deletedOwn (rest ++ [TimerId.sentinel]) actions) :
    ∃ next, sched.runActions fuel (.user n) actions = some next ∧
      next.waketime (.user n) = finalWaketime (sched.waketime (.user n)) actions ∧
      Running next origin (.user n) (remaining rest actions)
        (deletedOwn || decide (n ∈ Machine.deletions actions)) := by
  induction actions generalizing sched rest deletedOwn with
  | nil =>
    refine ⟨sched, rfl, rfl, ?_⟩
    have all : remaining rest [] = rest := filter_eq_self.mpr (by simp)
    rw [all]
    simpa using running
  | cons action actions induction =>
    cases action with
    | setWaketime waketime =>
      rcases induction (running.setWaketime waketime) enough spares with
        ⟨next, ran, final, finished⟩
      refine ⟨next, ran, ?_, finished⟩
      rw [final]
      dsimp only
      rw [update_self]
      rfl
    | delTimer m =>
      rw [Spares] at spares
      by_cases own : m = n
      · subst own
        rw [if_pos rfl] at spares
        have all := filter_ne_of_notMem running.chained.head_notMem
        rcases running.delOwn enough with ⟨middle, deleted, same, middleRunning⟩
        rcases induction middleRunning enough spares with ⟨next, ran, final, finished⟩
        refine ⟨next, ?_, ?_, ?_⟩
        · rw [Sched.runActions, Sched.runAction, deleted]
          exact ran
        · rw [final, same]
          rfl
        · rw [remaining_delTimer, all]
          simpa using finished
      rw [if_neg own, filter_append] at spares
      rcases running.delOther enough own (fun deletedOwn atHead => spares.1 deletedOwn (by
        rw [head?_append, atHead]
        rfl)) with ⟨middle, deleted, same, middleRunning⟩
      have shorter := length_filter_le (· ≠ .user m) rest
      rcases induction middleRunning (by omega) spares.2 with
        ⟨next, ran, final, finished⟩
      refine ⟨next, ?_, ?_, ?_⟩
      · rw [Sched.runActions, Sched.runAction, deleted]
        exact ran
      · rw [final, same]
        rfl
      · rw [remaining_delTimer]
        have notOwn : n ≠ m := Ne.symm own
        simpa [notOwn] using finished

end

/-! ## The end of a dispatch -/

theorem Running.done (running : Running sched origin t rest deletedOwn) (fuel : ℕ)
    (notPeriodic : t ≠ .periodic) : ∃ next, sched.updateTimerList fuel t .done =
        some (next, next.waketime next.timerList) ∧
      Listed next origin rest := by
  have periodic : .periodic ∈ rest := (mem_cons.mp running.periodic).resolve_left notPeriodic.symm
  cases rest with
  | nil => simp at periodic
  | cons first rest =>
    have points : sched.next t = some first := running.chained.next_head
    rw [Sched.updateTimerList, points]
    refine ⟨_, rfl, ?_⟩
    have noDeleted := running.noDeleted
    have hint : (if sched.lastInsert = t then first else sched.lastInsert) ∈
        first :: rest := by
      split
      · exact mem_cons_self
      next other => exact (mem_cons.mp running.hint).resolve_left other
    exact { running with
      chained := running.chained.tail
      head := rfl
      deleted_first := fun member => noDeleted (mem_cons_of_mem _ member)
      periodic
      hint
      hint_ne := ne_of_mem_of_not_mem hint noDeleted }

section

variable (near : ticksAfter origin (sched.waketime t) < 2 ^ 31)
include near

/-- The walk of `insert_timer` for the dispatched timer, from a timer not later than it. -/
theorem Running.walk_from (running : Running sched origin t rest deletedOwn)
    (split : rest = earlier ++ pos :: behind)
    (notLater : ticksAfter origin (sched.waketime pos) ≤ ticksAfter origin (sched.waketime t))
    (enough : behind.length < fuel) : ∃ before prev after found,
      PlaceFor sched.waketime origin (sched.waketime t) rest before prev after found ∧
      walk sched.next (fun pos => timerIsBefore (sched.waketime t) (sched.waketime pos))
        fuel pos = .found prev found := by
  have chained := running.chained.tail
  have ordered := running.ordered
  have stops : ∃ timer ∈ behind ++ [TimerId.sentinel],
      timerIsBefore (sched.waketime t) (sched.waketime timer) := by
    rcases mem_cons.mp running.periodic with isOwn | inRest
    · refine ⟨.sentinel, by simp, ?_⟩
      rw [running.sentinel_eq, isOwn]
      exact (timerIsBefore_sentinel_iff near near).mpr le_rfl
    · rw [split] at ordered inRest
      exact exists_stop earlier ordered near notLater inRest running.sentinel_eq
  rw [split] at chained ordered ⊢
  exact walk_from_timer earlier chained ordered near notLater stops enough

/-- The place `sched_timer_dispatch` finds for the dispatched timer. The hint may be the
timer itself, whose pointer still leads to the next timer. -/
theorem Running.walk_from_hint (running : Running sched origin t (next :: behind) deletedOwn)
    (notLater : ticksAfter origin (sched.waketime next) ≤ ticksAfter origin (sched.waketime t))
    (enough : behind.length + 1 < fuel) : ∃ before prev after found,
      PlaceFor sched.waketime origin (sched.waketime t) (next :: behind) before prev after found ∧
      walk sched.next (fun pos => timerIsBefore (sched.waketime t) (sched.waketime pos)) fuel
        (if timerIsBefore (sched.waketime t) (sched.waketime sched.lastInsert) then next
          else sched.lastInsert) = .found prev found := by
  have nextNear := running.ordered.near next mem_cons_self
  split
  · exact running.walk_from near (nil_append _).symm notLater (Nat.lt_of_succ_lt enough)
  next before =>
    rcases mem_cons.mp running.hint with isOwn | inRest
    · have points : sched.next t = some next := running.chained.next_head
      have passes : timerIsBefore (sched.waketime t) (sched.waketime next) = false := by
        rw [← Bool.not_eq_true, timerIsBefore_iff_ticks near nextNear]
        exact Nat.not_lt.mpr notLater
      cases fuel with
      | zero => simp at enough
      | succ fuel =>
        rw [isOwn, walk, points]
        simp only [passes, Bool.false_eq_true, if_false]
        exact running.walk_from near (nil_append _).symm notLater (Nat.lt_of_succ_lt_succ enough)
    · rcases append_of_mem inRest with ⟨earlier, later, split⟩
      have hintNear := running.ordered.near _ inRest
      rw [timerIsBefore_iff_ticks near hintNear] at before
      apply running.walk_from near split (Nat.le_of_not_lt before)
      have length := congrArg length split
      simp only [length_cons, length_append] at length
      omega

theorem Running.listed_first (running : Running sched origin t rest false)
    (notDeleted : t ≠ .deleted)
    (earliest : ∀ timer ∈ rest,
      ticksAfter origin (sched.waketime t) ≤ ticksAfter origin (sched.waketime timer)) :
    Listed sched origin (t :: rest) :=
  { running with
    ordered := running.ordered.cons near earliest
    head := congrArg some (Eq.symm running.place)
    deleted_first := running.noDeleted
    hint_ne := by
      apply ne_of_mem_of_not_mem running.hint
      rw [mem_cons, not_or]
      exact ⟨notDeleted.symm, running.noDeleted⟩ }

theorem Running.reschedule (running : Running sched origin t rest false) (notDeleted : t ≠ .deleted)
    (enough : rest.length + 1 < fuel) : ∃ next after, sched.updateTimerList fuel t .reschedule =
        some (next, next.waketime next.timerList) ∧
      Listed next origin after ∧ ∀ timer, timer ∈ after ↔ timer ∈ t :: rest := by
  have first : sched.timerList = t := running.place
  have notSentinel := running.chained.ne_sentinel mem_cons_self
  cases rest with
  | nil =>
    -- The periodic timer alone: the sentinel lies behind it.
    have isPeriodic : .periodic = t := mem_singleton.mp running.periodic
    have points : sched.next t = some .sentinel := running.chained.next_head
    have before : timerIsBefore (sched.waketime t) (sched.waketime .sentinel) := by
      rw [running.sentinel_eq, isPeriodic]
      exact (timerIsBefore_sentinel_iff near near).mpr le_rfl
    refine ⟨sched, [t], ?_, running.listed_first near notDeleted (by simp), fun _ => Iff.rfl⟩
    rw [Sched.updateTimerList, points, first]
    simp [before]
  | cons next behind =>
    have points : sched.next t = some next := running.chained.next_head
    have nextNear := running.ordered.near next mem_cons_self
    by_cases before : timerIsBefore (sched.waketime t) (sched.waketime next)
    · have earlier := (timerIsBefore_iff_ticks near nextNear).mp before
      refine ⟨sched, t :: next :: behind, ?_, running.listed_first near notDeleted ?_,
        fun _ => Iff.rfl⟩
      · rw [Sched.updateTimerList, points, first]
        simp [before]
      · exact forall_mem_cons.mpr ⟨earlier.le, fun timer member =>
          earlier.le.trans (running.ordered.head_le timer member)⟩
    have notLater : ticksAfter origin (sched.waketime next) ≤
        ticksAfter origin (sched.waketime t) := by
      rw [timerIsBefore_iff_ticks near nextNear] at before
      exact Nat.le_of_not_lt before
    rcases running.walk_from_hint near notLater (Nat.lt_of_succ_lt enough) with
      ⟨front, prev, after, found, place, walked⟩
    refine ⟨_, front ++ prev :: t :: after, ?_, listed_insert
      { sched with timerList := next } place running.chained.tail running.ordered rfl
      (fun inTail => running.noDeleted (mem_of_mem_tail inTail))
      running.chained.head_notMem notSentinel notDeleted near running.periodic
      running.sentinel_eq mem_cons_self notDeleted, ?_⟩
    · rw [Sched.updateTimerList, points]
      simp only [Option.bind_some, Sched.insertTimer, walked, before, reduceCtorEq, if_false,
        Bool.not_false, if_true, Option.map_some]
    · intro timer
      rw [place.split, mem_insert_behind, mem_cons]

end

theorem Listed.running (listed : Listed sched origin (t :: rest)) :
    Running sched (sched.waketime t) t rest false :=
  { listed with
    ordered := listed.ordered.rebase
    noDeleted := listed.deleted_first
    place := (Option.some.inj listed.head).symm }

theorem Running.periodicEvent (running : Running sched origin .periodic rest false)
    (period : UInt32) : Running (sched.periodicEvent period) origin .periodic rest false :=
  { running with
    ordered := by
      have outside := running.chained.head_notMem
      have noSentinel := running.chained.tail.noSentinel
      exact (running.ordered.update_of_notMem outside _).update_of_notMem noSentinel _
    sentinel_eq := rfl }

structure Callback.Behaves (callback : Callback) (n : ℕ) (behind : List TimerId)
    (waketime : UInt32) : Prop where
  spares : Spares n false behind callback.actions
  rescheduled : callback.result = .reschedule →
    n ∉ Machine.deletions callback.actions ∧
      timerIsBefore (finalWaketime waketime callback.actions) waketime = false

theorem mem_remaining :
    .user m ∈ remaining rest actions ↔ .user m ∈ rest ∧ m ∉ Machine.deletions actions := by
  rw [remaining, mem_filter, decide_eq_true_iff, mem_map]
  simp

theorem Listed.dispatch_user (listed : Listed sched origin (.user n :: rest)) (period : UInt32)
    (behaves : callback.Behaves n (rest ++ [TimerId.sentinel]) (sched.waketime (.user n)))
    (enough : rest.length + 1 < fuel) :
    ∃ next after, sched.schedTimerDispatch fuel period callback =
        some (next, next.waketime next.timerList) ∧
      Listed next (sched.waketime (.user n)) after ∧
      ∀ m, .user m ∈ after ↔ .user m ∈ .user n :: rest ∧
        m ∉ Machine.deletions callback.actions ∧ (callback.result = .done → m ≠ n) := by
  have first : sched.timerList = .user n := (Option.some.inj listed.head).symm
  have outside : .user n ∉ rest := listed.chained.head_notMem
  rcases listed.running.runActions enough behaves.spares with
    ⟨middle, ran, final, finished⟩
  have ended : sched.schedTimerDispatch fuel period callback =
      middle.updateTimerList fuel (.user n) callback.result := by
    rw [Sched.schedTimerDispatch, first, Sched.func, ran]
    rfl
  rw [ended]
  cases result : callback.result with
  | done =>
    rcases finished.done fuel nofun with ⟨next, updated, nextListed⟩
    refine ⟨next, _, updated, nextListed, ?_⟩
    intro m
    rw [mem_remaining, mem_cons, TimerId.user.injEq]
    constructor
    · rintro ⟨inRest, kept⟩
      refine ⟨Or.inr inRest, kept, fun _ same => ?_⟩
      rw [same] at inRest
      exact outside inRest
    · rintro ⟨isIn, kept, other⟩
      exact ⟨isIn.resolve_left (other rfl), kept⟩
  | reschedule =>
    rcases behaves.rescheduled result with ⟨ownKept, timely⟩
    rw [decide_eq_false ownKept, Bool.or_false] at finished
    have near : ticksAfter (sched.waketime (.user n)) (middle.waketime (.user n)) < 2 ^ 31 := by
      rw [final]
      exact Nat.lt_of_not_le (mt (timerIsBefore_iff _ _).mpr (ne_true_of_eq_false timely))
    have shorter : (remaining rest callback.actions).length ≤ rest.length := length_filter_le _ _
    have shortEnough : (remaining rest callback.actions).length + 1 < fuel := by omega
    rcases finished.reschedule near nofun shortEnough with
      ⟨next, after, updated, nextListed, member⟩
    refine ⟨next, after, updated, nextListed, ?_⟩
    intro m
    rw [member, mem_cons, mem_remaining, mem_cons, TimerId.user.injEq]
    constructor
    · rintro (rfl | ⟨inRest, kept⟩)
      · exact ⟨Or.inl rfl, ownKept, nofun⟩
      · exact ⟨Or.inr inRest, kept, nofun⟩
    · rintro ⟨isOwn | inRest, kept, -⟩
      · exact Or.inl isOwn
      · exact Or.inr ⟨inRest, kept⟩

theorem Listed.dispatch_own (listed : Listed sched origin (t :: rest)) (notUser : ∀ n, t ≠ .user n)
    (periodNear : period.toNat < 2 ^ 31) (callback : Callback) (enough : rest.length + 1 < fuel) :
    ∃ next after, sched.schedTimerDispatch fuel period callback =
        some (next, next.waketime next.timerList) ∧
      Listed next (sched.waketime t) after ∧
      ∀ m, .user m ∈ after ↔ .user m ∈ t :: rest := by
  have first : sched.timerList = t := (Option.some.inj listed.head).symm
  cases t with
  | user n => exact absurd rfl (notUser n)
  | sentinel => exact absurd mem_cons_self listed.chained.noSentinel
  | deleted =>
    rcases listed.running.done fuel (by decide) with ⟨next, updated, nextListed⟩
    refine ⟨next, rest, ?_, nextListed, by simp⟩
    rw [Sched.schedTimerDispatch, first]
    exact updated
  | periodic =>
    have running := listed.running.periodicEvent period
    have near : ticksAfter (sched.waketime .periodic)
        ((sched.periodicEvent period).waketime .periodic) < 2 ^ 31 := by
      change ticksAfter (sched.waketime .periodic) (sched.waketime .periodic + period) < 2 ^ 31
      rw [ticksAfter, UInt32.add_comm, UInt32.add_sub_cancel]
      exact periodNear
    rcases running.reschedule near (by decide) enough with
      ⟨next, after, updated, nextListed, member⟩
    refine ⟨next, after, ?_, nextListed, fun m => member _⟩
    rw [Sched.schedTimerDispatch, first]
    exact updated

end CentauriCarbon.Scheduler
