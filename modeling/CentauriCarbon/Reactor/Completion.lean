import CentauriCarbon.Foundation.EventRun
import CentauriCarbon.Reactor.Timers

/-! # Completions

A greenlet that waits for a completion is paused until its timer is due; `complete` makes the
timers of all that wait due at once. The value of a completion is also the mark that it is
complete, so that a completion with the value `null` does not count as complete.
-/

namespace CentauriCarbon.Reactor

open Function List Option

def now : ℚ := 0

inductive Json where
  | null
  | boolean (value : Bool)
  | number (value : ℚ)
  | string (value : String)
  | array (elements : List Json)
  | object (members : List (String × Json))

namespace Json

def isNull : Json → Bool
  | null => true
  | _ => false

def isEmpty : Json → Bool
  | null => true
  | array elements => elements.isEmpty
  | object members => members.isEmpty
  | _ => false

theorem isNull_eq_false_iff : value.isNull = false ↔ value ≠ null := by
  cases value <;> simp [isNull]

end Json

/-! ## The completion and the greenlets -/

structure ReactorCompletion where
  result : Json
  /-- The greenlets in the vector `waiting`. -/
  waiting : List ℕ

namespace ReactorCompletion

def new : ReactorCompletion := ⟨.null, []⟩

def test (completion : ReactorCompletion) : Bool := !completion.result.isNull

def resumed (completion : ReactorCompletion) (waketimeResult : Json) : Json :=
  if completion.result.isNull then waketimeResult else completion.result

end ReactorCompletion

structure ReactorGreenlet where
  timer : Option ℕ
  /-- The call of `wait` that the greenlet is paused in: the completion and
  `waketime_result`. -/
  pausedIn : Option (ℕ × Json)

structure Returned where
  completion : ℕ
  greenlet : ℕ
  value : Json
  completedWith : Option Json

/-- The value that the completion had when `wait` returned is one of those it was completed
with, and if it is not `null`, it is what `wait` returned. -/
def Returned.Kept (record : Returned) (completed : List Json) : Prop :=
  ∀ value ∈ record.completedWith, value ∈ completed ∧ (value ≠ .null → record.value = value)

structure Completions where
  reactor : SelectReactor
  /-- How many completions have been created. -/
  created : ℕ
  completion : ℕ → ReactorCompletion
  greenlet : ℕ → ReactorGreenlet
  /-- The timers that were not registered by `pause`. -/
  otherTimers : List ℕ
  /-- The calls of `complete` in `async_queue`. -/
  asyncQueue : List (ℕ × Json)
  lastNotifyId : ℕ
  /-- The completion of each notification that is awaited. -/
  pendingNotifications : List (ℕ × ℕ)
  /-- `trigger_completion` of each trsync. -/
  triggerCompletion : ℕ → Option ℕ
  /-- The values that a completion was completed with, the last one first. -/
  completed : ℕ → List Json
  returned : List Returned

namespace Completions

def start : Completions where
  reactor := ⟨[], fun _ => never, never, 0⟩
  created := 0
  completion := fun _ => .new
  greenlet := fun _ => ⟨none, none⟩
  otherTimers := []
  asyncQueue := []
  lastNotifyId := 0
  pendingNotifications := []
  triggerCompletion := fun _ => none
  completed := fun _ => []
  returned := []

variable (system : Completions)

/-- `update_timer` for a greenlet, which has a timer only while it is paused or runs in its
timer's callback. -/
def wake (greenlet : ℕ) : Completions :=
  { system with
    reactor :=
      match (system.greenlet greenlet).timer with
      | some timer => system.reactor.updateTimer timer now
      | none => { system.reactor with nextTimer := min system.reactor.nextTimer now } }

def complete (completion : ℕ) (result : Json) : Completions :=
  let woken := (system.completion completion).waiting.foldl wake system
  { woken with
    completion := update system.completion completion
      { system.completion completion with result }
    completed := update system.completed completion (result :: system.completed completion) }

/-- `pause`. A greenlet that runs in its timer's callback hands the waketime to it; any other
one is the dispatcher and registers a timer. -/
def pause (greenlet : ℕ) (waketime : ℚ) (completion : ℕ) (waketimeResult : Json) : Completions :=
  match (system.greenlet greenlet).timer with
  | some timer =>
    { system with
      reactor := system.reactor.updateTimer timer waketime
      greenlet := update system.greenlet greenlet
        ⟨some timer, some (completion, waketimeResult)⟩ }
  | none =>
    { system with
      reactor := { system.reactor.registerTimer waketime with nextTimer := now }
      greenlet := update system.greenlet greenlet
        ⟨some system.reactor.created, some (completion, waketimeResult)⟩ }

def wait (completion greenlet : ℕ) (waketime : ℚ) (waketimeResult : Json) : Completions :=
  if (system.completion completion).result.isNull then
    let paused := system.pause greenlet waketime completion waketimeResult
    { paused with
      completion := update system.completion completion
        { system.completion completion with
          waiting := (system.completion completion).waiting ++ [greenlet] } }
  else
    { system with
      returned := system.returned ++
        [⟨completion, greenlet, (system.completion completion).result,
          (system.completed completion).head?⟩] }

def finishWait (greenlet timer completion : ℕ) (waketimeResult : Json) : Completions :=
  { system with
    reactor := { system.reactor with waketime := update system.reactor.waketime timer never }
    greenlet := update system.greenlet greenlet ⟨some timer, none⟩
    completion := update system.completion completion
      { system.completion completion with
        waiting := (system.completion completion).waiting.erase greenlet }
    returned := system.returned ++
      [⟨completion, greenlet, (system.completion completion).resumed waketimeResult,
        (system.completed completion).head?⟩] }

def newCompletion : Completions :=
  { system with created := system.created + 1 }

end Completions

/-- What can happen. `invokeCallback` is `ReactorCallback::invoke` with what its callback
returns, `notified` is the background thread of `SerialReader` with a notification, and
`gotPipeSignal` runs what was queued by `async_complete`. -/
inductive CompletionEvent where
  | newCompletion
  | wait (completion greenlet : ℕ) (waketime : ℚ) (waketimeResult : Json)
  | resume (greenlet : ℕ) (eventtime : ℚ)
  | endGreenlet (greenlet : ℕ)
  | complete (completion : ℕ) (result : Json)
  | asyncComplete (completion : ℕ) (result : Json)
  | gotPipeSignal
  | registerTimer (waketime : ℚ)
  | updateTimer (timer : ℕ) (waketime : ℚ)
  | unregisterTimer (timer : ℕ)
  | invokeCallback (timer completion : ℕ) (result : Json)
  | rawSendWaitAck (greenlet : ℕ)
  | notified (notifyId : ℕ) (params : Json)
  | disconnect
  | trsyncStart (trsync completion : ℕ)
  | trsyncShutdown (trsync : ℕ)

namespace Completions

variable (system : Completions) (greenlet : ℕ)

def runs : Bool := (system.greenlet greenlet).pausedIn.isNone

def resume (eventtime : ℚ) : Option Completions :=
  match system.greenlet greenlet with
  | ⟨some timer, some (completion, waketimeResult)⟩ =>
    if timer ∈ system.reactor.timers ∧ system.reactor.waketime timer ≤ eventtime then
      some (system.finishWait greenlet timer completion waketimeResult)
    else none
  | _ => none

def endGreenlet : Option Completions :=
  match system.greenlet greenlet with
  | ⟨some timer, none⟩ =>
    some { system with
      reactor := system.reactor.unregisterTimer timer
      greenlet := update system.greenlet greenlet ⟨none, none⟩ }
  | _ => none

def rawSendWaitAck : Completions :=
  { system.newCompletion with
    lastNotifyId := system.lastNotifyId + 1
    pendingNotifications := system.pendingNotifications ++
      [(system.lastNotifyId + 1, system.created)] }.wait system.created greenlet never (.object [])

def rawSendWaitAckResult (warnPrefix : String) (params : Json) : Except String Json :=
  if params.isEmpty then .error (warnPrefix ++ "Serial connection closed") else .ok params

def completeAll (calls : List (ℕ × Json)) : Completions :=
  calls.foldl (fun system call => system.complete call.1 call.2) system

/-- `SerialReader::disconnect`; the value `{}` is `null`. -/
def disconnect : Completions :=
  { system.completeAll (system.pendingNotifications.map fun pending => (pending.2, .null)) with
    pendingNotifications := [] }

def trsyncShutdown (trsync : ℕ) : Completions :=
  match system.triggerCompletion trsync with
  | none => system
  | some completion =>
    { system with triggerCompletion := update system.triggerCompletion trsync none }.complete
      completion .null

def step : CompletionEvent → Option Completions
  | .newCompletion => some system.newCompletion
  | .wait completion greenlet waketime waketimeResult =>
    if completion < system.created ∧ system.runs greenlet then
      some (system.wait completion greenlet waketime waketimeResult)
    else none
  | .resume greenlet eventtime => system.resume greenlet eventtime
  | .endGreenlet greenlet => system.endGreenlet greenlet
  | .complete completion result =>
    if completion < system.created then some (system.complete completion result) else none
  | .asyncComplete completion result =>
    if completion < system.created then
      some { system with asyncQueue := system.asyncQueue ++ [(completion, result)] }
    else none
  | .gotPipeSignal => some { system.completeAll system.asyncQueue with asyncQueue := [] }
  | .registerTimer waketime =>
    some { system with
      reactor := system.reactor.registerTimer waketime
      otherTimers := system.otherTimers ++ [system.reactor.created] }
  | .updateTimer timer waketime =>
    if timer ∈ system.otherTimers then
      some { system with reactor := system.reactor.updateTimer timer waketime }
    else none
  | .unregisterTimer timer =>
    if timer ∈ system.otherTimers then
      some { system with reactor := system.reactor.unregisterTimer timer }
    else none
  | .invokeCallback timer completion result =>
    if timer ∈ system.otherTimers ∧ completion < system.created then
      some ({ system with reactor := system.reactor.unregisterTimer timer }.complete
        completion result)
    else none
  | .rawSendWaitAck greenlet =>
    if system.runs greenlet then some (system.rawSendWaitAck greenlet) else none
  | .notified notifyId params =>
    match system.pendingNotifications.lookup notifyId with
    | none => some system
    | some completion =>
      some { system with
        pendingNotifications := system.pendingNotifications.filter (·.1 ≠ notifyId)
        asyncQueue := system.asyncQueue ++ [(completion, params)] }
  | .disconnect => some system.disconnect
  | .trsyncStart trsync completion =>
    if completion < system.created then
      some { system with
        triggerCompletion := update system.triggerCompletion trsync (some completion) }
    else none
  | .trsyncShutdown trsync => some (system.trsyncShutdown trsync)

/-! ## What the operations keep -/

variable {system next : Completions}

def OwnTimer (reactor : SelectReactor) (otherTimers : List ℕ) (timer : ℕ) : Prop :=
  timer < reactor.created ∧ timer ∈ reactor.timers ∧ timer ∉ otherTimers

/-- What holds between any two events. A greenlet that waits has a timer of its own; once the
completion is there, that timer is due. -/
structure Consistent (system : Completions) : Prop where
  other_lt : ∀ timer ∈ system.otherTimers, timer < system.reactor.created
  timer_own : ∀ greenlet timer, (system.greenlet greenlet).timer = some timer →
    OwnTimer system.reactor system.otherTimers timer
  timer_inj : ∀ greenlet other timer, (system.greenlet greenlet).timer = some timer →
    (system.greenlet other).timer = some timer → greenlet = other
  paused_timer : ∀ greenlet, (system.greenlet greenlet).pausedIn ≠ none →
    (system.greenlet greenlet).timer ≠ none
  waiting_iff : ∀ completion greenlet, greenlet ∈ (system.completion completion).waiting ↔
    ∃ waketimeResult, (system.greenlet greenlet).pausedIn = some (completion, waketimeResult)
  waiting_nodup : ∀ completion, (system.completion completion).waiting.Nodup
  due : ∀ completion greenlet timer, (system.completion completion).test = true →
    greenlet ∈ (system.completion completion).waiting →
    (system.greenlet greenlet).timer = some timer → system.reactor.waketime timer = now
  result_eq : ∀ completion, (system.completion completion).result =
    (system.completed completion).head?.getD .null
  returned : ∀ record ∈ system.returned, record.Kept (system.completed record.completion)

theorem start_consistent : start.Consistent := by
  constructor <;> simp [start, ReactorCompletion.new]

variable {completion : ℕ}

/-- An update leaves a field alone if the new entry has the field of the old one. -/
theorem field_update {Entry Value : Type} (field : Entry → Value) {entries : ℕ → Entry}
    {index : ℕ} {entry : Entry} (same : field entry = field (entries index)) (other : ℕ) :
    field (update entries index entry other) = field (entries other) := by
  rw [apply_update (fun _ => field), same, update_eq_self]

/-- `complete` wakes up those that wait, and nothing else about the timers changes. -/
theorem foldl_wake (greenlets : List ℕ) (system : Completions) :
    ∃ reactor, greenlets.foldl wake system = { system with reactor } ∧
      reactor.created = system.reactor.created ∧ reactor.timers = system.reactor.timers ∧
      (∀ timer, reactor.waketime timer = now ∨
        reactor.waketime timer = system.reactor.waketime timer) ∧
      ∀ greenlet ∈ greenlets, ∀ timer, (system.greenlet greenlet).timer = some timer →
        reactor.waketime timer = now := by
  induction greenlets generalizing system with
  | nil => exact ⟨system.reactor, rfl, rfl, rfl, fun _ => .inr rfl, by simp⟩
  | cons first rest induction =>
    rcases induction (system.wake first) with
      ⟨reactor, folded, created, timers, waketime, woken⟩
    have wake_waketime : ∀ timer, (system.wake first).reactor.waketime timer = now ∨
        (system.wake first).reactor.waketime timer = system.reactor.waketime timer := by
      intro timer
      rw [wake]
      split
      next own _ =>
        by_cases same : timer = own
        · left
          rw [same]
          exact update_self _ _ _
        · right
          exact update_of_ne same _ _
      · exact .inr rfl
    refine ⟨reactor, folded, ?_, ?_, ?_, ?_⟩
    · rw [created, wake]
      split <;> rfl
    · rw [timers, wake]
      split <;> rfl
    · intro timer
      rcases waketime timer with isNow | same
      · exact .inl isNow
      · rw [same]
        exact wake_waketime timer
    · intro greenlet member timer own
      rcases mem_cons.mp member with rfl | later
      · rcases waketime timer with isNow | same
        · exact isNow
        · rw [same, wake, own]
          exact update_self _ _ _
      · exact woken greenlet later timer own

section

variable (consistent : system.Consistent)
include consistent

theorem Consistent.result_of_completed
    (completed : (system.completed completion).head? = some value) :
    (system.completion completion).result = value := by
  rw [consistent.result_eq, completed]
  rfl

theorem Consistent.complete (completion : ℕ) (result : Json) :
    (system.complete completion result).Consistent := by
  rcases foldl_wake (system.completion completion).waiting system with
    ⟨reactor, folded, created, timers, waketime, woken⟩
  have sameWaiting : ∀ other, (update system.completion completion
      { system.completion completion with result } other).waiting =
      (system.completion other).waiting := field_update ReactorCompletion.waiting (by rfl)
  rw [Completions.complete, folded]
  exact {
    consistent with
    other_lt := by
      rw [created]
      exact consistent.other_lt
    timer_own := by
      simp only [OwnTimer, created, timers]
      exact consistent.timer_own
    waiting_iff := by simpa only [sameWaiting] using consistent.waiting_iff
    waiting_nodup := by simpa only [sameWaiting] using consistent.waiting_nodup
    due := by
      intro other greenlet timer complete waits own
      rw [sameWaiting] at waits
      by_cases same : other = completion
      · rw [same] at waits
        exact woken greenlet waits timer own
      simp only [update_of_ne same] at complete
      rcases waketime timer with isNow | kept
      · exact isNow
      · exact kept.trans (consistent.due other greenlet timer complete waits own)
    result_eq := by
      intro other
      by_cases same : other = completion
      · rw [same]
        simp only [update_self]
        rfl
      · simp only [update_of_ne same]
        exact consistent.result_eq other
    returned := by
      intro record member value completedWith
      rcases consistent.returned record member value completedWith with ⟨given, kept⟩
      refine ⟨?_, kept⟩
      by_cases same : record.completion = completion
      · rw [same] at given ⊢
        simp only [update_self]
        exact mem_cons_of_mem _ given
      · simpa only [update_of_ne same] using given }

theorem Consistent.completeAll (calls : List (ℕ × Json)) :
    (system.completeAll calls).Consistent := by
  induction calls generalizing system with
  | nil => exact consistent
  | cons call calls induction => exact induction (consistent.complete call.1 call.2)

theorem Consistent.pause (waketime : ℚ) (completion : ℕ) (waketimeResult : Json) : ∃ reactor timer,
      system.pause greenlet waketime completion waketimeResult =
        { system with
          reactor
          greenlet := update system.greenlet greenlet
            ⟨some timer, some (completion, waketimeResult)⟩ } ∧
      system.reactor.created ≤ reactor.created ∧ system.reactor.timers ⊆ reactor.timers ∧
      OwnTimer reactor system.otherTimers timer ∧
      (∀ other, other ≠ greenlet → (system.greenlet other).timer ≠ some timer) ∧
      ∀ other, other ≠ timer → reactor.waketime other = system.reactor.waketime other := by
  rw [Completions.pause]
  split
  next timer own =>
    refine ⟨_, timer, rfl, le_rfl, Subset.refl _, consistent.timer_own _ _ own, ?_, ?_⟩
    · intro other different shared
      exact different (consistent.timer_inj other greenlet timer shared own)
    · intro other different
      exact update_of_ne different _ _
  · have fresh : system.reactor.created ∉ system.otherTimers := fun isOther =>
      lt_irrefl _ (consistent.other_lt _ isOther)
    refine ⟨_, system.reactor.created, rfl, Nat.le_succ _, subset_append_left _ _,
      ⟨Nat.lt_succ_self _, mem_append_right _ (mem_singleton_self _), fresh⟩, ?_, ?_⟩
    · intro other _ shared
      exact lt_irrefl _ (consistent.timer_own other _ shared).1
    · intro other different
      exact update_of_ne different _ _

theorem Consistent.not_waiting {greenlet : ℕ} (running : (system.greenlet greenlet).pausedIn = none)
    (completion : ℕ) : greenlet ∉ (system.completion completion).waiting := by
  intro waits
  rcases (consistent.waiting_iff completion greenlet).mp waits with ⟨_, isPaused⟩
  rw [running] at isPaused
  cases isPaused

end

def setWaiting (completions : ℕ → ReactorCompletion) (completion : ℕ) (waiting : List ℕ) :
    ℕ → ReactorCompletion :=
  update completions completion { completions completion with waiting }

theorem setWaiting_result (completions : ℕ → ReactorCompletion) (completion : ℕ)
    (waiting : List ℕ) : ∀ other, (setWaiting completions completion waiting other).result =
      (completions other).result :=
  field_update ReactorCompletion.result (by rfl)

theorem mem_setWaiting_append (completions : ℕ → ReactorCompletion)
    (completion greenlet other waiter : ℕ) : waiter ∈ (setWaiting completions completion
        ((completions completion).waiting ++ [greenlet]) other).waiting ↔
      waiter ∈ (completions other).waiting ∨ waiter = greenlet ∧ other = completion := by
  rw [setWaiting]
  by_cases same : other = completion
  · rw [same]
    simp
  · rw [update_of_ne same]
    tauto

/-- Only the greenlet that is given a timer has another one than before. -/
theorem timer_update_cases (greenlets : ℕ → ReactorGreenlet) (greenlet timer : ℕ)
    (pausedIn : Option (ℕ × Json)) (other own : ℕ)
    (isOwn : (update greenlets greenlet ⟨some timer, pausedIn⟩ other).timer = some own) :
    other = greenlet ∧ own = timer ∨ other ≠ greenlet ∧ (greenlets other).timer = some own := by
  by_cases same : other = greenlet
  · rw [same, update_self] at isOwn
    exact .inl ⟨same, (Option.some.inj isOwn).symm⟩
  · rw [update_of_ne same] at isOwn
    exact .inr ⟨same, isOwn⟩

section

variable (consistent : system.Consistent)
include consistent

/-- A greenlet that runs starts to wait for a completion that is not there yet. -/
theorem Consistent.waitPaused {completion greenlet : ℕ}
    (isNull : (system.completion completion).result.isNull)
    (running : (system.greenlet greenlet).pausedIn = none) (waketime : ℚ) (waketimeResult : Json) :
    { system.pause greenlet waketime completion waketimeResult with
      completion := setWaiting system.completion completion
        ((system.completion completion).waiting ++ [greenlet]) }.Consistent := by
  rcases consistent.pause greenlet waketime completion waketimeResult with
    ⟨reactor, timer, paused, created_le, timers_sub, isOwnTimer, unshared, waketime_eq⟩
  rw [paused]
  have notWaiting := consistent.not_waiting running
  have waits_iff := mem_setWaiting_append system.completion completion greenlet
  -- The timer that a greenlet has after the pause.
  have timer_cases :=
    timer_update_cases system.greenlet greenlet timer (some (completion, waketimeResult))
  have ownTimer : ∀ other own, (update system.greenlet greenlet
      ⟨some timer, some (completion, waketimeResult)⟩ other).timer = some own →
      OwnTimer reactor system.otherTimers own := by
    intro other own isOwn
    rcases timer_cases other own isOwn with ⟨-, rfl⟩ | ⟨-, old⟩
    · exact isOwnTimer
    · rcases consistent.timer_own _ _ old with ⟨lt, member, notOther⟩
      exact ⟨lt_of_lt_of_le lt created_le, timers_sub member, notOther⟩
  exact { consistent with
    other_lt := fun other member =>
      lt_of_lt_of_le (consistent.other_lt other member) created_le
    timer_own := ownTimer
    timer_inj := by
      intro left right own leftOwn rightOwn
      rcases timer_cases left own leftOwn with ⟨rfl, rfl⟩ | ⟨leftOther, leftOld⟩
      · rcases timer_cases right own rightOwn with ⟨rfl, -⟩ | ⟨rightOther, rightOld⟩
        · rfl
        · exact absurd rightOld (unshared right rightOther)
      · rcases timer_cases right own rightOwn with ⟨-, rfl⟩ | ⟨-, rightOld⟩
        · exact absurd leftOld (unshared left leftOther)
        · exact consistent.timer_inj left right own leftOld rightOld
    paused_timer := by
      intro other isPaused
      by_cases same : other = greenlet
      · rw [same]
        simp only [update_self]
        exact some_ne_none _
      · simp only [update_of_ne same] at isPaused ⊢
        exact consistent.paused_timer other isPaused
    waiting_iff := by
      intro other waiter
      rw [waits_iff]
      by_cases isGreenlet : waiter = greenlet
      · rw [isGreenlet]
        simp only [update_self]
        constructor
        · rintro (waits | ⟨-, rfl⟩)
          · exact absurd waits (notWaiting other)
          · exact ⟨waketimeResult, rfl⟩
        · rintro ⟨_, isPaused⟩
          cases isPaused
          exact .inr ⟨trivial, rfl⟩
      · simp only [update_of_ne isGreenlet, isGreenlet, false_and, or_false]
        exact consistent.waiting_iff other waiter
    waiting_nodup := by
      refine (forall_update_iff system.completion
        fun _ completion => completion.waiting.Nodup).mpr
        ⟨?_, fun other _ => consistent.waiting_nodup other⟩
      rw [nodup_append]
      refine ⟨consistent.waiting_nodup completion, nodup_singleton _, ?_⟩
      intro waiter waits last isLast
      rw [mem_singleton.mp isLast]
      rintro rfl
      exact notWaiting completion waits
    due := by
      intro other waiter own complete waits isOwn
      rw [ReactorCompletion.test, setWaiting_result] at complete
      rcases (waits_iff other waiter).mp waits with old | ⟨-, rfl⟩
      · rcases timer_cases waiter own isOwn with ⟨rfl, -⟩ | ⟨different, oldTimer⟩
        · exact absurd old (notWaiting other)
        · have notNew : own ≠ timer := by
            rintro rfl
            exact unshared waiter different oldTimer
          exact (waketime_eq own notNew).trans
            (consistent.due other waiter own complete old oldTimer)
      · rw [isNull] at complete
        cases complete
    result_eq := by simpa only [setWaiting_result] using consistent.result_eq }

theorem Consistent.returned_append {greenlet : ℕ}
    (kept : ∀ last, (system.completed completion).head? = some last → last ≠ .null →
      value = last) :
    ∀ record ∈ system.returned ++
        [⟨completion, greenlet, value, (system.completed completion).head?⟩],
      record.Kept (system.completed record.completion) :=
  forall_mem_append.mpr ⟨consistent.returned, forall_mem_singleton.mpr fun last isLast =>
    ⟨mem_of_head? isLast, kept last isLast⟩⟩

theorem Consistent.wait (completion : ℕ) {greenlet : ℕ}
    (running : (system.greenlet greenlet).pausedIn = none) (waketime : ℚ) (waketimeResult : Json) :
    (system.wait completion greenlet waketime waketimeResult).Consistent := by
  rw [Completions.wait]
  split
  next isNull => exact consistent.waitPaused isNull running waketime waketimeResult
  · exact {
      consistent with
      returned := consistent.returned_append fun last isLast _ =>
        consistent.result_of_completed isLast }

theorem Consistent.finishWait {greenlet timer completion : ℕ} {waketimeResult : Json}
    (paused : system.greenlet greenlet = ⟨some timer, some (completion, waketimeResult)⟩) :
    (system.finishWait greenlet timer completion waketimeResult).Consistent := by
  have own : (system.greenlet greenlet).timer = some timer := by rw [paused]
  have sameTimer : ∀ other, (update system.greenlet greenlet ⟨some timer, none⟩
      other).timer = (system.greenlet other).timer :=
    field_update ReactorGreenlet.timer own.symm
  have waits_iff : ∀ other waiter, waiter ∈ (setWaiting system.completion completion
      ((system.completion completion).waiting.erase greenlet) other).waiting ↔
      waiter ∈ (system.completion other).waiting ∧ waiter ≠ greenlet := by
    intro other waiter
    rw [setWaiting]
    by_cases same : other = completion
    · rw [same, update_self, (consistent.waiting_nodup completion).mem_erase_iff]
      exact And.comm
    rw [update_of_ne same, iff_self_and]
    -- The greenlet is paused in another call.
    rintro waits rfl
    rw [consistent.waiting_iff, paused] at waits
    rcases waits with ⟨_, isPaused⟩
    cases isPaused
    exact same rfl
  rw [Completions.finishWait]
  exact { consistent with
    timer_own := by
      simp only [sameTimer]
      exact consistent.timer_own
    timer_inj := by simpa only [sameTimer] using consistent.timer_inj
    paused_timer := by
      intro other isPaused
      rw [sameTimer]
      apply consistent.paused_timer other
      by_cases same : other = greenlet
      · rw [same, paused]
        exact some_ne_none _
      · simpa only [update_of_ne same] using isPaused
    waiting_iff := by
      intro other waiter
      apply (waits_iff other waiter).trans
      by_cases isGreenlet : waiter = greenlet
      · rw [isGreenlet]
        simp
      · simp only [update_of_ne isGreenlet, ne_eq, isGreenlet, not_false_eq_true, and_true]
        exact consistent.waiting_iff other waiter
    waiting_nodup :=
      (forall_update_iff system.completion
        fun _ completion => completion.waiting.Nodup).mpr
        ⟨(consistent.waiting_nodup completion).erase _,
          fun other _ => consistent.waiting_nodup other⟩
    due := by
      intro other waiter waiterTimer complete waits isOwn
      rw [sameTimer] at isOwn
      rcases (waits_iff other waiter).mp waits with ⟨waited, different⟩
      have notOwn : waiterTimer ≠ timer := by
        rintro rfl
        exact different (consistent.timer_inj waiter greenlet _ isOwn own)
      have wasComplete : (system.completion other).test := by
        rw [ReactorCompletion.test, ← setWaiting_result system.completion completion]
        exact complete
      exact (update_of_ne notOwn _ _).trans
        (consistent.due other waiter waiterTimer wasComplete waited isOwn)
    result_eq := fun other => (setWaiting_result ..).trans (consistent.result_eq other)
    returned := by
      apply consistent.returned_append
      intro last isLast notNull
      have result := consistent.result_of_completed isLast
      rw [ReactorCompletion.resumed, result, Json.isNull_eq_false_iff.mpr notNull]
      rfl }

theorem Consistent.endGreenlet {greenlet timer : ℕ}
    (ends : system.greenlet greenlet = ⟨some timer, none⟩) : { system with
      reactor := system.reactor.unregisterTimer timer
      greenlet := update system.greenlet greenlet ⟨none, none⟩ }.Consistent := by
  have own : (system.greenlet greenlet).timer = some timer := by rw [ends]
  have timer_cases : ∀ other otherTimer, (update system.greenlet greenlet
      ⟨none, none⟩ other).timer = some otherTimer →
      (system.greenlet other).timer = some otherTimer ∧ otherTimer ≠ timer := by
    intro other otherTimer isOwn
    by_cases same : other = greenlet
    · rw [same, update_self] at isOwn
      cases isOwn
    rw [update_of_ne same] at isOwn
    refine ⟨isOwn, ?_⟩
    rintro rfl
    exact same (consistent.timer_inj other greenlet _ isOwn own)
  have samePaused : ∀ other, (update system.greenlet greenlet
      ⟨none, none⟩ other).pausedIn = (system.greenlet other).pausedIn :=
    field_update ReactorGreenlet.pausedIn (by rw [ends])
  exact {
    consistent with
    timer_own := by
      intro other otherTimer isOwn
      rcases timer_cases other otherTimer isOwn with ⟨old, different⟩
      rcases consistent.timer_own other otherTimer old with ⟨lt, member, notOther⟩
      exact ⟨lt, mem_filter.mpr ⟨member, decide_eq_true different⟩, notOther⟩
    timer_inj := fun left right otherTimer leftOwn rightOwn =>
      consistent.timer_inj left right otherTimer (timer_cases left otherTimer leftOwn).1
        (timer_cases right otherTimer rightOwn).1
    paused_timer := by
      intro other isPaused
      rw [samePaused] at isPaused
      have different : other ≠ greenlet := by
        rintro rfl
        rw [ends] at isPaused
        exact isPaused rfl
      simp only [update_of_ne different]
      exact consistent.paused_timer other isPaused
    waiting_iff := by simpa only [samePaused] using consistent.waiting_iff
    due := by
      intro completion other otherTimer complete waits isOwn
      rcases timer_cases other otherTimer isOwn with ⟨old, different⟩
      exact (update_of_ne different _ _).trans
        (consistent.due completion other otherTimer complete waits old) }

theorem Consistent.withReactor {reactor : SelectReactor}
    (created_le : system.reactor.created ≤ reactor.created)
    (timers : ∀ timer ∈ system.reactor.timers, timer ∉ system.otherTimers → timer ∈ reactor.timers)
    (waketime : ∀ timer < system.reactor.created, timer ∉ system.otherTimers →
      reactor.waketime timer = system.reactor.waketime timer) :
    { system with reactor }.Consistent :=
  { consistent with
    other_lt := fun timer member =>
      lt_of_lt_of_le (consistent.other_lt timer member) created_le
    timer_own := by
      intro greenlet timer own
      rcases consistent.timer_own greenlet timer own with ⟨lt, member, notOther⟩
      exact ⟨lt_of_lt_of_le lt created_le, timers timer member notOther, notOther⟩
    due := by
      intro completion greenlet timer complete waits own
      rcases consistent.timer_own greenlet timer own with ⟨lt, -, notOther⟩
      rw [waketime timer lt notOther]
      exact consistent.due completion greenlet timer complete waits own }

theorem Consistent.registerTimer (waketime : ℚ) : { system with
      reactor := system.reactor.registerTimer waketime
      otherTimers := system.otherTimers ++ [system.reactor.created] }.Consistent := by
  have registered :
      { system with reactor := system.reactor.registerTimer waketime }.Consistent :=
    consistent.withReactor (Nat.le_succ _) (fun timer member _ => mem_append_left _ member)
      (fun timer old _ => update_of_ne old.ne _ _)
  exact {
    registered with
    other_lt := forall_mem_append.mpr
      ⟨registered.other_lt, forall_mem_singleton.mpr (Nat.lt_succ_self _)⟩
    timer_own := by
      intro greenlet timer own
      rcases registered.timer_own greenlet timer own with ⟨lt, member, notOther⟩
      have notNew := (consistent.timer_own greenlet timer own).1.ne
      exact ⟨lt, member, by simp [notOther, notNew]⟩ }

theorem Consistent.updateTimer (isOther : timer ∈ system.otherTimers) (waketime : ℚ) :
    { system with reactor := system.reactor.updateTimer timer waketime }.Consistent := by
  refine consistent.withReactor le_rfl (fun _ member _ => member) ?_
  intro own _ notOther
  apply update_of_ne
  rintro rfl
  exact notOther isOther

theorem Consistent.unregisterTimer (isOther : timer ∈ system.otherTimers) :
    { system with reactor := system.reactor.unregisterTimer timer }.Consistent := by
  have different : ∀ own, own ∉ system.otherTimers → own ≠ timer := by
    rintro own notOther rfl
    exact notOther isOther
  refine consistent.withReactor le_rfl ?_ ?_
  · intro own member notOther
    exact mem_filter.mpr ⟨member, decide_eq_true (different own notOther)⟩
  · intro own _ notOther
    exact update_of_ne (different own notOther) _ _

theorem Consistent.step {event : CompletionEvent} (stepped : system.step event = some next) :
    next.Consistent := by
  cases event with
  | newCompletion =>
    cases stepped
    exact { consistent with }
  | wait completion greenlet waketime waketimeResult =>
    rcases ite_none_right_eq_some.mp stepped with ⟨⟨-, running⟩, ⟨⟩⟩
    exact consistent.wait completion (isNone_iff_eq_none.mp running) waketime waketimeResult
  | resume greenlet eventtime =>
    rw [Completions.step, Completions.resume] at stepped
    split at stepped
    next timer completion waketimeResult paused =>
      rcases ite_none_right_eq_some.mp stepped with ⟨-, ⟨⟩⟩
      exact consistent.finishWait paused
    · cases stepped
  | endGreenlet greenlet =>
    rw [Completions.step, Completions.endGreenlet] at stepped
    split at stepped
    next timer ends =>
      cases stepped
      exact consistent.endGreenlet ends
    · cases stepped
  | complete completion result =>
    rcases ite_none_right_eq_some.mp stepped with ⟨-, ⟨⟩⟩
    exact consistent.complete completion result
  | asyncComplete completion result =>
    rcases ite_none_right_eq_some.mp stepped with ⟨-, ⟨⟩⟩
    exact { consistent with }
  | gotPipeSignal =>
    cases stepped
    exact { consistent.completeAll system.asyncQueue with }
  | registerTimer waketime =>
    cases stepped
    exact consistent.registerTimer waketime
  | updateTimer timer waketime =>
    rcases ite_none_right_eq_some.mp stepped with ⟨isOther, ⟨⟩⟩
    exact consistent.updateTimer isOther waketime
  | unregisterTimer timer =>
    rcases ite_none_right_eq_some.mp stepped with ⟨isOther, ⟨⟩⟩
    exact consistent.unregisterTimer isOther
  | invokeCallback timer completion result =>
    rcases ite_none_right_eq_some.mp stepped with ⟨⟨isOther, -⟩, ⟨⟩⟩
    exact (consistent.unregisterTimer isOther).complete completion result
  | rawSendWaitAck greenlet =>
    rcases ite_none_right_eq_some.mp stepped with ⟨running, ⟨⟩⟩
    have created : { system.newCompletion with
        lastNotifyId := system.lastNotifyId + 1
        pendingNotifications := system.pendingNotifications ++
          [(system.lastNotifyId + 1, system.created)] }.Consistent := { consistent with }
    exact created.wait system.created (isNone_iff_eq_none.mp running) never (.object [])
  | notified notifyId params =>
    rw [Completions.step] at stepped
    split at stepped
    · cases stepped
      exact consistent
    · cases stepped
      exact { consistent with }
  | disconnect =>
    cases stepped
    exact { consistent.completeAll _ with }
  | trsyncStart trsync completion =>
    rcases ite_none_right_eq_some.mp stepped with ⟨-, ⟨⟩⟩
    exact { consistent with }
  | trsyncShutdown trsync =>
    cases stepped
    rw [Completions.trsyncShutdown]
    split
    · exact consistent
    next completion _ =>
      have cleared : { system with
          triggerCompletion := update system.triggerCompletion trsync none }.Consistent :=
        { consistent with }
      exact cleared.complete completion .null

end

/-! ## What a completed completion promises -/

/-- No wait for the completion, whose last value is the given one, is lost: it tests as
complete, each greenlet that waits is due and gets the value when it is resumed, a later
`wait` returns the value without a pause, and each that has returned since the first
`complete` got the value that was the last one then. -/
structure Kept (system : Completions) (completion : ℕ) (value : Json) : Prop where
  test : (system.completion completion).test = true
  pending : ∀ greenlet ∈ (system.completion completion).waiting, ∀ eventtime ≥ now,
    ∃ next, system.resume greenlet eventtime = some next ∧
      next.returned = system.returned ++ [⟨completion, greenlet, value, some value⟩]
  later : ∀ greenlet waketime waketimeResult,
    system.wait completion greenlet waketime waketimeResult =
      { system with returned := system.returned ++ [⟨completion, greenlet, value, some value⟩] }
  returned : ∀ record ∈ system.returned, record.completion = completion →
    ∀ last ∈ record.completedWith, record.value = last

/-- After every run, a completion that has been completed keeps what it promises, if none of
the calls of `complete` gave it `null`. -/
theorem completion_kept {events : List CompletionEvent} {final : Completions}
    (ran : runEvents step start events = some final) {completion : ℕ} {value : Json}
    (completed : (final.completed completion).head? = some value)
    (notNull : .null ∉ final.completed completion) : final.Kept completion value := by
  have consistent : final.Consistent := runEvents_invariant
    (fun _ _ _ holds stepped => Consistent.step holds stepped) start_consistent ran
  have result := consistent.result_of_completed completed
  have isNull : (final.completion completion).result.isNull = false := by
    rw [result, Json.isNull_eq_false_iff]
    rintro rfl
    exact notNull (mem_of_head? completed)
  have complete : (final.completion completion).test := by
    rw [ReactorCompletion.test, isNull]
    rfl
  exact {
    test := complete
    pending := by
      intro greenlet waits eventtime afterNow
      rcases (consistent.waiting_iff completion greenlet).mp waits with
        ⟨waketimeResult, pausedIn⟩
      have hasTimer := consistent.paused_timer greenlet (by simp [pausedIn])
      rcases ne_none_iff_exists'.mp hasTimer with ⟨timer, own⟩
      have paused : final.greenlet greenlet = ⟨some timer, some (completion, waketimeResult)⟩ := by
        rw [← own, ← pausedIn]
      have due : final.reactor.waketime timer ≤ eventtime := by
        rw [consistent.due completion greenlet timer complete waits own]
        exact afterNow
      refine ⟨final.finishWait greenlet timer completion waketimeResult, ?_, ?_⟩
      · rw [Completions.resume, paused]
        exact if_pos ⟨(consistent.timer_own greenlet timer own).2.1, due⟩
      · rw [Completions.finishWait, ReactorCompletion.resumed, isNull, result, completed]
        rfl
    later := by
      intro greenlet waketime waketimeResult
      rw [Completions.wait, isNull, result, completed]
      rfl
    returned := by
      rintro record member rfl last isLast
      rcases consistent.returned record member last isLast with ⟨given, kept⟩
      refine kept ?_
      rintro rfl
      exact notNull given }

/-- A greenlet waits, others complete with `true` and then with 2 before it is resumed. -/
theorem completion_kept_waiting :
    ∃ final, runEvents step start
        [.newCompletion, .wait 0 7 never (.object []), .complete 0 (.boolean true),
          .wait 0 8 never (.object []), .complete 0 (.number 2)] = some final ∧
      7 ∈ (final.completion 0).waiting ∧ final.Kept 0 (.number 2) := by
  refine exists_of_ran rfl fun ran => ⟨mem_singleton_self 7, ?_⟩
  refine completion_kept ran rfl fun isNull => ?_
  rcases mem_cons.mp isNull with isNull | isNull
  · cases isNull
  · cases mem_singleton.mp isNull

/-- The trsync is shut down before the homing move waits for its trigger: the completion does
not test as complete, and the greenlet is paused for ever. One that waited before gets
`waketime_result` in place of the value. -/
theorem completion_lost :
    (∃ final, runEvents step start
        [.newCompletion, .trsyncStart 0 0, .trsyncShutdown 0, .wait 0 7 never (.object [])] =
          some final ∧
      final.completed 0 = [.null] ∧ (final.completion 0).test = false ∧
      final.greenlet 7 = ⟨some 0, some (0, .object [])⟩ ∧
      final.reactor.waketime 0 = never) ∧
    ∃ final, runEvents step start
        [.rawSendWaitAck 7, .disconnect, .resume 7 now] = some final ∧
      final.returned = [⟨0, 7, .object [], some .null⟩] := by
  constructor
  · exact ⟨_, rfl, rfl, rfl, rfl, rfl⟩
  · refine ⟨_, rfl, rfl⟩

end Completions

end CentauriCarbon.Reactor
