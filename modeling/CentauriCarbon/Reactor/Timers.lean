import Mathlib.Data.List.Nodup
import Mathlib.Algebra.Order.Ring.Unbundled.Rat

/-! # The timers of the reactor

The reactor runs the callbacks of the timers that are due. A callback may register,
unregister and update timers, and so change the very vector that the reactor walks along.
Times, `double` in the source, are rational numbers.
-/

namespace CentauriCarbon.Reactor

open Function

def never : ℚ := 9999999999999999

structure SelectReactor where
  timers : List ℕ
  waketime : ℕ → ℚ
  nextTimer : ℚ
  /-- How many timers have been created. -/
  created : ℕ

namespace SelectReactor

variable (reactor : SelectReactor)

def updateTimer (timer : ℕ) (waketime : ℚ) : SelectReactor :=
  { reactor with
    waketime := update reactor.waketime timer waketime
    nextTimer := min reactor.nextTimer waketime }

def registerTimer (waketime : ℚ) : SelectReactor :=
  { timers := reactor.timers ++ [reactor.created]
    waketime := update reactor.waketime reactor.created waketime
    nextTimer := min reactor.nextTimer waketime
    created := reactor.created + 1 }

def unregisterTimer (timer : ℕ) : SelectReactor :=
  { reactor with
    waketime := update reactor.waketime timer never
    timers := reactor.timers.filter fun other => other ≠ timer }

end SelectReactor

inductive ReactorAction where
  | update (timer : ℕ) (waketime : ℚ)
  | register (waketime : ℚ)
  | unregister (timer : ℕ)
  deriving DecidableEq

structure Response where
  actions : List ReactorAction
  result : ℚ

namespace SelectReactor

/-- One action. There is no result when a vector at its capacity moves to other storage, away
from the loop that walks along it. -/
def act (capacity : ℕ) (reactor : SelectReactor) : ReactorAction → Option SelectReactor
  | .update timer waketime => some (reactor.updateTimer timer waketime)
  | .register waketime =>
    if reactor.timers.length < capacity then some (reactor.registerTimer waketime) else none
  | .unregister timer => some (reactor.unregisterTimer timer)

def invoke (capacity : ℕ) (reactor : SelectReactor) (timer : ℕ) (response : Response) :
    Option SelectReactor :=
  (response.actions.foldlM (act capacity)
    { reactor with waketime := update reactor.waketime timer never }).map
    fun reactor => { reactor with
      waketime := update reactor.waketime timer response.result
      nextTimer := min reactor.nextTimer response.result }

end SelectReactor

structure Invoked where
  timer : ℕ
  before : SelectReactor
  after : SelectReactor

/-- The loop of `check_timers`: the reactor, and the callbacks that were run. -/
structure TimerPass where
  reactor : SelectReactor
  trace : List Invoked

namespace TimerPass

def invoked (pass : TimerPass) : List ℕ := pass.trace.map Invoked.timer

/-- One round of the loop. There is no result at a place behind the end of the vector, where
the timer that was there has been destroyed. `callback` says what the callback of each timer
does in this pass. -/
def visit (capacity : ℕ) (eventtime : ℚ) (callback : ℕ → Response) (pass : TimerPass)
    (place : ℕ) : Option TimerPass :=
  match pass.reactor.timers[place]? with
  | none => none
  | some timer =>
    let waketime := pass.reactor.waketime timer
    if waketime ≤ eventtime then
      (pass.reactor.invoke capacity timer (callback timer)).map fun after =>
        ⟨after, pass.trace ++ [⟨timer, pass.reactor, after⟩]⟩
    else
      some { pass with
        reactor := { pass.reactor with nextTimer := min pass.reactor.nextTimer waketime } }

end TimerPass

/-- `check_timers`, with the timeout it returns. The range of the loop is that of the vector
at its start. No coroutine switch cuts the loop short. -/
def SelectReactor.checkTimers (capacity : ℕ) (callback : ℕ → Response)
    (reactor : SelectReactor) (eventtime : ℚ) (busy : Bool) : Option (TimerPass × ℚ) :=
  if eventtime < reactor.nextTimer then
    some (⟨reactor, []⟩,
      if busy then 0 else min 1 (max (1 / 1000) (reactor.nextTimer - eventtime)))
  else
    ((List.range reactor.timers.length).foldlM
      (TimerPass.visit capacity eventtime callback)
      ⟨{ reactor with nextTimer := never }, []⟩).map fun pass => (pass, 0)

end CentauriCarbon.Reactor
