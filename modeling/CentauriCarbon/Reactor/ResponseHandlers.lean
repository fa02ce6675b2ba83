import CentauriCarbon.Reactor.Completion

/-! # Queries and their response handlers

A query registers a handler for its response when it is created, and removes it before its
`get_response` returns or gives up. When the connection is closed while the query waits for an
ack, the call raises with the handler still in the table.
-/

namespace CentauriCarbon.Reactor

open Function Completions

/-- What the callback of a handler calls into. -/
inductive HandlerOwner where
  | query
  | other (object : ℕ)

/-- The `handlers` of a serial reader, by the name and the oid of the response. -/
abbrev Handlers := String × UInt32 → Option HandlerOwner

variable (handlers : Handlers) (warnPrefix name : String) (oid : UInt32)

def registerResponse (callback : Option HandlerOwner) : Handlers :=
  update handlers (name, oid) callback

/-- The table after the constructor of a query, with the handlers of other objects. -/
def queryHandlers (others : String × UInt32 → Option ℕ) : Handlers :=
  registerResponse (fun key => (others key).map .other) name oid (some .query)

/-- The call with a number of retries left: what the completion of `raw_send_wait_ack` is given,
and `last_params` behind it. -/
def SerialRetryCommand.getResponse (acked lastParams : ℕ → Json) (retries : ℕ) :
    Except String Json × Handlers :=
  match rawSendWaitAckResult warnPrefix (acked retries) with
  | .error message => (.error message, handlers)
  | .ok _ =>
    if !(lastParams retries).isEmpty then
      (.ok (lastParams retries), registerResponse handlers name oid none)
    else
      match retries with
      | 0 => (.error ("Unable to obtain " ++ name ++ " response"),
          registerResponse handlers name oid none)
      | retries + 1 => getResponse acked lastParams retries

namespace RetryAsyncCommand

/-- The loop of the call: what the completion of the query is given by the end of each wait, and
`query_time` then. It goes on after the last of the waits. -/
def waitLoop (firstQueryTime : ℚ) : List (Json × ℚ) → Option (Except String Json × Handlers)
  | [] => none
  | (params, queryTime) :: waits =>
    if !params.isEmpty then some (.ok params, registerResponse handlers name oid none)
    else if queryTime > firstQueryTime + 5 then
      some (.error ("Timeout on wait for '" ++ name ++ "' response"),
        registerResponse handlers name oid none)
    else waitLoop firstQueryTime waits

def getResponse (acked : Json) (firstQueryTime : ℚ) (waits : List (Json × ℚ)) :
    Option (Except String Json × Handlers) :=
  match rawSendWaitAckResult warnPrefix acked with
  | .error message => some (.error message, handlers)
  | .ok _ => waitLoop handlers name oid firstQueryTime waits

end RetryAsyncCommand

/-- No entry of the table refers to the query. -/
def Removed (handlers : Handlers) : Prop := ∀ key, handlers key ≠ some .query

/-- Each send that the call with that many retries left reaches, as no `last_params` before it
answered the query, is completed with a value. -/
def SerialRetryCommand.Acked (acked lastParams : ℕ → Json) (retries : ℕ) : Prop :=
  ∀ left ≤ retries, (∀ earlier ≤ retries, left < earlier → (lastParams earlier).isEmpty) →
    ¬ (acked left).isEmpty

variable {warnPrefix name oid} {others : String × UInt32 → Option ℕ}

theorem not_removed_queryHandlers : ¬ Removed (queryHandlers name oid others) := by
  intro removed
  apply removed (name, oid)
  rw [queryHandlers, registerResponse, update_self]

theorem removed_registerResponse :
    Removed (registerResponse (queryHandlers name oid others) name oid none) := by
  intro key
  rw [queryHandlers, registerResponse, registerResponse, update_idem, update_apply]
  split
  · nofun
  · cases others key <;> nofun

theorem isEmpty_of_raised (raised : rawSendWaitAckResult warnPrefix acked = .error message) :
    acked.isEmpty := by
  rw [rawSendWaitAckResult] at raised
  split at raised
  · assumption
  · cases raised

theorem not_isEmpty_of_sent (sent : rawSendWaitAckResult warnPrefix acked = .ok params) :
    ¬ acked.isEmpty := by
  intro isEmpty
  rw [rawSendWaitAckResult, if_pos isEmpty] at sent
  cases sent

namespace SerialRetryCommand

variable {acked lastParams : ℕ → Json}

/-- The handler is removed exactly if no send that the call reaches is cut off. -/
theorem getResponse_removed_iff (retries : ℕ) :
    Removed (getResponse (queryHandlers name oid others) warnPrefix name oid acked lastParams
      retries).2 ↔ Acked acked lastParams retries := by
  fun_induction getResponse with
  | case1 retries _ raised =>
    refine iff_of_false not_removed_queryHandlers fun allAcked => ?_
    exact allAcked retries le_rfl (by omega) (isEmpty_of_raised raised)
  | case2 retries _ sent answered =>
    refine iff_of_true removed_registerResponse fun left le unanswered => ?_
    rcases le.eq_or_lt with rfl | lt
    · exact not_isEmpty_of_sent sent
    · simp [unanswered retries le_rfl lt] at answered
  | case3 _ sent =>
    refine iff_of_true removed_registerResponse fun left le _ => ?_
    rw [Nat.le_zero.mp le]
    exact not_isEmpty_of_sent sent
  | case4 retries _ sent unanswered induction =>
    rw [induction]
    constructor
    · intro allAcked left le silent
      rcases le.eq_or_lt with rfl | lt
      · exact not_isEmpty_of_sent sent
      · exact allAcked left (Nat.le_of_lt_succ lt) fun earlier le => silent earlier (by omega)
    · intro allAcked left le silent
      refine allAcked left (by omega) fun earlier earlierLe after => ?_
      rcases earlierLe.eq_or_lt with rfl | lt
      · simpa using unanswered
      · exact silent earlier (Nat.le_of_lt_succ lt) after

end SerialRetryCommand

/-- When a call of either kind has returned or raised, the table has no entry of the query
exactly if each `raw_send_wait_ack` that the call reaches was completed with a value. -/
theorem handler_removed_iff (warnPrefix name : String) (oid : UInt32)
    (others : String × UInt32 → Option ℕ) :
    (∀ acked lastParams, Removed (SerialRetryCommand.getResponse (queryHandlers name oid others)
      warnPrefix name oid acked lastParams 20).2 ↔ SerialRetryCommand.Acked acked lastParams 20) ∧
    ∀ acked firstQueryTime waits, ∀ ended ∈ RetryAsyncCommand.getResponse
      (queryHandlers name oid others) warnPrefix name oid acked firstQueryTime waits,
        (Removed ended.2 ↔ ¬ acked.isEmpty) := by
  refine ⟨fun acked lastParams => SerialRetryCommand.getResponse_removed_iff 20, ?_⟩
  intro acked firstQueryTime waits ended ran
  rw [RetryAsyncCommand.getResponse] at ran
  split at ran
  next raised =>
    cases ran
    exact iff_of_false not_removed_queryHandlers fun sent => sent (isEmpty_of_raised raised)
  next sent =>
    refine iff_of_true ?_ (not_isEmpty_of_sent sent)
    fun_induction RetryAsyncCommand.waitLoop with
    | case1 => cases ran
    | case2 | case3 =>
      cases ran
      exact removed_registerResponse
    | case4 _ _ _ _ _ induction => exact induction ran

/-- The connection is closed during the first send of either kind of query. -/
theorem handler_left_registered :
    (SerialRetryCommand.getResponse (queryHandlers "identify_response" 0 fun _ => none)
      "mcu 'mcu': " "identify_response" 0 (fun _ => .null) (fun _ => .null) 20).2
        ("identify_response", 0) = some .query ∧
    (RetryAsyncCommand.getResponse (queryHandlers "adc_state" 3 fun _ => none)
      "mcu 'mcu': " "adc_state" 3 .null 0 []).map (·.2 ("adc_state", 3)) = some (some .query) :=
  ⟨rfl, rfl⟩

end CentauriCarbon.Reactor
