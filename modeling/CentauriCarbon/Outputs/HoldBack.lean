import CentauriCarbon.Foundation.EventRun
import CentauriCarbon.SerialLink.StalledMessages
import Mathlib.Data.Rat.Floor

/-! # Updates of output pins on the host

`MCU_digital_out` and `MCU_pwm` send each update of a pin with the clock of the update before it
as the time to which it is to be held back: the micro-controller reserves room for one update of
a pin. The clocks pass through `CommandWrapper::send`, which takes words of 32 bits.
-/

namespace CentauriCarbon.Outputs

open List SerialLink

structure CommandWrapper where
  encode : List ℕ → List UInt8
  encode_ne_nil : ∀ data, encode data ≠ []
  cmdQueue : ℕ

def rawSend (cmd : List UInt8) (minclock reqclock : UInt64) : QueueMessage :=
  ⟨cmd, minclock, reqclock, 0⟩

def CommandWrapper.send (wrapper : CommandWrapper) (data : List ℕ) (minclock reqclock : UInt32) :
    QueueMessage :=
  rawSend (wrapper.encode data) minclock.toUInt64 reqclock.toUInt64

inductive PinKind where
  | digital
  | pwm (pwmMax : ℚ)

structure PinOutput where
  kind : PinKind
  oid : ℕ
  invert : Bool
  lastClock : UInt64
  setCmd : CommandWrapper

namespace PinOutput

variable (out : PinOutput)

def sendUpdate (clock : UInt64) (value : ℕ) : PinOutput × QueueMessage :=
  ({ out with lastClock := clock },
    out.setCmd.send [out.oid, clock.toNat, value] out.lastClock.toUInt32 clock.toUInt32)

def setDigital (clock : UInt64) (value : ℚ) : PinOutput × QueueMessage :=
  out.sendUpdate clock ((decide (value ≠ 0)) ^^ out.invert).toNat

def setPwm (pwmMax : ℚ) (clock : UInt64) (value : ℚ) : PinOutput × QueueMessage :=
  let value := if out.invert then 1 - value else value
  out.sendUpdate clock ⌊max 0 (min 1 value) * pwmMax + 1 / 2⌋₊

def setValue (clock : UInt64) (value : ℚ) : PinOutput × QueueMessage :=
  match out.kind with
  | .digital => out.setDigital clock value
  | .pwm pwmMax => out.setPwm pwmMax clock value

end PinOutput

structure PinLink where
  out : PinOutput
  queue : SerialQueue
  /-- The clocks of the updates. -/
  clocks : List UInt64
  /-- What `serialqueue_send` was called with. -/
  requests : List QueueMessage
  /-- The messages of the pin that are no longer held back, with the clock that
  `check_send_command` had computed. Only then they can be transmitted. -/
  released : List (QueueMessage × UInt64)

inductive PinLinkEvent where
  | setValue (clock : UInt64) (value : ℚ)
  /-- Messages on other command queues. -/
  | sendBatch (cq : ℕ) (msgs : List QueueMessage)
  | checkSendCommand (clocks : SendClocks)
  | buildAndSendCommand
  | handleMessage (msg : List UInt8)
  | retransmitEvent

namespace PinLink

def upcoming (link : PinLink) : List QueueMessage :=
  upcomingIn link.queue.pendingQueues link.out.setCmd.cmdQueue

def leaving (before after : List QueueMessage) : List QueueMessage :=
  before.take (before.length - after.length)

def step (link : PinLink) : PinLinkEvent → Option PinLink
  | .setValue clock value =>
    let (out, qm) := link.out.setValue clock value
    some { link with
      out
      queue := serialqueueSendBatch link.queue out.setCmd.cmdQueue [qm]
      clocks := link.clocks ++ [clock]
      requests := link.requests ++ [qm] }
  | .sendBatch cq msgs =>
    if link.out.setCmd.cmdQueue = cq then none
    else some { link with queue := serialqueueSendBatch link.queue cq msgs }
  | .checkSendCommand clocks =>
    let next := { link with queue := (checkSendCommand link.queue clocks).2 }
    some { next with
      released := link.released ++
        (leaving link.upcoming next.upcoming).map fun qm => (qm, clocks.ackClock) }
  | .buildAndSendCommand =>
    (buildAndSendCommand link.queue).map fun (queue, _) => { link with queue }
  | .handleMessage msg =>
    some { link with queue := handleMessage link.queue msg }
  | .retransmitEvent => some { link with queue := retransmitEvent link.queue }

def initial (out : PinOutput) (receiveWindow : Int) : PinLink where
  out
  queue := { serialqueueAlloc with receiveWindow }
  clocks := []
  requests := []
  released := []

/-- Each update is sent with the clock of the one before it and its own, starting from the given
clock. When it is released, the one before it is due and so are all earlier ones: none of them
still needs the room that is reserved for the pin. -/
structure HeldBack (link : PinLink) (start : UInt64) : Prop where
  requests : link.requests.map (fun qm => (qm.minClock, qm.reqClock)) =
    (start :: link.clocks).zip link.clocks
  previous : ∀ (index : ℕ) (entry : QueueMessage × UInt64),
    link.released[index]? = some entry →
      ∀ clock, (start :: link.clocks)[index]? = some clock → clock ≤ entry.2
  earlier : ∀ (index : ℕ) (entry : QueueMessage × UInt64),
    link.released[index]? = some entry → ∀ clock ∈ link.clocks.take index, clock ≤ entry.2

/-! ## The account of the updates -/

def sentClock (clock : UInt64) : UInt64 := clock.toUInt32.toUInt64

structure Account (start : UInt64) (link : PinLink) : Prop where
  lastClock : link.out.lastClock = link.clocks.getLastD start
  requests : link.requests.map (fun qm => (qm.minClock, qm.reqClock)) =
    ((start :: link.clocks).zip link.clocks).map (Prod.map sentClock sentClock)
  distinct : DistinctIds link.queue.pendingQueues
  messages : link.requests.map limitMinClock = link.released.map Prod.fst ++ link.upcoming
  reached : ∀ entry ∈ link.released, entry.1.minClock ≤ entry.2

theorem zip_concat (start : UInt64) (clocks : List UInt64) (clock : UInt64) :
    (start :: (clocks ++ [clock])).zip (clocks ++ [clock]) =
      (start :: clocks).zip clocks ++ [(clocks.getLastD start, clock)] := by
  induction clocks generalizing start with
  | nil => rfl
  | cons first clocks induction =>
    rw [cons_append, zip_cons_cons, induction, zip_cons_cons, cons_append, getLastD_cons]

theorem setValue_eq (out : PinOutput) (clock : UInt64) (value : ℚ) :
    ∃ msg, msg ≠ [] ∧ out.setValue clock value =
      ({ out with lastClock := clock }, ⟨msg, sentClock out.lastClock, sentClock clock, 0⟩) := by
  rw [PinOutput.setValue]
  split
  · exact ⟨_, out.setCmd.encode_ne_nil _, rfl⟩
  · exact ⟨_, out.setCmd.encode_ne_nil _, rfl⟩

namespace Account

variable {link : PinLink} {start : UInt64}

theorem initial (out : PinOutput) (receiveWindow : Int) :
    (PinLink.initial out receiveWindow).Account out.lastClock where
  lastClock := rfl
  requests := rfl
  distinct := nodup_nil
  messages := rfl
  reached := by
    nofun

variable {next : PinLink}

variable (account : link.Account start)
include account

theorem setValue {clock : UInt64} {value : ℚ}
    (stepped : link.step (.setValue clock value) = some next) : next.Account start := by
  rcases setValue_eq link.out clock value with ⟨msg, some_bytes, sent⟩
  rw [step, sent] at stepped
  cases stepped
  exact { account with
    lastClock := by
      rw [getLastD_concat]
    requests := by
      rw [zip_concat, map_append, map_append, account.requests, account.lastClock]
      rfl
    distinct := distinctIds_sendBatch _ _ account.distinct
    messages := by
      dsimp only [upcoming]
      rw [upcomingIn_send _ _ some_bytes, map_append, account.messages, append_assoc]
      rfl }

theorem checkSendCommand {clocks : SendClocks}
    (stepped : link.step (.checkSendCommand clocks) = some next) : next.Account start := by
  cases stepped
  rcases upcomingIn_check link.queue link.out.setCmd.cmdQueue clocks with
    ⟨released, split_eq, reached⟩
  have left : leaving link.upcoming (upcomingIn (checkSendCommand link.queue
      clocks).2.pendingQueues link.out.setCmd.cmdQueue) = released := by
    rw [upcoming, split_eq, leaving, length_append, Nat.add_sub_cancel, take_left]
  exact { account with
    distinct := by
      rcases checkSendCommand_pendingQueues link.queue clocks with same | promoted
      · rw [same]
        exact account.distinct
      · rw [promoted, DistinctIds, map_id_promote]
        exact account.distinct
    messages := by
      have before := account.messages
      dsimp only [upcoming] at before left ⊢
      rw [left, before, split_eq, map_append, map_map, append_assoc]
      congr 2
      exact (map_id _).symm
    reached := by
      dsimp only [upcoming] at left ⊢
      rw [left]
      exact forall_mem_append.mpr ⟨account.reached, forall_mem_map.mpr reached⟩ }

theorem setQueue {queue : SerialQueue} (distinct : DistinctIds queue.pendingQueues)
    (same : upcomingIn queue.pendingQueues link.out.setCmd.cmdQueue =
      upcomingIn link.queue.pendingQueues link.out.setCmd.cmdQueue) :
    { link with queue }.Account start :=
  { account with
    distinct
    messages := by
      rw [upcoming, same]
      exact account.messages }

theorem step (stepped : link.step event = some next) : next.Account start := by
  cases event with
  | setValue clock value => exact account.setValue stepped
  | checkSendCommand clocks => exact account.checkSendCommand stepped
  | sendBatch cq msgs =>
    rcases Option.ite_none_left_eq_some.mp stepped with ⟨different, ⟨⟩⟩
    apply account.setQueue (distinctIds_sendBatch cq msgs account.distinct)
    rw [serialqueueSendBatch_pendingQueues]
    split
    · rfl
    · exact upcomingIn_appendTo_other _ _ different
  | buildAndSendCommand =>
    rcases Option.map_eq_some_iff.mp stepped with ⟨⟨queue, block⟩, built, rfl⟩
    rcases Option.map_eq_some_iff.mp built with ⟨⟨filled, payload⟩, loop, ⟨⟩⟩
    rcases upcomingIn_fillBlock account.distinct loop with ⟨distinct, same⟩
    exact account.setQueue distinct (same _)
  | handleMessage msg =>
    cases stepped
    have same := handleMessage_pendingQueues link.queue msg
    apply account.setQueue
    · rw [same]
      exact account.distinct
    · rw [same]
  | retransmitEvent =>
    cases stepped
    exact account.setQueue account.distinct rfl

end Account

/-! ## When the clocks fit -/

theorem sentClock_eq_iff (clock : UInt64) : sentClock clock = clock ↔ clock < 0x100000000 := by
  have sent : (sentClock clock).toNat = clock.toNat % 2 ^ 32 := by
    rw [sentClock, UInt32.toNat_toUInt64, UInt64.toNat_toUInt32]
  have limit : (0x100000000 : UInt64).toNat = 2 ^ 32 := rfl
  rw [← UInt64.toNat_inj, sent, UInt64.lt_iff_toNat_lt, limit]
  omega

/-- A clock that does not wrap around is not lowered by the limit on the queueing time. -/
theorem le_limitMinClock {qm : QueueMessage} (below : qm.minClock < 0x100000000) :
    qm.minClock ≤ (limitMinClock qm).minClock := by
  rw [limitMinClock]
  split
  next far =>
    have limit : (0x100000000 : UInt64).toNat = 2 ^ 32 := rfl
    have window : (0x80000000 : UInt64).toNat = 2 ^ 31 := rfl
    have lower := far.1
    rw [UInt64.lt_iff_toNat_lt, limit] at below
    rw [UInt64.lt_iff_toNat_lt, UInt64.toNat_add, window] at lower
    have atMost : (0x80000000 : UInt64) ≤ qm.reqClock := by
      rw [UInt64.le_iff_toNat_le, window]
      omega
    rw [UInt64.le_iff_toNat_le, UInt64.toNat_sub_of_le _ _ atMost, window]
    omega
  · exact UInt64.le_refl _

/-- All clocks that a pin has sent fit into 32 bits. -/
def Fits (start : UInt64) (clocks : List UInt64) : Prop :=
  clocks = [] ∨ ∀ clock ∈ start :: clocks, clock < 0x100000000

theorem fits_iff (start : UInt64) (clocks : List UInt64) :
    ((start :: clocks).zip clocks).map (Prod.map sentClock sentClock) =
      (start :: clocks).zip clocks ↔ Fits start clocks := by
  have pairwise (pairs : List (UInt64 × UInt64)) :
      pairs.map (Prod.map sentClock sentClock) = pairs ↔
        ∀ pair ∈ pairs, pair.1 < 0x100000000 ∧ pair.2 < 0x100000000 := by
    nth_rewrite 2 [← map_id pairs]
    rw [map_inj_left]
    apply forall₂_congr
    intro pair _
    rw [← sentClock_eq_iff, ← sentClock_eq_iff, id_eq, Prod.map_apply', Prod.mk.injEq]
  rw [pairwise]
  constructor
  · intro small
    cases clocks with
    | nil => exact .inl rfl
    | cons first clocks =>
      right
      intro clock member
      rcases mem_cons.mp member with rfl | later
      · exact (small (clock, first) (by simp)).1
      have seconds : ((start :: first :: clocks).zip (first :: clocks)).map Prod.snd =
          first :: clocks := map_snd_zip (by simp)
      rw [← seconds] at later
      rcases mem_map.mp later with ⟨pair, isPair, rfl⟩
      exact (small pair isPair).2
  · rintro (rfl | small) pair member
    · rw [zip_nil_right] at member
      cases member
    · have both := of_mem_zip member
      exact ⟨small _ both.1, small _ (mem_cons_of_mem _ both.2)⟩

theorem Account.released_at {link : PinLink} {start : UInt64} (account : link.Account start)
    (sent : link.requests.map (fun qm => (qm.minClock, qm.reqClock)) =
      (start :: link.clocks).zip link.clocks) {index : ℕ}
    (at_index : link.released[index]? = some entry) :
    ∃ qm, limitMinClock qm = entry.1 ∧ (start :: link.clocks)[index]? = some qm.minClock ∧
      link.clocks[index]? = some qm.reqClock := by
  have limited : (link.requests.map limitMinClock)[index]? = some entry.1 := by
    rw [account.messages, getElem?_append_left, getElem?_map, at_index]
    · rfl
    · rw [length_map]
      exact (List.getElem?_eq_some_iff.mp at_index).1
  rw [getElem?_map, Option.map_eq_some_iff] at limited
  rcases limited with ⟨qm, isRequest, same⟩
  have pair : ((start :: link.clocks).zip link.clocks)[index]? =
      some (qm.minClock, qm.reqClock) := by
    rw [← sent, getElem?_map, isRequest]
    rfl
  exact ⟨qm, same, getElem?_zip_eq_some.mp pair⟩

theorem Account.heldBack {link : PinLink} {start : UInt64} (account : link.Account start)
    (increasing : link.clocks.Pairwise (· < ·)) (fits : Fits start link.clocks) :
    link.HeldBack start := by
  have sent := account.requests.trans ((fits_iff start link.clocks).mpr fits)
  have previous : ∀ (index : ℕ) (entry : QueueMessage × UInt64),
      link.released[index]? = some entry →
        ∃ clock, (start :: link.clocks)[index]? = some clock ∧ clock ≤ entry.2 := by
    intro index entry at_index
    rcases account.released_at sent at_index with ⟨qm, same, isMin, isReq⟩
    refine ⟨qm.minClock, isMin, ?_⟩
    have below : qm.minClock < 0x100000000 := by
      rcases fits with empty | small
      · rw [empty] at isReq
        cases isReq
      · exact small _ (mem_of_getElem? isMin)
    have reached := account.reached entry (mem_of_getElem? at_index)
    rw [← same] at reached
    exact UInt64.le_trans (le_limitMinClock below) reached
  refine ⟨sent, ?_, ?_⟩
  · intro index entry at_index clock isClock
    rcases previous index entry at_index with ⟨other, isOther, reached⟩
    rw [isClock] at isOther
    cases isOther
    exact reached
  intro index entry at_index clock member
  rcases previous index entry at_index with ⟨last, isLast, reached⟩
  refine UInt64.le_trans ?_ reached
  cases index with
  | zero => cases member
  | succ index =>
    rw [getElem?_cons_succ, List.getElem?_eq_some_iff] at isLast
    rcases isLast with ⟨inside, rfl⟩
    rcases mem_take_iff_getElem.mp member with ⟨position, isBefore, rfl⟩
    rcases Nat.lt_or_ge position index with before | same
    · exact UInt64.le_of_lt (pairwise_iff_getElem.mp increasing _ _ _ _ before)
    · have atLast : position = index := by omega
      subst atLast
      exact UInt64.le_refl _

end PinLink

/-- Updates with increasing clocks are held back until the one before them is due if and only if
all their clocks fit into 32 bits. -/
theorem updates_held_back_iff (out : PinOutput) (receiveWindow : Int)
    {events : List PinLinkEvent} {final : PinLink}
    (ran : runEvents PinLink.step (.initial out receiveWindow) events = some final)
    (increasing : final.clocks.Pairwise (· < ·)) :
    final.HeldBack out.lastClock ↔
      final.clocks = [] ∨ ∀ clock ∈ out.lastClock :: final.clocks, clock < 0x100000000 := by
  have account : final.Account out.lastClock :=
    runEvents_invariant (fun _ _ _ account stepped => account.step stepped)
      (PinLink.Account.initial out receiveWindow) ran
  constructor
  · intro heldBack
    apply (PinLink.fits_iff out.lastClock final.clocks).mp
    rw [← account.requests]
    exact heldBack.requests
  · exact account.heldBack increasing

def fanPin : PinOutput where
  kind := .digital
  oid := 3
  invert := false
  lastClock := 0
  setCmd := ⟨fun _ => [7], fun _ => cons_ne_nil _ _, 1⟩

def twoUpdates (first second ackClock : UInt64) : List PinLinkEvent :=
  [.setValue first 1, .setValue second 0, .checkSendCommand ⟨ackClock, 0, true, 0⟩]

/-- The second update waits for the first one. -/
theorem updates_held_back_below_limit :
    ∃ final, runEvents PinLink.step (.initial fanPin 192) (twoUpdates 1000 2000 900) = some final ∧
      final.clocks = [1000, 2000] ∧ final.released.length = 1 ∧ final.HeldBack 0 := by
  refine exists_of_ran rfl fun ran => ⟨rfl, rfl, ?_⟩
  refine (updates_held_back_iff fanPin 192 ran (by decide)).mpr (.inr ?_)
  change ∀ clock ∈ ([0, 1000, 2000] : List UInt64), clock < 0x100000000
  simp

/-- Beyond 32 bits the second update is released while the first one is still to come. -/
theorem updates_not_held_back :
    ∃ final, runEvents PinLink.step (.initial fanPin 192)
        (twoUpdates 0x100000064 0x1000000c8 0x100000000) = some final ∧
      final.clocks.Pairwise (· < ·) ∧
      final.requests.map (fun qm => (qm.minClock, qm.reqClock)) = [(0, 100), (100, 200)] ∧
      final.released.map Prod.snd = [0x100000000, 0x100000000] ∧ ¬final.HeldBack 0 := by
  refine ⟨_, rfl, by decide, rfl, rfl, ?_⟩
  intro heldBack
  have early := heldBack.previous 1 _ rfl 0x100000064 rfl
  exact absurd early (by decide)

end CentauriCarbon.Outputs
