
/-! # Register writes over the UART of a TMC driver

The driver counts the write datagrams that it accepts in `IFCNT`, modulo 256. The host repeats a
write until it reads a counter that has moved on by one.
-/

namespace CentauriCarbon.Drivers

/-- What becomes of the datagrams of one attempt; a counter is read if one of the five requests
of `_do_get_register` is answered. -/
structure Attempt where
  readBefore : Bool
  accepted : Bool
  readAfter : Bool

def Attempt.Reads (attempt : Attempt) : Prop := attempt.readBefore ∧ attempt.readAfter

/-- A call of `set_register`, with all that may happen to it. -/
structure SetRegister where
  reg : UInt8
  val : Int
  attempts : List Attempt

inductive SetResult where
  | returned
  | unableToRead
  | unableToWrite

/-- The driver's counter, the host's copy of it, which is `none` for `INT_NONE`, and the write
datagrams, each with whether it was accepted. -/
structure TmcUart where
  counter : UInt8
  ifcnt : Option UInt8
  writes : List (UInt8 × Int × Bool)

namespace TmcUart

def start (counter : UInt8) : TmcUart := ⟨counter, none, []⟩

variable (uart : TmcUart) (call : SetRegister)

def regWrite (reg : UInt8) (val : Int) (accepted : Bool) : TmcUart :=
  { uart with
    counter := if accepted then uart.counter + 1 else uart.counter
    writes := uart.writes ++ [(reg, val, accepted)] }

def readIfcnt : TmcUart := { uart with ifcnt := some uart.counter }

def setRegisterLoop (reg : UInt8) (val : Int) : List Attempt → TmcUart → TmcUart × SetResult
  | [], uart => (uart, .unableToWrite)
  | attempt :: attempts, uart =>
    if uart.ifcnt.isNone && !attempt.readBefore then (uart, .unableToRead)
    else
      let before := uart.ifcnt.getD uart.counter
      let uart := uart.regWrite reg val attempt.accepted
      if !attempt.readAfter then ({ uart with ifcnt := some before }, .unableToRead)
      -- `==` binds more tightly than `&`, so that the sum is not reduced to eight bits.
      else if uart.counter.toNat = before.toNat + 1 then (uart.readIfcnt, .returned)
      else setRegisterLoop reg val attempts uart.readIfcnt

def setRegister : TmcUart × SetResult := setRegisterLoop call.reg call.val call.attempts uart

/-- Every call of a sequence is good, from the state that the calls before it have left. -/
def Each (good : TmcUart → SetRegister → Prop) : TmcUart → List SetRegister → Prop
  | _, [] => True
  | uart, call :: calls => good uart call ∧ Each good (uart.setRegister call).1 calls

def WritesOnce : Prop :=
  (uart.setRegister call).2 = .returned ∧
    (uart.setRegister call).1.writes = uart.writes ++ [(call.reg, call.val, true)]

def ReturnsAccepted : Prop :=
  (uart.setRegister call).2 = .returned →
    (uart.setRegister call).1.writes.getLast? = some (call.reg, call.val, true)

/-- The host has not read the counter, or knows it. -/
def Known : Prop := uart.ifcnt.getD uart.counter = uart.counter

variable {uart : TmcUart} {attempt : Attempt}

theorem setRegisterLoop_cons (known : uart.Known) (reads : attempt.Reads) :
    setRegisterLoop reg val (attempt :: attempts) uart =
      if (uart.regWrite reg val attempt.accepted).counter.toNat = uart.counter.toNat + 1 then
        ((uart.regWrite reg val attempt.accepted).readIfcnt, .returned)
      else
        setRegisterLoop reg val attempts (uart.regWrite reg val attempt.accepted).readIfcnt := by
  rw [setRegisterLoop, known]
  simp [reads.1, reads.2]

theorem setRegisterLoop_accepted (known : uart.Known)
    (reads : ∀ attempt ∈ attempts, attempt.Reads) :
    (setRegisterLoop reg val attempts uart).1.Known ∧
      ((setRegisterLoop reg val attempts uart).2 = .returned →
        (setRegisterLoop reg val attempts uart).1.writes.getLast? = some (reg, val, true)) := by
  induction attempts generalizing uart with
  | nil => exact ⟨known, nofun⟩
  | cons attempt attempts induction =>
    rw [List.forall_mem_cons] at reads
    rw [setRegisterLoop_cons known reads.1]
    split
    next moved =>
      refine ⟨rfl, fun _ => ?_⟩
      -- A write that is lost leaves the counter where it was.
      cases accepted : attempt.accepted with
      | false => simp [regWrite, accepted] at moved
      | true => simp [regWrite, readIfcnt]
    · exact induction rfl reads.2

theorem each_returnsAccepted (known : uart.Known) (calls : List SetRegister)
    (reads : ∀ call ∈ calls, ∀ attempt ∈ call.attempts, attempt.Reads) :
    Each ReturnsAccepted uart calls := by
  induction calls generalizing uart with
  | nil => trivial
  | cons call calls induction =>
    rw [List.forall_mem_cons] at reads
    rcases setRegisterLoop_accepted known reads.1 with ⟨nextKnown, accepted⟩
    exact ⟨accepted, induction nextKnown reads.2⟩

def lossless (write : UInt8 × Int) : SetRegister :=
  ⟨write.1, write.2, List.replicate 5 ⟨true, true, true⟩⟩

theorem toNat_regWrite : (uart.regWrite reg val true).counter.toNat =
    (uart.counter.toNat + 1) % 256 := UInt8.toNat_add _ _

theorem each_writesOnce_iff (known : uart.Known) (writes : List (UInt8 × Int)) :
    Each WritesOnce uart (writes.map lossless) ↔ uart.counter.toNat + writes.length ≤ 255 := by
  induction writes generalizing uart with
  | nil =>
    have bound := uart.counter.toNat_lt
    simp only [List.map_nil, Each, List.length_nil, true_iff]
    omega
  | cons write writes induction =>
    have bound := uart.counter.toNat_lt
    have reads : Attempt.Reads ⟨true, true, true⟩ := ⟨rfl, rfl⟩
    have nextKnown (uart : TmcUart) : uart.readIfcnt.Known := rfl
    rw [List.map_cons, Each, WritesOnce, setRegister, lossless, List.replicate_succ,
      setRegisterLoop_cons known reads, toNat_regWrite, List.length_cons]
    split
    next moved =>
      rw [induction (nextKnown _), readIfcnt, toNat_regWrite]
      simp only [regWrite, true_and]
      omega
    next wrapped =>
      -- The counter is 0 after the first write, and the call writes again.
      rw [List.replicate_succ, setRegisterLoop_cons (nextKnown _) reads, toNat_regWrite, readIfcnt,
        toNat_regWrite, if_pos (by omega)]
      simp [regWrite, readIfcnt]
      omega

/-- Over a link that loses nothing each call writes once, and over one that loses writes a call
that returns has written, exactly if the counter does not wrap during the calls. -/
theorem register_written_once_iff (counter : UInt8) (writes : List (UInt8 × Int)) :
    Each WritesOnce (start counter) (writes.map lossless) ∧
      (∀ calls : List SetRegister, (∀ call ∈ calls, ∀ attempt ∈ call.attempts, attempt.Reads) →
        Each ReturnsAccepted (start counter) calls) ↔ counter.toNat + writes.length ≤ 255 := by
  have known : (start counter).Known := rfl
  rw [each_writesOnce_iff known, and_iff_left (each_returnsAccepted known), start]

theorem register_written_twice :
    ((start 255).setRegister (lossless (0x10, 5))).1.writes =
        [(0x10, 5, true), (0x10, 5, true)] ∧
      ¬ Each WritesOnce (start 255) [lossless (0x10, 5)] := by
  refine ⟨by decide, ?_⟩
  rintro ⟨⟨-, once⟩, -⟩
  exact absurd once (by decide)

end TmcUart

end CentauriCarbon.Drivers
