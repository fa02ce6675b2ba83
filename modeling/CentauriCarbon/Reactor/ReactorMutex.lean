import Mathlib.Data.List.Basic

/-! # The mutex of the reactor

A greenlet that finds the mutex locked waits in a queue. Who unlocks it hands it to the front of
the queue: the mutex stays locked, and the front takes it when it runs again.
-/

namespace CentauriCarbon.Reactor

structure ReactorMutex (Greenlet : Type) where
  isLocked : Bool
  nextPending : Bool
  queue : List Greenlet
  /-- The greenlet whose `lock` has returned and that has not called `unlock`; the source does
  not keep it. -/
  owner : Option Greenlet
  locked_of_owner : owner ≠ none → isLocked = true
  locked_of_queue : queue ≠ [] → isLocked = true
  nextPending_spec : nextPending = true → owner = none ∧ queue ≠ []

namespace ReactorMutex

variable {Greenlet : Type}

def new : ReactorMutex Greenlet where
  isLocked := false
  nextPending := false
  queue := []
  owner := none
  locked_of_owner := by simp
  locked_of_queue := by simp
  nextPending_spec := by simp

variable (mutex : ReactorMutex Greenlet)

def test : Bool := mutex.isLocked

theorem owner_of_unlocked (free : mutex.isLocked = false) : mutex.owner = none := by
  by_contra owned
  rw [mutex.locked_of_owner owned] at free
  cases free

theorem queue_of_unlocked (free : mutex.isLocked = false) : mutex.queue = [] := by
  by_contra waiting
  rw [mutex.locked_of_queue waiting] at free
  cases free

theorem nextPending_of_queue (empty : mutex.queue = []) : mutex.nextPending = false := by
  rw [← Bool.not_eq_true]
  exact fun pending => (mutex.nextPending_spec pending).2 empty

/-- `lock`, up to its return or its first `pause`; the flag says that it has returned. -/
def lock (greenlet : Greenlet) : ReactorMutex Greenlet × Bool :=
  if free : mutex.isLocked = false then
    ({ mutex with
        isLocked := true
        owner := some greenlet
        locked_of_owner := fun _ => rfl
        locked_of_queue := fun _ => rfl
        nextPending_spec := by
          rw [mutex.nextPending_of_queue (mutex.queue_of_unlocked free)]
          simp }, true)
  else
    ({ mutex with
        queue := mutex.queue ++ [greenlet]
        locked_of_queue := fun _ => by simpa using free
        nextPending_spec := fun pending => ⟨(mutex.nextPending_spec pending).1, by simp⟩ }, false)

def unlock : ReactorMutex Greenlet :=
  if empty : mutex.queue = [] then
    { mutex with
      isLocked := false
      owner := none
      locked_of_owner := by simp
      locked_of_queue := fun waiting => absurd empty waiting
      nextPending_spec := by
        rw [mutex.nextPending_of_queue empty]
        simp }
  else
    { mutex with
      nextPending := true
      owner := none
      locked_of_owner := by simp
      nextPending_spec := fun _ => ⟨rfl, empty⟩ }

variable (greenlet : Greenlet)

@[simp] theorem lock_isLocked : (mutex.lock greenlet).1.isLocked := by
  rw [lock]
  split
  · rfl
  next locked => simpa using locked

@[simp] theorem lock_nextPending : (mutex.lock greenlet).1.nextPending = mutex.nextPending := by
  rw [lock]
  split <;> rfl

theorem lock_queue : (mutex.lock greenlet).1.queue =
    if mutex.isLocked then mutex.queue ++ [greenlet] else mutex.queue := by
  rw [lock]
  split <;> simp_all

theorem lock_owner : (mutex.lock greenlet).1.owner =
    if mutex.isLocked then mutex.owner else some greenlet := by
  rw [lock]
  split <;> simp_all

theorem lock_returned : (mutex.lock greenlet).2 = !mutex.isLocked := by
  rw [lock]
  split <;> simp_all

@[simp] theorem unlock_isLocked :
    mutex.unlock.isLocked = (!mutex.queue.isEmpty && mutex.isLocked) := by
  rw [unlock]
  split <;> simp_all

@[simp] theorem unlock_nextPending :
    mutex.unlock.nextPending = (!mutex.queue.isEmpty || mutex.nextPending) := by
  rw [unlock]
  split <;> simp_all

@[simp] theorem unlock_queue : mutex.unlock.queue = mutex.queue := by
  rw [unlock]
  split <;> rfl

/-- Whoever locks the mutex becomes its owner if it has none, or waits. -/
theorem lock_cases : ((mutex.lock greenlet).2 ∧ mutex.owner = none ∧
        (mutex.lock greenlet).1.owner = some greenlet) ∨
      ((mutex.lock greenlet).2 = false ∧ (mutex.lock greenlet).1.owner = mutex.owner) := by
  rw [lock]
  split
  next free => exact .inl ⟨rfl, mutex.owner_of_unlocked free, rfl⟩
  · exact .inr ⟨rfl, rfl⟩

@[simp] theorem unlock_owner : mutex.unlock.owner = none := by
  rw [unlock]
  split <;> rfl

variable [DecidableEq Greenlet]

/-- A round of the loop in `lock` when the greenlet runs again; the flag says that `lock`
has returned. -/
def resume (mutex : ReactorMutex Greenlet) (greenlet : Greenlet) : ReactorMutex Greenlet × Bool :=
  if next : mutex.nextPending = true ∧ mutex.queue.head? = some greenlet then
    ({ mutex with
        nextPending := false
        queue := mutex.queue.tail
        owner := some greenlet
        locked_of_owner := fun _ => mutex.locked_of_queue (mutex.nextPending_spec next.1).2
        locked_of_queue := fun _ => mutex.locked_of_queue (mutex.nextPending_spec next.1).2
        nextPending_spec := by simp }, true)
  else (mutex, false)

theorem resume_of_next {mutex : ReactorMutex Greenlet} {greenlet : Greenlet}
    (next : mutex.nextPending ∧ mutex.queue.head? = some greenlet) :
    (mutex.resume greenlet).1.isLocked = mutex.isLocked ∧
      (mutex.resume greenlet).1.nextPending = false ∧
      (mutex.resume greenlet).1.queue = mutex.queue.tail ∧
      (mutex.resume greenlet).1.owner = some greenlet ∧ (mutex.resume greenlet).2 := by
  rw [resume, dif_pos next]
  exact ⟨rfl, rfl, rfl, rfl, rfl⟩

theorem resume_cases : ((mutex.resume greenlet).2 ∧ mutex.owner = none ∧
        (mutex.resume greenlet).1.owner = some greenlet) ∨
      ((mutex.resume greenlet).2 = false ∧ (mutex.resume greenlet).1.owner = mutex.owner) := by
  rw [resume]
  split
  next next => exact .inl ⟨rfl, (mutex.nextPending_spec next.1).1, rfl⟩
  · exact .inr ⟨rfl, rfl⟩

end ReactorMutex

end CentauriCarbon.Reactor
