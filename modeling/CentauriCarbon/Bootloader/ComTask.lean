import CentauriCarbon.Bootloader.ComParser
import CentauriCarbon.Bootloader.RingBuffer

/-! # The receiving task

Bytes come in through a ring buffer. The task that parses them runs only if it was woken, and takes
up to 128 bytes at a time as long as there are enough for a package.
-/

namespace CentauriCarbon.Bootloader

open ComParser RingBuffer

structure Com (Device : Type) where
  rb : RingBuffer
  parser : ComParser
  wake : Bool
  device : Device

namespace Com

variable {Device : Type} (handle : ComHandle Device)

def bootloaderCommitData (com : Com Device) (buf : List UInt8) : Com Device :=
  let rb := (com.rb.ringbufferPut buf (UInt32.ofNat buf.length)).2
  { com with rb, wake := rb.used ≥ comMinPackageSize ∨ com.parser.sta ≠ .a5 ∨ com.wake }

def comParseBufSize : UInt32 := 128

def parseLoop : Nat → Com Device → Com Device
  | 0, com => com
  | rounds + 1, com =>
    let taken := com.rb.ringbufferGet comParseBufSize
    let parsed := parse handle (2 * taken.1.length + 1) com.parser com.device taken.1
    let next := { com with rb := taken.2, parser := parsed.1, device := parsed.2 }
    if taken.2.used ≥ comMinPackageSize then parseLoop rounds next else next

def bootloaderComHandlerTask (com : Com Device) : Com Device :=
  if com.wake then parseLoop handle (com.rb.used + 1) { com with wake := false } else com

def leftover (used : Nat) : Nat :=
  if used > 128 ∧ used % 128 < comMinPackageSize then used % 128 else 0

theorem leftover_le (used : Nat) : leftover used ≤ used := by
  unfold leftover
  split
  · exact Nat.mod_le _ _
  · exact Nat.zero_le _

variable {used : Nat}

theorem leftover_step (more : comMinPackageSize ≤ used - 128) :
    leftover (used - 128) = leftover used := by
  unfold comMinPackageSize at more
  unfold leftover comMinPackageSize
  split_ifs <;> omega

theorem leftover_last (few : used - 128 < comMinPackageSize) : leftover used = used - 128 := by
  unfold comMinPackageSize at few
  unfold leftover comMinPackageSize
  split_ifs <;> omega

/-- The loop parses the bytes in the ring buffer up to those that it leaves. -/
theorem parseLoop_spec (consistent : com.parser.Consistent) (enough : com.rb.used < rounds) :
    let kept := com.rb.used - leftover com.rb.used
    let state := feed handle (com.parser, com.device) (com.rb.contents.take kept)
    (parseLoop handle rounds com).rb.contents = com.rb.contents.drop kept ∧
      (parseLoop handle rounds com).parser = state.1 ∧
      (parseLoop handle rounds com).device = state.2 ∧
      (parseLoop handle rounds com).wake = com.wake := by
  induction rounds generalizing com with
  | zero => omega
  | succ rounds induction =>
    have size : comParseBufSize.toNat = 128 := rfl
    have isFeed : parse handle (2 * (com.rb.ringbufferGet comParseBufSize).1.length + 1)
        com.parser com.device (com.rb.ringbufferGet comParseBufSize).1 =
        feed handle (com.parser, com.device) (com.rb.contents.take 128) := by
      rw [parse_eq_feed handle consistent (by split <;> omega), ringbufferGet_fst, size]
    have usedAfter := com.rb.used_ringbufferGet comParseBufSize
    have contentsAfter := com.rb.contents_ringbufferGet comParseBufSize
    rw [size] at usedAfter contentsAfter
    rw [parseLoop]
    dsimp only
    rw [isFeed, usedAfter]
    split
    next more =>
      let after : Com Device := { com with
        rb := (com.rb.ringbufferGet comParseBufSize).2
        parser := (feed handle (com.parser, com.device) (com.rb.contents.take 128)).1
        device := (feed handle (com.parser, com.device) (com.rb.contents.take 128)).2 }
      have follows : after.parser.Consistent := consistent_feed handle consistent
      have fewer : after.rb.used < rounds := by
        change (com.rb.ringbufferGet comParseBufSize).2.used < rounds
        unfold comMinPackageSize at more
        omega
      have next := induction follows fewer
      rw [usedAfter, contentsAfter, leftover_step more] at next
      have parts : com.rb.used - leftover com.rb.used =
          128 + (com.rb.used - 128 - leftover com.rb.used) := by
        have small := leftover_le (com.rb.used - 128)
        rw [leftover_step more] at small
        unfold comMinPackageSize at more
        omega
      rw [parts, List.take_add, feed_append, ← List.drop_drop]
      exact next
    next few =>
      have kept : com.rb.used - leftover com.rb.used = min 128 com.rb.contents.length := by
        rw [leftover_last (by omega), length_contents]
        omega
      rw [kept, ← List.take_eq_take_min, ← List.drop_eq_drop_min]
      exact ⟨contentsAfter, rfl, rfl, rfl⟩

theorem bootloaderComHandlerTask_spec (consistent : com.parser.Consistent) (woken : com.wake) :
    let kept := com.rb.used - leftover com.rb.used
    let state := feed handle (com.parser, com.device) (com.rb.contents.take kept)
    let next := bootloaderComHandlerTask handle com
    next.rb.contents = com.rb.contents.drop kept ∧ next.parser = state.1 ∧
      next.device = state.2 := by
  rw [bootloaderComHandlerTask, if_pos woken]
  let idle : Com Device := { com with wake := false }
  have follows : idle.parser.Consistent := consistent
  have enough : idle.rb.used < com.rb.used + 1 := Nat.lt_succ_self _
  rcases parseLoop_spec handle follows enough with ⟨contents, parser, device, -⟩
  exact ⟨contents, parser, device⟩

end Com

end CentauriCarbon.Bootloader
