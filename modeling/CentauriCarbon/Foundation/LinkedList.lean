import Mathlib.Data.List.Chain

/-! # Linked lists in a heap of nodes

Nodes point to their followers. A list of nodes describes the part of the heap that hangs
together; insertion and removal change one or two pointers.
-/

namespace CentauriCarbon

open Function List

variable {Node : Type}

def Linked (next : Node → Option Node) (nodes : List Node) : Prop :=
  nodes.IsChain fun node follower => next node = some follower

inductive Walk (Node : Type) where
  | found (prev pos : Node)
  | ended
  | unfinished

/-- Follows the pointers until `stop` holds for a node after the first one. -/
def walk (next : Node → Option Node) (stop : Node → Bool) : ℕ → Node → Walk Node
  | 0, _ => .unfinished
  | fuel + 1, prev =>
    match next prev with
    | none => .ended
    | some pos => if stop pos then .found prev pos else walk next stop fuel pos

def follow (next : Node → Option Node) : ℕ → Node → List Node
  | 0, _ => []
  | fuel + 1, node =>
    match next node with
    | none => []
    | some pos => pos :: follow next fuel pos

namespace Linked

variable {next : Node → Option Node} {node : Node} {nodes : List Node}

variable {follower last prev : Node} {before after : List Node} {stop : Node → Bool}

theorem next_eq (linked : Linked next (node :: follower :: nodes)) : next node = some follower :=
  (isChain_cons_cons.mp linked).1

theorem tail (linked : Linked next (node :: nodes)) : Linked next nodes := IsChain.tail linked

theorem cons (points : next node = some follower) (linked : Linked next (follower :: nodes)) :
    Linked next (node :: follower :: nodes) :=
  isChain_cons_cons.mpr ⟨points, linked⟩

theorem congr (linked : Linked next nodes) (same : ∀ node ∈ nodes, other node = next node) :
    Linked other nodes := by
  induction nodes with
  | nil => exact isChain_nil
  | cons node nodes induction =>
    cases nodes with
    | nil => exact isChain_singleton _
    | cons follower nodes =>
      apply cons
      · rw [same node mem_cons_self]
        exact linked.next_eq
      · exact induction linked.tail fun other member =>
          same other (mem_cons_of_mem _ member)

/-! ## Walks -/

variable {fuel : ℕ}

section

variable (linked : Linked next (node :: (nodes ++ [last])))
include linked

theorem follow_eq (isLast : next last = none) (enough : nodes.length < fuel) :
    follow next fuel node = nodes ++ [last] := by
  induction nodes generalizing node fuel with
  | nil =>
    have points : next node = some last := linked.next_eq
    rcases fuel with _ | _ | fuel
    · simp at enough
    · simp [follow, points]
    · simp [follow, points, isLast]
  | cons follower nodes induction =>
    have points : next node = some follower := linked.next_eq
    cases fuel with
    | zero => simp at enough
    | succ fuel =>
      rw [follow, points]
      change follower :: follow next fuel follower = _
      rw [induction linked.tail (Nat.lt_of_succ_lt_succ enough), cons_append]

theorem walk_found (stops : ∃ pos ∈ nodes ++ [last], stop pos)
    (enough : nodes.length < fuel) :
    ∃ before prev skipped rest pos, before ++ [prev] = node :: skipped ∧
      nodes = skipped ++ rest ∧ (rest ++ [last]).head? = some pos ∧
      (∀ other ∈ skipped, stop other = false) ∧ stop pos ∧
      walk next stop fuel node = .found prev pos := by
  induction nodes generalizing node fuel with
  | nil =>
    have atLast : stop last := by simpa using stops
    have points : next node = some last := linked.next_eq
    cases fuel with
    | zero => simp at enough
    | succ fuel =>
      refine ⟨[], node, [], [], last, rfl, rfl, rfl, by simp, atLast, ?_⟩
      simp only [walk, points, atLast, if_true]
  | cons follower nodes induction =>
    have points : next node = some follower := linked.next_eq
    cases fuel with
    | zero => simp at enough
    | succ fuel =>
      rw [walk, points]
      by_cases atFollower : stop follower
      · refine ⟨[], node, [], follower :: nodes, follower, rfl, rfl, rfl, by simp, atFollower, ?_⟩
        simp only [atFollower, if_true]
      have later : ∃ pos ∈ nodes ++ [last], stop pos := by
        simpa [atFollower] using stops
      rcases induction linked.tail later (Nat.lt_of_succ_lt_succ enough) with
        ⟨before, prev, skipped, rest, pos, ends, split, first, passes, atPos, found⟩
      refine ⟨node :: before, prev, follower :: skipped, rest, pos, ?_, ?_, first, ?_, atPos, ?_⟩
      · rw [cons_append, ends]
      · rw [split, cons_append]
      · exact forall_mem_cons.mpr ⟨by simpa using atFollower, passes⟩
      · simp only [atFollower, Bool.false_eq_true, if_false]
        exact found

theorem walk_ended (isLast : next last = none)
    (passes : ∀ other ∈ nodes ++ [last], stop other = false) (enough : nodes.length + 1 < fuel) :
    walk next stop fuel node = .ended := by
  induction nodes generalizing node fuel with
  | nil =>
    rcases fuel with _ | _ | fuel
    · simp at enough
    · simp at enough
    · have atLast : stop last = false := passes last (by simp)
      have points : next node = some last := linked.next_eq
      simp [walk, points, atLast, isLast]
  | cons follower nodes induction =>
    cases fuel with
    | zero => simp at enough
    | succ fuel =>
      have points : next node = some follower := linked.next_eq
      have atFollower : stop follower = false := passes follower (by simp)
      rw [walk, points]
      simp only [atFollower, Bool.false_eq_true, if_false]
      apply induction linked.tail
      · intro other member
        exact passes other (mem_cons_of_mem _ member)
      · exact Nat.lt_of_succ_lt_succ enough

end

/-! ## Changing pointers -/

variable [DecidableEq Node]

theorem update_of_notMem (linked : Linked next nodes) (notMem : node ∉ nodes)
    (value : Option Node) : Linked (update next node value) nodes := by
  apply linked.congr
  intro other member
  exact update_of_ne (ne_of_mem_of_not_mem member notMem) value next

theorem relink (linked : Linked next (follower :: nodes)) (notMem : node ∉ follower :: nodes) :
    Linked (update next node (some follower)) (node :: follower :: nodes) := by
  apply cons
  · exact update_self node _ next
  · exact linked.update_of_notMem notMem _

theorem splice {before after tail : List Node} (linked : Linked next (before ++ prev :: tail))
    (nodup : (before ++ prev :: tail).Nodup)
    (goesOn : Linked (update next prev value) (prev :: after)) :
    Linked (update next prev value) (before ++ prev :: after) := by
  apply isChain_split.mpr
  refine ⟨?_, goesOn⟩
  have front : Linked next (before ++ [prev]) := (isChain_split.mp linked).1
  induction before with
  | nil => exact isChain_singleton _
  | cons first before induction =>
    have notMem : first ∉ before ++ prev :: tail := (nodup_cons.mp nodup).1
    have rest := induction linked.tail (nodup_cons.mp nodup).2 front.tail
    have other : first ≠ prev := by
      intro same
      apply notMem
      simp [same]
    cases before with
    | nil | cons =>
      apply cons _ rest
      rw [update_of_ne other]
      exact front.next_eq

theorem insert (linked : Linked next (before ++ prev :: after))
    (nodup : (before ++ prev :: after).Nodup) (notMem : node ∉ before ++ prev :: after)
    (first : after.head? = some pos) :
    Linked (update (update next node (some pos)) prev (some node))
      (before ++ prev :: node :: after) := by
  have behind : Linked next after := ((isChain_split.mp linked).2).tail
  have updated := linked.update_of_notMem notMem (some pos)
  rw [mem_append, mem_cons, not_or, not_or] at notMem
  have prevNotMem : prev ∉ node :: after := by
    rw [mem_cons, not_or]
    exact ⟨Ne.symm notMem.2.1, (nodup_cons.mp (nodup_append.mp nodup).2.1).1⟩
  rcases head?_eq_some_iff.mp first with ⟨rest, rfl⟩
  exact updated.splice nodup ((behind.relink notMem.2.2).relink prevNotMem)

theorem unlink (linked : Linked next (before ++ prev :: node :: after))
    (nodup : (before ++ prev :: node :: after).Nodup) :
    Linked (update next prev (next node)) (before ++ prev :: after) := by
  have behind : Linked next (node :: after) := ((isChain_split.mp linked).2).tail
  apply linked.splice nodup
  cases after with
  | nil => exact isChain_singleton _
  | cons pos after =>
    have prevNotMem : prev ∉ pos :: after := by
      intro member
      exact (nodup_cons.mp (nodup_append.mp nodup).2.1).1 (mem_cons_of_mem _ member)
    rw [behind.next_eq]
    exact behind.tail.relink prevNotMem

end Linked

/-- The nodes that are reached from a pointer, up to the null pointer. -/
def Hangs (next : Node → Option Node) : Option Node → List Node → Prop
  | pointer, [] => pointer = none
  | pointer, node :: nodes => pointer = some node ∧ Hangs next (next node) nodes

theorem Hangs.update_of_notMem {next : Node → Option Node} [DecidableEq Node]
    (hangs : Hangs next pointer nodes) (notMem : node ∉ nodes) (value : Option Node) :
    Hangs (update next node value) pointer nodes := by
  induction nodes generalizing pointer with
  | nil => exact hangs
  | cons first nodes induction =>
    rw [mem_cons, not_or] at notMem
    refine ⟨hangs.1, ?_⟩
    rw [update_of_ne (Ne.symm notMem.1)]
    exact induction hangs.2 notMem.2

namespace Hangs

variable {next : Node → Option Node} {pointer : Option Node} {nodes : List Node} {node : Node}

theorem eq_none_iff (hangs : Hangs next pointer nodes) : pointer = none ↔ nodes = [] := by
  cases nodes with
  | nil => exact iff_of_true hangs rfl
  | cons first nodes =>
    rw [hangs.1]
    exact iff_of_false (Option.some_ne_none first) (cons_ne_nil first nodes)

theorem exists_cons (hangs : Hangs next (some node) nodes) :
    ∃ rest, nodes = node :: rest ∧ Hangs next (next node) rest := by
  cases nodes with
  | nil => cases hangs
  | cons first nodes =>
    rcases hangs with ⟨same, rest⟩
    cases same
    exact ⟨nodes, rfl, rest⟩

variable [DecidableEq Node]

theorem cons (hangs : Hangs next pointer nodes) (notMem : node ∉ nodes) :
    Hangs (update next node pointer) (some node) (node :: nodes) := by
  refine ⟨rfl, ?_⟩
  rw [update_self]
  exact hangs.update_of_notMem notMem pointer

theorem concat (hangs : Hangs next pointer nodes) (nodup : nodes.Nodup) (notMem : node ∉ nodes)
    (isLast : nodes.getLast? = some last) :
    Hangs (update (update next node none) last (some node)) pointer (nodes ++ [node]) := by
  induction nodes generalizing pointer with
  | nil => cases isLast
  | cons first nodes induction =>
    rw [nodup_cons] at nodup
    rw [mem_cons, not_or] at notMem
    refine ⟨hangs.1, ?_⟩
    cases nodes with
    | nil =>
      have same : first = last := Option.some.inj isLast
      subst same
      rw [update_self]
      refine ⟨rfl, ?_⟩
      rw [update_of_ne notMem.1, update_self]
      rfl
    | cons second nodes =>
      have member : last ∈ second :: nodes := mem_of_getLast? isLast
      have notLast : first ≠ last := fun same => nodup.1 (same ▸ member)
      rw [update_of_ne notLast, update_of_ne (Ne.symm notMem.1)]
      exact induction hangs.2 nodup.2 notMem.2 isLast

end Hangs

end CentauriCarbon
