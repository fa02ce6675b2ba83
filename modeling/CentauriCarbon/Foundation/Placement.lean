import Mathlib.Data.List.Perm.Basic

/-! # Nodes in places

A fixed stock of nodes is kept in lists, one for each place. Every node is in exactly one list,
once; moving a node from one place to another keeps it so.
-/

namespace CentauriCarbon

open Function List

variable {Node Place : Type} {Owned : Node → Prop}

/-- Every owned node is in exactly one place, and nothing else is in any. -/
structure Placement (Owned : Node → Prop) (nodes : Place → List Node) : Prop where
  nodup : ∀ place, (nodes place).Nodup
  unique : ∀ {place other node}, node ∈ nodes place → node ∈ nodes other → place = other
  owned : ∀ node, Owned node ↔ ∃ place, node ∈ nodes place

namespace Placement

variable {nodes moved : Place → List Node}

theorem move (placement : Placement Owned nodes) (different : source ≠ target)
    (taken : (nodes source).Perm (node :: moved source))
    (given : (moved target).Perm (node :: nodes target))
    (others : ∀ place, place ≠ source → place ≠ target → moved place = nodes place) :
    Placement Owned moved := by
  have atSource : node ∈ nodes source := taken.mem_iff.mpr mem_cons_self
  have notAtTarget : node ∉ nodes target :=
    fun member => different (placement.unique atSource member)
  have restNodup := nodup_cons.mp (taken.nodup_iff.mp (placement.nodup source))
  -- Where a node is after the move it was before, unless it is the one that was moved.
  have before : ∀ {place other}, other ∈ moved place →
      (place = target ∧ other = node) ∨ (other ∈ nodes place ∧ other ≠ node) := by
    intro place other member
    by_cases isTarget : place = target
    · subst isTarget
      rcases mem_cons.mp (given.mem_iff.mp member) with same | old
      · exact .inl ⟨rfl, same⟩
      · exact .inr ⟨old, fun same => notAtTarget (same ▸ old)⟩
    right
    by_cases isSource : place = source
    · subst isSource
      refine ⟨taken.mem_iff.mpr (mem_cons_of_mem _ member), ?_⟩
      rintro rfl
      exact restNodup.1 member
    rw [others place isSource isTarget] at member
    refine ⟨member, ?_⟩
    rintro rfl
    exact isSource (placement.unique member atSource)
  have after : ∀ {place other}, other ∈ nodes place → other ≠ node → other ∈ moved place := by
    intro place other member notMoved
    by_cases isTarget : place = target
    · subst isTarget
      exact given.mem_iff.mpr (mem_cons_of_mem _ member)
    by_cases isSource : place = source
    · subst isSource
      exact (mem_cons.mp (taken.mem_iff.mp member)).resolve_left notMoved
    · rw [others place isSource isTarget]
      exact member
  have atTarget : node ∈ moved target := given.mem_iff.mpr mem_cons_self
  constructor
  · intro place
    by_cases isTarget : place = target
    · subst isTarget
      exact given.nodup_iff.mpr (nodup_cons.mpr ⟨notAtTarget, placement.nodup place⟩)
    by_cases isSource : place = source
    · subst isSource
      exact restNodup.2
    · rw [others place isSource isTarget]
      exact placement.nodup place
  · intro place other moving first second
    rcases before first with ⟨rfl, rfl⟩ | ⟨first, notMoved⟩
    · rcases before second with ⟨rfl, -⟩ | ⟨-, notMoved⟩
      · rfl
      · exact absurd rfl notMoved
    · rcases before second with ⟨-, rfl⟩ | ⟨second, -⟩
      · exact absurd rfl notMoved
      · exact placement.unique first second
  · intro other
    rw [placement.owned]
    constructor
    · rintro ⟨place, member⟩
      by_cases same : other = node
      · exact ⟨target, same ▸ atTarget⟩
      · exact ⟨place, after member same⟩
    rintro ⟨place, member⟩
    rcases before member with ⟨-, rfl⟩ | ⟨old, -⟩
    · exact ⟨source, atSource⟩
    · exact ⟨place, old⟩

theorem of_single [DecidableEq Place] {home : Place} {all : List Node} (nodup : all.Nodup)
    (complete : ∀ node, Owned node ↔ node ∈ all) :
    Placement Owned (update (fun _ => []) home all) := by
  have at_home : ∀ {place node},
      node ∈ update (fun _ => []) home all place → place = home ∧ node ∈ all := by
    intro place node member
    by_cases isHome : place = home
    · subst isHome
      rw [update_self] at member
      exact ⟨rfl, member⟩
    · rw [update_of_ne isHome] at member
      cases member
  constructor
  · intro place
    by_cases isHome : place = home
    · subst isHome
      rw [update_self]
      exact nodup
    · rw [update_of_ne isHome]
      exact nodup_nil
  · intro place other node first second
    rw [(at_home first).1, (at_home second).1]
  intro node
  rw [complete]
  constructor
  · intro member
    refine ⟨home, ?_⟩
    rw [update_self]
    exact member
  · rintro ⟨place, member⟩
    exact (at_home member).2

end Placement

end CentauriCarbon
