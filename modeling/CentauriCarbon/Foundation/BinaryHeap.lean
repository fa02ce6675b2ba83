import Mathlib.Algebra.Order.Ring.Int
import Mathlib.Data.List.GetD
import Mathlib.Order.Nat

/-! # Binary heaps

A minimum heap in a list in level order. Positions behind the end read as the greatest
element, so that a missing child never stops a value from settling above it.
`replaceRoot` drops the root and lets a new value sink from there.
-/

namespace CentauriCarbon.BinaryHeap

variable {Key : Type} [LinearOrder Key] [OrderTop Key]

def parent (index : Nat) : Nat := (index - 1) / 2

def key (heap : List Key) (index : Nat) : Key := heap.getD index ⊤

def Ordered (heap : List Key) : Prop :=
  ∀ index, 0 < index → key heap (parent index) ≤ key heap index

def sink (value : Key) : Nat → List Key → Nat → List Key
  | 0, heap, _ => heap
  | fuel + 1, heap, hole =>
    let left := key heap (2 * hole + 1)
    let right := key heap (2 * hole + 2)
    if value ≤ left ∧ value ≤ right then heap.set hole value
    else if left < right then sink value fuel (heap.set hole left) (2 * hole + 1)
    else sink value fuel (heap.set hole right) (2 * hole + 2)

def replaceRoot (heap : List Key) (value : Key) : List Key := sink value heap.length heap 0

variable {index : Nat}

variable {heap : List Key} {value : Key}

theorem key_set_self (within : index < heap.length) (value : Key) :
    key (heap.set index value) index = value := by
  simp [key, within]

theorem key_set_of_ne (different : other ≠ index) (value : Key) :
    key (heap.set index value) other = key heap other := by
  simp [key, List.getElem?_set_ne different.symm]

theorem key_of_length_le (beyond : heap.length ≤ index) : key heap index = ⊤ :=
  List.getD_eq_default heap ⊤ beyond

theorem key_of_lt (within : index < heap.length) : key heap index = heap[index] :=
  List.getD_eq_getElem heap ⊤ within

theorem Ordered.root_le (ordered : Ordered heap) (index : Nat) : key heap 0 ≤ key heap index := by
  induction index using Nat.strong_induction_on with
  | _ index induction =>
    rcases Nat.eq_zero_or_pos index with rfl | positive
    · exact le_rfl
    have above : parent index < index := by
      unfold parent
      omega
    exact le_trans (induction (parent index) above) (ordered index positive)

theorem Ordered.root_le_of_mem (ordered : Ordered heap) (member : value ∈ heap) :
    key heap 0 ≤ value := by
  rcases List.mem_iff_getElem.mp member with ⟨index, within, rfl⟩
  rw [← key_of_lt within]
  exact ordered.root_le index

structure Sinking (heap : List Key) (hole : Nat) (value : Key) : Prop where
  within : hole < heap.length
  elsewhere : ∀ index, 0 < index → index ≠ hole → parent index ≠ hole →
    key heap (parent index) ≤ key heap index
  above : 0 < hole → key heap (parent hole) ≤ value
  across : 0 < hole → ∀ index, 0 < index → parent index = hole →
    key heap (parent hole) ≤ key heap index

theorem Ordered.sinking (ordered : Ordered heap) (nonempty : 0 < heap.length) (value : Key) :
    Sinking heap 0 value where
  within := nonempty
  elsewhere index positive _ _ := ordered index positive
  above positive := absurd positive (lt_irrefl 0)
  across positive := absurd positive (lt_irrefl 0)

theorem Sinking.settle (sinking : Sinking heap hole value)
    (above : 0 < hole → key heap (parent hole) ≤ settled)
    (below : ∀ index, 0 < index → parent index = hole → settled ≤ key heap index) :
    Ordered (heap.set hole settled) := by
  intro index positive
  have upward : parent index ≠ index := by
    unfold parent
    omega
  by_cases here : index = hole
  · subst here
    rw [key_set_self sinking.within, key_set_of_ne upward]
    exact above positive
  rw [key_set_of_ne here]
  by_cases child : parent index = hole
  · rw [child, key_set_self sinking.within]
    exact below index positive child
  · rw [key_set_of_ne child]
    exact sinking.elsewhere index positive here child

theorem Sinking.descend (sinking : Sinking heap hole value) (within : child < heap.length)
    (positive : 0 < child) (isChild : parent child = hole)
    (least : ∀ index, 0 < index → parent index = hole → key heap child ≤ key heap index)
    (belowValue : key heap child ≤ value) :
    Sinking (heap.set hole (key heap child)) child value := by
  have deeper : hole < child := by
    unfold parent at isChild
    omega
  constructor
  · simpa using within
  · intro index indexPositive _ _
    apply sinking.settle _ least index indexPositive
    intro holePositive
    exact sinking.across holePositive child positive isChild
  · intro _
    rw [isChild, key_set_self sinking.within]
    exact belowValue
  · intro _ index indexPositive grandchild
    have notHole : index ≠ hole := by
      unfold parent at grandchild
      omega
    rw [isChild, key_set_self sinking.within, key_set_of_ne notHole, ← grandchild]
    exact sinking.elsewhere index indexPositive notHole (by omega)

/-- Moving a key from a child to the hole and the value to the child is an exchange. -/
theorem set_set_perm_set (value : Key) (withinHole : hole < heap.length)
    (withinChild : child < heap.length) (different : hole ≠ child) :
    ((heap.set hole (key heap child)).set child value).Perm (heap.set hole value) := by
  have exchange := List.set_set_perm
    (show hole < (heap.set hole value).length by simpa using withinHole)
    (show child < (heap.set hole value).length by simpa using withinChild)
  simpa [key_of_lt withinChild, List.getElem_set_ne different] using exchange

theorem children (positive : 0 < index) (isChild : parent index = hole) :
    index = 2 * hole + 1 ∨ index = 2 * hole + 2 := by
  unfold parent at isChild
  omega

theorem sink_spec (sinking : Sinking heap hole value) (enough : heap.length ≤ hole + fuel) :
    Ordered (sink value fuel heap hole) ∧
      (sink value fuel heap hole).Perm (heap.set hole value) := by
  induction fuel generalizing heap hole with
  | zero => exact absurd sinking.within (Nat.not_lt.mpr enough)
  | succ fuel induction =>
    -- Both descents are the same argument for the lesser of the two children.
    have descends {child : Nat} (positive : 0 < child) (isChild : parent child = hole)
        (least : ∀ index, 0 < index → parent index = hole → key heap child ≤ key heap index)
        (belowValue : key heap child < value) :
        Ordered (sink value fuel (heap.set hole (key heap child)) child) ∧
          (sink value fuel (heap.set hole (key heap child)) child).Perm (heap.set hole value) := by
      have deeper : hole < child := by
        unfold parent at isChild
        omega
      have within : child < heap.length := by
        by_contra beyond
        rw [key_of_length_le (Nat.not_lt.mp beyond)] at belowValue
        exact not_top_lt belowValue
      have next := sinking.descend within positive isChild least (le_of_lt belowValue)
      rcases induction next (by rw [List.length_set]; omega) with ⟨ordered, exchanged⟩
      exact ⟨ordered, exchanged.trans
        (set_set_perm_set value sinking.within within (Nat.ne_of_lt deeper))⟩
    unfold sink
    dsimp only
    split
    · rename_i settled
      refine ⟨sinking.settle sinking.above ?_, List.Perm.refl _⟩
      intro index positive isChild
      rcases children positive isChild with rfl | rfl
      · exact settled.1
      · exact settled.2
    rename_i unsettled
    split
    · rename_i leftLess
      apply descends (by omega) (by unfold parent; omega)
      · intro index positive isChild
        rcases children positive isChild with rfl | rfl
        · exact le_rfl
        · exact le_of_lt leftLess
      · by_contra notBelow
        have settled := not_lt.mp notBelow
        exact unsettled ⟨settled, le_trans settled (le_of_lt leftLess)⟩
    rename_i rightLeast
    apply descends (by omega) (by unfold parent; omega)
    · intro index positive isChild
      rcases children positive isChild with rfl | rfl
      · exact not_lt.mp rightLeast
      · exact le_rfl
    · by_contra notBelow
      have settled := not_lt.mp notBelow
      exact unsettled ⟨le_trans settled (not_lt.mp rightLeast), settled⟩

/-- Replacing the root keeps the order, takes out the least key and adds the value. -/
theorem replaceRoot_spec (ordered : Ordered heap) (nonempty : 0 < heap.length) (value : Key) :
    Ordered (replaceRoot heap value) ∧
      heap.Perm (key heap 0 :: heap.tail) ∧
      (replaceRoot heap value).Perm (value :: heap.tail) := by
  rcases sink_spec (ordered.sinking nonempty value) (Nat.le_add_left heap.length 0) with
    ⟨kept, exchanged⟩
  cases heap with
  | nil => exact absurd nonempty (lt_irrefl 0)
  | cons root rest => exact ⟨kept, List.Perm.refl _, exchanged⟩

end CentauriCarbon.BinaryHeap
