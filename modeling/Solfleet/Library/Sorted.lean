import Mathlib.Data.Finset.Basic
import Mathlib.Data.Multiset.Basic
import Mathlib.Data.List.Sort
import Mathlib.Order.Defs.LinearOrder

/-! # Sorted enumerations of finite sets

`Finset.sort` does not evaluate in the kernel, so the enumeration is the
insertion sort of any listing of the set; the result does not depend on it.
-/

section

variable {α : Type} [LinearOrder α]

/-- The elements of a set in increasing order. -/
def sorted (s : Finset α) : List α :=
  Quot.liftOn s.1 (fun l => l.insertionSort (· ≤ ·)) fun l m (h : l.Perm m) => by
    have hperm : (l.insertionSort (· ≤ ·)).Perm (m.insertionSort (· ≤ ·)) :=
      (List.perm_insertionSort (· ≤ ·) l).trans
        (h.trans (List.perm_insertionSort (· ≤ ·) m).symm)
    exact hperm.eq_of_pairwise (fun _ _ _ _ => le_antisymm)
      (List.pairwise_insertionSort (· ≤ ·) l) (List.pairwise_insertionSort (· ≤ ·) m)

theorem sorted_perm (s : Finset α) : (sorted s : Multiset α) = s.1 := by
  rcases s with ⟨⟨l⟩, hn⟩
  exact Quot.sound (List.perm_insertionSort (· ≤ ·) l)

@[simp] theorem mem_sorted {s : Finset α} {a : α} : a ∈ sorted s ↔ a ∈ s := by
  rw [← Multiset.mem_coe, sorted_perm]
  rfl

theorem sorted_nodup (s : Finset α) : (sorted s).Nodup := by
  rw [← Multiset.coe_nodup, sorted_perm]
  exact s.2

theorem pairwise_sorted (s : Finset α) : (sorted s).Pairwise (· ≤ ·) := by
  rcases s with ⟨⟨l⟩, hn⟩
  exact List.pairwise_insertionSort (· ≤ ·) l

@[simp] theorem toFinset_sorted (s : Finset α) : (sorted s).toFinset = s := by
  ext a
  simp

@[simp] theorem sorted_eq_nil_iff {s : Finset α} : sorted s = [] ↔ s = ∅ := by
  rw [List.eq_nil_iff_forall_not_mem, Finset.eq_empty_iff_forall_notMem]
  simp

@[simp] theorem sorted_empty : sorted (∅ : Finset α) = [] := sorted_eq_nil_iff.mpr rfl

theorem insertionSort_sorted (s : Finset α) : (sorted s).insertionSort (· ≤ ·) = sorted s :=
  (pairwise_sorted s).insertionSort_eq

end
