/-!
# Binary Search

Search in a sequence that ascends, by halving the range that is left. The search does not stop at
the first hit: it always narrows the range to one element, so among equal elements it answers the
last one.

## Main statements

* `narrow_lt` — the range is narrowed to one of its own elements;
* `lt_of_binarySearch` and `compareAt_of_binarySearch` — what is found is an element of the
  sequence that compares equal, whether the sequence ascends or not.
-/

namespace DllGraph

/-- Narrow the range of `size` elements from `base` to one element, keeping the half after the
middle element unless that one is greater than what is searched for. -/
def narrow (compareAt : Nat → Ordering) (base size : Nat) : Nat :=
  if size ≤ 1 then base
  else
    let middle := base + size / 2
    narrow compareAt (if compareAt middle = .gt then base else middle) (size - size / 2)
termination_by size
decreasing_by omega

/-- The index of an element that compares equal, in a sequence of `size` elements that ascends.
`compareAt` compares the element at an index with what is searched for. -/
def binarySearch (compareAt : Nat → Ordering) (size : Nat) : Option Nat :=
  if size = 0 then none
  else
    let found := narrow compareAt 0 size
    if compareAt found = .eq then some found else none

/-- The range is narrowed to one of its own elements. -/
theorem narrow_lt {compareAt : Nat → Ordering} {base size : Nat} (h : 0 < size) :
    narrow compareAt base size < base + size := by
  fun_induction narrow compareAt base size with
  | case1 base size hsize => omega
  | case2 base size hsize middle ih =>
    refine Nat.lt_of_lt_of_le (ih (by omega)) ?_
    split <;> omega

/-- What is found is an element of the sequence. -/
theorem lt_of_binarySearch {compareAt : Nat → Ordering} {size i : Nat}
    (h : binarySearch compareAt size = some i) : i < size := by
  simp only [binarySearch] at h
  split at h
  · simp at h
  · next hsize =>
    split at h
    · have hlt : narrow compareAt 0 size < 0 + size := narrow_lt (Nat.pos_of_ne_zero hsize)
      simp only [Option.some.injEq] at h
      omega
    · simp at h

/-- What is found compares equal. -/
theorem compareAt_of_binarySearch {compareAt : Nat → Ordering} {size i : Nat}
    (h : binarySearch compareAt size = some i) : compareAt i = .eq := by
  simp only [binarySearch] at h
  split at h
  · simp at h
  · split at h
    · next heq =>
      simp only [Option.some.injEq] at h
      rw [← h, heq]
    · simp at h

end DllGraph
