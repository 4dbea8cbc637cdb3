/-
# Leftmost matches that do not overlap

A search that goes from left to right and continues behind what it found takes, of the places where a
pattern of fixed length fits, the first, then the first that does not overlap it, and so on.
`Taken` is that choice without the search.  A pattern that never overlaps itself is taken wherever it
fits (`taken_of_apart`).
-/
import Mathlib.Tactic.Common

namespace Supplementary.Greedy

variable {P Q : Nat → Prop} {m i j : Nat}

/-- The search takes the place `i`: the pattern fits there and nothing taken before overlaps it. -/
def Taken (P : Nat → Prop) (m i : Nat) : Prop := P i ∧ ∀ j, (h : j < i) → Taken P m j → j + m ≤ i
termination_by i
decreasing_by exact h

theorem taken_iff : Taken P m i ↔ P i ∧ ∀ j < i, Taken P m j → j + m ≤ i := by
  rw [Taken]

theorem Taken.fits (h : Taken P m i) : P i := (taken_iff.mp h).1

/-- What is taken overlaps nothing that was taken before it. -/
theorem Taken.apart (h : Taken P m i) (hj : Taken P m j) (hlt : j < i) : j + m ≤ i :=
  (taken_iff.mp h).2 j hlt hj

/-- A pattern that never fits at two places that overlap is taken wherever it fits. -/
theorem taken_of_apart (hapart : ∀ i j, P i → P j → j < i → j + m ≤ i) (h : P i) : Taken P m i :=
  taken_iff.mpr ⟨h, fun j hlt hj => hapart i j h hj.fits hlt⟩

end Supplementary.Greedy
