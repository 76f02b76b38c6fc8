import Mathlib.Data.List.Basic
import Mathlib.Order.Basic

/-!
# Psrl.Lib.Zones

An array filled from both ends.

One kind of element fills the array from the left, another from the right, and
what lies between is free. `Left P` says that the indices with `P` form an
initial segment, `Right n P` that those below `n` form a final one. Both are
changed only at their boundary: a segment grows by the next free index and
shrinks by its boundary index. `lastBelow` is the descending scan that finds the
boundary of the right segment.
-/

namespace Zones

variable {P Q : Nat → Prop} {k n : Nat}

/-- The indices with `P` form an initial segment. -/
def Left (P : Nat → Prop) : Prop := ∀ i j, i < j → P j → P i

/-- The indices below `n` with `P` form a final segment of `0, …, n - 1`. -/
def Right (n : Nat) (P : Nat → Prop) : Prop := ∀ i j, i < j → j < n → P i → P j

theorem Left.congr (h : Left P) (hQ : ∀ i, Q i ↔ P i) : Left Q :=
  fun i j hij hj => (hQ i).mpr (h i j hij ((hQ j).mp hj))

theorem Right.congr (h : Right n P) (hQ : ∀ i, i < n → (Q i ↔ P i)) : Right n Q :=
  fun i j hij hj hi => (hQ j hj).mpr (h i j hij hj ((hQ i (by omega)).mp hi))

/-- The left segment grows by the index after its last one. -/
theorem Left.insert_next (h : Left P) (hlt : ∀ i, i < k → P i) (hQ : ∀ i, Q i ↔ P i ∨ i = k) :
    Left Q := by
  intro i j hij hj
  rcases (hQ j).mp hj with hj | rfl
  · exact (hQ i).mpr (.inl (h i j hij hj))
  · exact (hQ i).mpr (.inl (hlt i hij))

/-- The left segment shrinks by its last index. -/
theorem Left.erase_last (h : Left P) (hlast : ∀ i, P i → i ≤ k) (hQ : ∀ i, Q i ↔ P i ∧ i ≠ k) :
    Left Q := by
  intro i j hij hj
  obtain ⟨hPj, hjk⟩ := (hQ j).mp hj
  have := hlast j hPj
  exact (hQ i).mpr ⟨h i j hij hPj, by omega⟩

/-- The right segment grows by the index before its first one. -/
theorem Right.insert_before (h : Right n P) (hgt : ∀ j, k < j → j < n → P j)
    (hQ : ∀ i, i < n → (Q i ↔ P i ∨ i = k)) : Right n Q := by
  intro i j hij hj hi
  rcases (hQ i (by omega)).mp hi with hi | rfl
  · exact (hQ j hj).mpr (.inl (h i j hij hj hi))
  · exact (hQ j hj).mpr (.inl (hgt j hij hj))

/-- The right segment shrinks by its first index. -/
theorem Right.erase_first (h : Right n P) (hfirst : ∀ i, i < n → P i → k ≤ i)
    (hQ : ∀ i, i < n → (Q i ↔ P i ∧ i ≠ k)) : Right n Q := by
  intro i j hij hj hi
  obtain ⟨hPi, hik⟩ := (hQ i (by omega)).mp hi
  have := hfirst i (by omega) hPi
  exact (hQ j hj).mpr ⟨h i j hij hj hPi, by omega⟩

/-! ### The descending scan -/

/-- The largest index below `n` with `p`, or `-1` when there is none. -/
def lastBelow (p : Nat → Bool) : Nat → Int
  | 0 => -1
  | n + 1 => if p n then n else lastBelow p n

variable {p : Nat → Bool}

theorem lastBelow_lt : ∀ n, lastBelow p n < n
  | 0 => by simp [lastBelow]
  | n + 1 => by
      have := lastBelow_lt n
      unfold lastBelow
      split <;> push_cast <;> omega

theorem neg_one_le_lastBelow : ∀ n, -1 ≤ lastBelow p n
  | 0 => by simp [lastBelow]
  | n + 1 => by
      have := neg_one_le_lastBelow n
      unfold lastBelow
      split <;> omega

/-- Nothing after the found index satisfies `p`. -/
theorem not_of_lastBelow_lt : ∀ {n i : Nat}, lastBelow p n < i → i < n → p i = false
  | 0, _, _, hi => absurd hi (by omega)
  | n + 1, i, h, hi => by
      unfold lastBelow at h
      split at h
      · omega
      · rename_i hp
        by_cases hin : i = n
        · subst hin
          simpa using hp
        · exact not_of_lastBelow_lt h (by omega)

/-- The found index satisfies `p`. -/
theorem lastBelow_spec : ∀ {n i : Nat}, lastBelow p n = i → p i = true
  | 0, _, h => absurd h (by unfold lastBelow; omega)
  | n + 1, i, h => by
      unfold lastBelow at h
      split at h
      · rename_i hp
        obtain rfl : n = i := by omega
        exact hp
      · exact lastBelow_spec h

/-- An index with `p` is at or before the found one. -/
theorem le_lastBelow {i : Nat} (hi : i < n) (hp : p i = true) : (i : Int) ≤ lastBelow p n := by
  by_contra hlt
  have := not_of_lastBelow_lt (p := p) (n := n) (i := i) (by omega) hi
  rw [hp] at this
  cases this

end Zones
