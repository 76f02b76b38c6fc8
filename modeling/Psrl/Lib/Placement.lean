import Mathlib.Logic.Basic

/-!
# Psrl.Lib.Placement

A store and the index kept beside it.

`content l` is the key stored at location `l`, `index k` is the location the
index gives for key `k`. The index is *exact* when the two describe the same
partial bijection: then every key sits at one location at most, and the index
finds it there. The lemmas say that the ways a store changes (a key is removed, a
new key is put at a free location, a key moves to a free location, a whole zone is
emptied) keep the index exact, when it is changed alongside.
-/

namespace Placement

variable {K L : Type}

/-- The index lists exactly the stored keys, each at its location. -/
def Exact (content : L → Option K) (index : K → Option L) : Prop :=
  ∀ k l, index k = some l ↔ content l = some k

variable {content content' : L → Option K} {index index' : K → Option L}
  {k : K} {l l' : L}

/-- A key is stored at one location at most. -/
theorem Exact.unique (h : Exact content index) (hl : content l = some k)
    (hl' : content l' = some k) : l = l' := by
  have h1 := (h k l).mpr hl
  have h2 := (h k l').mpr hl'
  rw [h1] at h2
  exact Option.some.inj h2

theorem Exact.congr (h : Exact content index) (hcontent : ∀ m, content' m = content m)
    (hindex : ∀ j, index' j = index j) : Exact content' index' := by
  intro j m
  rw [hcontent, hindex]
  exact h j m

/-- Emptying a zone of the store together with the index entries of the keys in it. -/
theorem Exact.removeZone (zone : L → Prop) [DecidablePred zone] (h : Exact content index)
    (hcontent : ∀ m, content' m = if zone m then none else content m)
    (hgone : ∀ j m, zone m → content m = some j → index' j = none)
    (hkept : ∀ j, (∀ m, zone m → content m ≠ some j) → index' j = index j) :
    Exact content' index' := by
  intro j m
  rw [hcontent]
  by_cases hin : ∃ m', zone m' ∧ content m' = some j
  · obtain ⟨m', hzone, hm'⟩ := hin
    rw [hgone j m' hzone hm']
    refine iff_of_false (by simp) ?_
    by_cases hm : zone m
    · simp [hm]
    · rw [if_neg hm]
      exact fun heq => hm (h.unique heq hm' ▸ hzone)
  · rw [hkept j fun m' hzone hm' => hin ⟨m', hzone, hm'⟩, h j m]
    by_cases hm : zone m
    · rw [if_pos hm]
      exact iff_of_false (fun heq => hin ⟨m, hm, heq⟩) (by simp)
    · rw [if_neg hm]

variable [DecidableEq K] [DecidableEq L]

/-- Removing the key `k` together with its index entry. -/
theorem Exact.remove (h : Exact content index) (hl : content l = some k)
    (hcontent : ∀ m, content' m = if m = l then none else content m)
    (hindex : ∀ j, index' j = if j = k then none else index j) :
    Exact content' index' := by
  intro j m
  rw [hcontent, hindex]
  by_cases hj : j = k
  · subst hj
    rw [if_pos rfl]
    by_cases hm : m = l
    · simp [hm]
    · rw [if_neg hm]
      exact ⟨fun h => absurd h (by simp), fun hcm => absurd (h.unique hcm hl) hm⟩
  · rw [if_neg hj]
    by_cases hm : m = l
    · subst hm
      rw [if_pos rfl, h j m, hl]
      simp [Ne.symm hj]
    · rw [if_neg hm]
      exact h j m

/-- Storing a new key `k` at the free location `l`. -/
theorem Exact.insert (h : Exact content index) (hfree : content l = none)
    (hnew : index k = none)
    (hcontent : ∀ m, content' m = if m = l then some k else content m)
    (hindex : ∀ j, index' j = if j = k then some l else index j) :
    Exact content' index' := by
  intro j m
  rw [hcontent, hindex]
  by_cases hj : j = k
  · subst hj
    rw [if_pos rfl]
    by_cases hm : m = l
    · simp [hm]
    · rw [if_neg hm, ← h j m, hnew]
      simp [Ne.symm hm]
  · rw [if_neg hj]
    by_cases hm : m = l
    · subst hm
      rw [if_pos rfl, h j m, hfree]
      simp [Ne.symm hj]
    · rw [if_neg hm]
      exact h j m

/-- Moving the key `k` from `l'` to the free location `l`. -/
theorem Exact.move (h : Exact content index) (hl' : content l' = some k)
    (hfree : content l = none)
    (hcontent : ∀ m, content' m = if m = l' then none else if m = l then some k else content m)
    (hindex : ∀ j, index' j = if j = k then some l else index j) :
    Exact content' index' := by
  have hne : l ≠ l' := by
    rintro rfl
    rw [hl'] at hfree
    cases hfree
  -- a move is a removal followed by an insertion at the free location
  have hremoved : Exact (fun m => if m = l' then none else content m)
      (fun j => if j = k then none else index j) :=
    h.remove hl' (fun _ => rfl) (fun _ => rfl)
  refine hremoved.insert (l := l) (k := k) (by simp [hne, hfree]) (by simp) ?_ ?_
  · intro m
    rw [hcontent]
    by_cases hm : m = l'
    · simp [hm, Ne.symm hne]
    · by_cases hml : m = l <;> simp [hm, hml, hne]
  · intro j
    rw [hindex]
    by_cases hj : j = k <;> simp [hj]

end Placement
