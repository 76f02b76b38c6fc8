import Mathlib.Data.List.Perm.Basic

/-!
# Psrl.Lib.Ledger

What the members of a list hold together, when one of them changes.
Each member holds at most one thing; the order of what is held does not matter.
-/

namespace Ledger

variable {α β : Type} {held : α → Option β} {l : List α} {i : Nat} {x y : α} {b : β}

/-- The other members hold the same whatever member `i` becomes. -/
theorem exists_rest (held : α → Option β) (h : l[i]? = some x) :
    ∃ rest, (l.filterMap held).Perm ((held x).toList ++ rest) ∧
      ∀ y, ((l.set i y).filterMap held).Perm ((held y).toList ++ rest) := by
  obtain ⟨hlt, rfl⟩ := List.getElem?_eq_some_iff.mp h
  have hcons : ∀ y, ((y :: l.eraseIdx i).filterMap held) =
      (held y).toList ++ (l.eraseIdx i).filterMap held := by
    intro y
    cases hy : held y with
    | none => rw [List.filterMap_cons_none hy, Option.toList_none, List.nil_append]
    | some b => rw [List.filterMap_cons_some hy, Option.toList_some, List.singleton_append]
  refine ⟨(l.eraseIdx i).filterMap held, ?_, fun y => ?_⟩
  · rw [← hcons]
    exact (List.getElem_cons_eraseIdx_perm hlt).symm.filterMap held
  · rw [← hcons]
    exact (List.set_perm_cons_eraseIdx hlt y).filterMap held

theorem keep (h : l[i]? = some x) (heq : held y = held x) :
    ((l.set i y).filterMap held).Perm (l.filterMap held) := by
  obtain ⟨rest, hold, hnew⟩ := exists_rest held h
  refine (hnew y).trans ?_
  rw [heq]
  exact hold.symm

theorem acquire (h : l[i]? = some x) (hx : held x = none) (hy : held y = some b) :
    ((l.set i y).filterMap held).Perm (b :: l.filterMap held) := by
  obtain ⟨rest, hold, hnew⟩ := exists_rest held h
  have hnew := hnew y
  rw [hx] at hold
  rw [hy] at hnew
  exact hnew.trans (hold.symm.cons b)

end Ledger
