import Mathlib.Algebra.Order.BigOperators.Group.List
import Mathlib.Algebra.Order.Ring.Int

/-!
# Psrl.Lib.Greedy

Taking elements one after the other as long as a budget lasts. If they come in the order of their
costs, no other choice within the budget has more elements (`length_le_fill`).
-/

namespace Greedy

variable {α : Type} {cost : α → Int} {budget : Int} {l l' : List α}

/-- Each element in turn that still fits. -/
def fill (cost : α → Int) : Int → List α → List α
  | _, [] => []
  | budget, a :: l =>
      if cost a ≤ budget then a :: fill cost (budget - cost a) l else fill cost budget l

theorem fill_sublist : ∀ (budget : Int) (l : List α), (fill cost budget l).Sublist l
  | _, [] => .slnil
  | budget, a :: l => by
      unfold fill
      split
      · exact (fill_sublist _ l).cons_cons a
      · exact (fill_sublist _ l).cons a

theorem sum_fill_le (h : 0 ≤ budget) : ((fill cost budget l).map cost).sum ≤ budget := by
  induction l generalizing budget with
  | nil => exact h
  | cons a l ih =>
      unfold fill
      split
      · rename_i hfits
        have hrest := ih (Int.sub_nonneg_of_le hfits)
        rw [List.map_cons, List.sum_cons]
        omega
      · exact ih h

/-- Nothing can be taken if no element fits. -/
theorem fill_eq_nil (h : ∀ a ∈ l, budget < cost a) : fill cost budget l = [] := by
  induction l with
  | nil => rfl
  | cons a l ih =>
      unfold fill
      rw [if_neg (not_le.mpr (h a List.mem_cons_self))]
      exact ih fun b hb => h b (List.mem_cons_of_mem _ hb)

theorem head_mem_fill {a : α} (h : cost a ≤ budget) : a ∈ fill cost budget (a :: l) := by
  unfold fill
  rw [if_pos h]
  exact List.mem_cons_self

/-- Elements in the order of their costs: any choice within the budget has at most as many. The
exchange: its first element costs no less than the one that was taken. -/
theorem length_le_fill (hcost : ∀ a ∈ l, 0 ≤ cost a)
    (hsorted : l.Pairwise fun a b => cost a ≤ cost b) (hsub : l'.Sublist l)
    (hsum : (l'.map cost).sum ≤ budget) : l'.length ≤ (fill cost budget l).length := by
  induction l generalizing l' budget with
  | nil =>
      rw [List.sublist_nil.mp hsub]
      exact Nat.zero_le _
  | cons a l ih =>
      obtain ⟨hleast, hsorted⟩ := List.pairwise_cons.mp hsorted
      have hrest := fun b hb => hcost b (List.mem_cons_of_mem a hb)
      cases l' with
      | nil => exact Nat.zero_le _
      | cons b l' =>
          rw [List.map_cons, List.sum_cons] at hsum
          obtain ⟨hb, hsub⟩ : cost a ≤ cost b ∧ l'.Sublist l := by
            cases hsub with
            | cons _ hsub =>
                exact ⟨hleast b (hsub.subset List.mem_cons_self),
                  (List.sublist_cons_self b l').trans hsub⟩
            | cons_cons _ hsub => exact ⟨le_rfl, hsub⟩
          have hnonneg : 0 ≤ (l'.map cost).sum := by
            refine List.sum_nonneg fun x hx => ?_
            obtain ⟨c, hc, rfl⟩ := List.mem_map.mp hx
            exact hrest c (hsub.subset hc)
          unfold fill
          rw [if_pos (by omega), List.length_cons, List.length_cons]
          have hbudget : (l'.map cost).sum ≤ budget - cost a := by omega
          exact Nat.succ_le_succ (ih hrest hsorted hsub hbudget)

end Greedy
