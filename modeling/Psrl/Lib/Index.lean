import Mathlib.Data.Finset.Insert
import Mathlib.Data.List.Sort
import Psrl.Lib.Python

/-!
# Psrl.Lib.Index

Dictionaries of sets as relations: `defaultdict(set)` with `d[k].add(a)`, and `discard` that
drops the entry of a key whose set gets empty. Loops over keys add or remove the pairs of one
element. `SetOrder.ofLinearOrder` is an order to loop over sets of such keys.
-/

namespace Py

/-- The order that visits a set from its smallest to its largest element. -/
def SetOrder.ofLinearOrder (α : Type) [LinearOrder α] : SetOrder α where
  toList s := Quot.liftOn s.val (List.insertionSort (· ≤ ·)) fun l l' h =>
    List.Perm.eq_of_pairwise (fun _ _ _ _ => le_antisymm) (List.pairwise_insertionSort _ l)
      (List.pairwise_insertionSort _ l')
      ((List.perm_insertionSort _ l).trans (h.trans (List.perm_insertionSort _ l').symm))
  mem_toList := by
    intro s a
    obtain ⟨⟨l⟩, hnodup⟩ := s
    exact List.mem_insertionSort _
  nodup_toList := by
    intro s
    obtain ⟨⟨l⟩, hnodup⟩ := s
    exact (List.perm_insertionSort _ l).nodup_iff.mpr hnodup

/-- The order of another type with as many elements. -/
def SetOrder.comap {α β : Type} (f : α ≃ β) (order : SetOrder β) : SetOrder α where
  toList s := (order.toList (s.map f.toEmbedding)).map f.symm
  mem_toList := by
    intro s a
    rw [List.mem_map]
    constructor
    · rintro ⟨b, hb, rfl⟩
      obtain ⟨a', ha', rfl⟩ := Finset.mem_map.mp ((order.mem_toList _ b).mp hb)
      simpa using ha'
    · intro ha
      exact ⟨f a, (order.mem_toList _ _).mpr (Finset.mem_map_of_mem _ ha), f.symm_apply_apply a⟩
  nodup_toList s := (order.nodup_toList _).map f.symm.injective

namespace Dict

variable {κ α : Type} [DecidableEq κ] [DecidableEq α]

/-- The pair is in the index. -/
def Has (d : Dict κ (Finset α)) (k : κ) (a : α) : Prop := ∃ members ∈ d.get? k, a ∈ members

/-- `d[k].add(a)`. -/
def add (d : Dict κ (Finset α)) (k : κ) (a : α) : Dict κ (Finset α) :=
  d.set k (insert a ((d.get? k).getD ∅))

/-- `discard` from the set of a key, without leaving an empty set behind. -/
def discard (d : Dict κ (Finset α)) (k : κ) (a : α) : Dict κ (Finset α) :=
  match d.get? k with
  | none => d
  | some members =>
      if members.erase a = ∅ then d.erase k else d.set k (members.erase a)

variable {d : Dict κ (Finset α)} {k k' : κ} {a a' : α}

theorem has_add_iff : (d.add k a).Has k' a' ↔ (k' = k ∧ a' = a) ∨ d.Has k' a' := by
  unfold add Has
  rw [get?_set]
  by_cases hk : k' = k
  · subst hk
    rw [if_pos rfl]
    cases hget : d.get? k' with
    | none => simp
    | some members => simp
  · simp [hk]

theorem has_discard_iff : (d.discard k a).Has k' a' ↔ d.Has k' a' ∧ ¬ (k' = k ∧ a' = a) := by
  unfold discard
  cases hget : d.get? k with
  | none =>
      refine ⟨fun h => ⟨h, ?_⟩, And.left⟩
      rintro ⟨rfl, rfl⟩
      obtain ⟨members, hmembers, -⟩ := h
      rw [hget] at hmembers
      cases hmembers
  | some members =>
      dsimp only
      by_cases hk : k' = k
      · subst hk
        have hold : d.Has k' a' ↔ a' ∈ members := by simp [Has, hget]
        rw [hold]
        split
        · rename_i hempty
          have hgone : ¬ (d.erase k').Has k' a' := by simp [Has]
          have hnone := Finset.eq_empty_iff_forall_notMem.mp hempty a'
          rw [Finset.mem_erase] at hnone
          refine ⟨fun h => absurd h hgone, fun ⟨hmem, hne⟩ => absurd ⟨?_, hmem⟩ hnone⟩
          exact fun heq => hne ⟨rfl, heq⟩
        · simp [Has, Finset.mem_erase, and_comm]
      · split
        · simp [Has, get?_erase, hk]
        · simp [Has, get?_set, hk]

/-- A loop that adds one element under many keys. -/
theorem has_foldl_add_iff : ∀ {keys : List κ} {d : Dict κ (Finset α)},
    (keys.foldl (fun d k => d.add k a) d).Has k' a' ↔ (k' ∈ keys ∧ a' = a) ∨ d.Has k' a'
  | [], _ => by simp
  | k :: keys, d => by
      rw [List.foldl_cons, has_foldl_add_iff, has_add_iff, List.mem_cons]
      tauto

/-- A loop that removes one element under many keys. -/
theorem has_foldl_discard_iff : ∀ {keys : List κ} {d : Dict κ (Finset α)},
    (keys.foldl (fun d k => d.discard k a) d).Has k' a' ↔ d.Has k' a' ∧ ¬ (k' ∈ keys ∧ a' = a)
  | [], _ => by simp
  | k :: keys, d => by
      rw [List.foldl_cons, has_foldl_discard_iff, has_discard_iff, List.mem_cons]
      tauto

end Dict

end Py
