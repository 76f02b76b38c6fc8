import Mathlib.Data.List.Sort
import Psrl.Lib.Python

/-!
# Psrl.Lib.Multimap

Dictionaries of lists: `d.setdefault(k, []).append(a)`, and the concatenation of all lists in
the order of the sorted keys. However the keys are ordered, appending an element adds exactly
this element to the concatenation.
-/

namespace Py

namespace Dict

variable {κ α : Type} [DecidableEq κ]

/-- `d.setdefault(k, []).append(a)`. -/
def append (d : Dict κ (List α)) (k : κ) (a : α) : Dict κ (List α) :=
  d.set k ((d.get? k).getD [] ++ [a])

theorem getD_append (d : Dict κ (List α)) (k k' : κ) (a : α) :
    ((d.append k a).get? k').getD [] =
      (d.get? k').getD [] ++ if k' = k then [a] else [] := by
  unfold append
  rw [get?_set]
  split
  · rename_i heq
    rw [heq, Option.getD_some]
  · rw [List.append_nil]

/-- `[a for k in sorted(d) for a in d[k]]`. -/
def sortedValues [LE κ] [DecidableLE κ] (d : Dict κ (List α)) : List α :=
  (d.keys.insertionSort (· ≤ ·)).flatMap fun k => (d.get? k).getD []

theorem keys_set {ν : Type} (d : Dict κ ν) (k : κ) (v : ν) :
    (d.set k v).keys = if k ∈ d.keys then d.keys else d.keys ++ [k] :=
  setItems_keys d.items k v

theorem flatMap_update_of_notMem {keys : List κ} {k : κ} {f : κ → List α} (l : List α)
    (hnot : k ∉ keys) : keys.flatMap (Function.update f k l) = keys.flatMap f := by
  refine List.flatMap_congr fun x hx => Function.update_of_ne ?_ _ _
  rintro rfl
  exact hnot hx

/-- Appending to the list of one key, by induction on the keys. -/
theorem flatMap_update_perm {keys : List κ} {k : κ} {f : κ → List α} (a : α) :
    keys.Nodup → k ∈ keys →
    (keys.flatMap (Function.update f k (f k ++ [a]))).Perm (keys.flatMap f ++ [a]) := by
  intro hnodup hmem
  induction keys with
  | nil => cases hmem
  | cons k' rest ih =>
      obtain ⟨hnot, hrest⟩ := List.nodup_cons.mp hnodup
      by_cases hk : k' = k
      · subst hk
        have hsame : rest.flatMap (Function.update f k' (f k' ++ [a])) = rest.flatMap f :=
          flatMap_update_of_notMem _ hnot
        simp only [List.flatMap_cons, Function.update_self, hsame, List.append_assoc]
        exact List.Perm.append_left _ List.perm_append_comm
      · have hmem' : k ∈ rest := (List.mem_cons.mp hmem).resolve_left fun heq => hk heq.symm
        simp only [List.flatMap_cons, Function.update_of_ne hk, List.append_assoc]
        exact List.Perm.append_left _ (ih hrest hmem')

/-! ### As a relation -/

section Listed

variable {d : Dict κ (List α)} {k k' : κ} {a a' : α}

/-- The element is in the list of the key. -/
def Listed (d : Dict κ (List α)) (k : κ) (a : α) : Prop := ∃ l ∈ d.get? k, a ∈ l

/-- Every key has a list with something in it. -/
def NoEmptyList (d : Dict κ (List α)) : Prop := ∀ k l, d.get? k = some l → l ≠ []

theorem listed_append_iff : (d.append k a).Listed k' a' ↔ d.Listed k' a' ∨ (k' = k ∧ a' = a) := by
  unfold append Listed
  rw [get?_set]
  by_cases hk : k' = k
  · subst hk
    rw [if_pos rfl]
    cases hget : d.get? k' with
    | none => simp
    | some l => simp
  · simp [hk]

theorem NoEmptyList.append (h : d.NoEmptyList) (k : κ) (a : α) : (d.append k a).NoEmptyList := by
  intro k' l hget
  unfold Dict.append at hget
  rw [get?_set] at hget
  split at hget
  · cases hget
    simp
  · exact h k' l hget

/-- A loop that appends one element to the lists of many keys. -/
theorem listed_foldl_append_iff : ∀ {keys : List κ} {d : Dict κ (List α)},
    (keys.foldl (fun d k => d.append k a) d).Listed k' a' ↔
      d.Listed k' a' ∨ (k' ∈ keys ∧ a' = a)
  | [], _ => by simp
  | k :: keys, d => by
      rw [List.foldl_cons, listed_foldl_append_iff, listed_append_iff, List.mem_cons]
      tauto

theorem NoEmptyList.foldl_append (a : α) : ∀ {keys : List κ} {d : Dict κ (List α)},
    d.NoEmptyList → (keys.foldl (fun d k => d.append k a) d).NoEmptyList
  | [], _, h => h
  | k :: keys, d, h => by
      rw [List.foldl_cons]
      exact NoEmptyList.foldl_append a (h.append k a)

/-- A loop that lists many elements, each under the keys it has. -/
theorem listed_foldl_keysOf_iff {keysOf : α → List κ} :
    ∀ {elements : List α} {d : Dict κ (List α)},
      (elements.foldl (fun d a => (keysOf a).foldl (fun d k => d.append k a) d) d).Listed k a ↔
        d.Listed k a ∨ (a ∈ elements ∧ k ∈ keysOf a)
  | [], _ => by simp
  | b :: elements, d => by
      rw [List.foldl_cons, listed_foldl_keysOf_iff, listed_foldl_append_iff, List.mem_cons]
      constructor
      · rintro ((h | ⟨hk, rfl⟩) | h)
        · exact .inl h
        · exact .inr ⟨.inl rfl, hk⟩
        · exact .inr ⟨.inr h.1, h.2⟩
      · rintro (h | ⟨rfl | ha, hk⟩)
        · exact .inl (.inl h)
        · exact .inl (.inr ⟨hk, rfl⟩)
        · exact .inr ⟨ha, hk⟩

theorem NoEmptyList.foldl_keysOf {keysOf : α → List κ} :
    ∀ {elements : List α} {d : Dict κ (List α)}, d.NoEmptyList →
      (elements.foldl (fun d a => (keysOf a).foldl (fun d k => d.append k a) d) d).NoEmptyList
  | [], _, h => h
  | b :: elements, d, h => by
      rw [List.foldl_cons]
      exact NoEmptyList.foldl_keysOf (h.foldl_append b)

/-- A key is missing exactly if nothing is listed under it. -/
theorem NoEmptyList.get?_eq_none_iff (h : d.NoEmptyList) :
    d.get? k = none ↔ ∀ a, ¬ d.Listed k a := by
  unfold Listed
  cases hget : d.get? k with
  | none => simp
  | some l =>
      obtain ⟨a, ha⟩ := List.exists_mem_of_ne_nil l (h k l hget)
      refine ⟨fun hnone => ?_, fun hnone => absurd ⟨l, rfl, ha⟩ (hnone a)⟩
      cases hnone

end Listed

variable [LE κ] [DecidableLE κ]

theorem sortedValues_perm (d : Dict κ (List α)) :
    d.sortedValues.Perm (d.keys.flatMap fun k => (d.get? k).getD []) :=
  (List.perm_insertionSort _ _).flatMap_right _

theorem sortedValues_append_perm (d : Dict κ (List α)) (k : κ) (a : α) :
    (d.append k a).sortedValues.Perm (d.sortedValues ++ [a]) := by
  have hvalues : (fun k' => ((d.append k a).get? k').getD []) =
      Function.update (fun k' => (d.get? k').getD []) k ((d.get? k).getD [] ++ [a]) := by
    funext k'
    by_cases hk : k' = k
    · subst hk
      simp [append]
    · simp [append, Dict.get?_set, hk]
  refine (sortedValues_perm _).trans
    (List.Perm.trans ?_ ((sortedValues_perm d).symm.append_right _))
  rw [hvalues, append, keys_set]
  split
  · rename_i hmem
    exact flatMap_update_perm a d.nodup_keys hmem
  · rename_i hmem
    have hnone : d.get? k = none := by
      rw [← Option.not_isSome_iff_eq_none, Option.isSome_iff_exists, ← mem_keys_iff]
      exact hmem
    have hsame : d.keys.flatMap (Function.update (fun k' => (d.get? k').getD []) k
        ((d.get? k).getD [] ++ [a])) = d.keys.flatMap fun k' => (d.get? k').getD [] :=
      flatMap_update_of_notMem _ hmem
    rw [List.flatMap_append, hsame]
    simp [hnone]

end Dict

end Py
