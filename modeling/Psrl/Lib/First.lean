import Mathlib.Data.List.Sort

/-!
# Psrl.Lib.First

The first element of a list with a property, and the first least one: what the heads of a filtered
list and of a stably sorted list are.
-/

namespace Py

variable {α κ : Type}

/-- The first element of a list with the property. -/
def IsFirst (p : α → Prop) (l : List α) (a : α) : Prop :=
  ∃ before after, l = before ++ a :: after ∧ p a ∧ ∀ b ∈ before, ¬ p b

/-- The first of the elements with the least key. -/
def IsFirstLeast [LinearOrder κ] (f : α → κ) (l : List α) (a : α) : Prop :=
  ∃ before after, l = before ++ a :: after ∧ (∀ b ∈ before, f a < f b) ∧ ∀ b ∈ after, f a ≤ f b

theorem IsFirst.congr {p q : α → Prop} {l : List α} {a : α} (h : ∀ b ∈ l, p b ↔ q b) :
    IsFirst p l a ↔ IsFirst q l a := by
  constructor
  · rintro ⟨before, after, rfl, ha, hbefore⟩
    refine ⟨before, after, rfl, (h a (by simp)).mp ha, fun b hb hq => hbefore b hb ?_⟩
    exact (h b (by simp [hb])).mpr hq
  · rintro ⟨before, after, rfl, ha, hbefore⟩
    refine ⟨before, after, rfl, (h a (by simp)).mpr ha, fun b hb hp => hbefore b hb ?_⟩
    exact (h b (by simp [hb])).mp hp

theorem head?_filter_eq_some_iff {p : α → Bool} {a : α} : ∀ {l : List α},
    (l.filter p).head? = some a ↔ IsFirst (fun b => p b = true) l a
  | [] => by
      refine ⟨fun h => (by cases h), fun ⟨before, after, h, _⟩ => ?_⟩
      simp at h
  | b :: l => by
      cases hb : p b with
      | true =>
          rw [List.filter_cons_of_pos hb, List.head?_cons, Option.some.injEq]
          constructor
          · rintro rfl
            exact ⟨[], l, rfl, hb, fun _ h => absurd h List.not_mem_nil⟩
          · rintro ⟨before, after, h, -, hbefore⟩
            cases before with
            | nil => exact (List.cons.inj h).1
            | cons c rest =>
                obtain ⟨rfl, -⟩ := List.cons.inj h
                exact absurd hb (hbefore b (List.mem_cons_self ..))
      | false =>
          have hneg : ¬ p b = true := by simp [hb]
          rw [List.filter_cons_of_neg hneg, head?_filter_eq_some_iff]
          constructor
          · rintro ⟨before, after, rfl, ha, hbefore⟩
            refine ⟨b :: before, after, rfl, ha, fun c hc => ?_⟩
            rcases List.mem_cons.mp hc with rfl | hc
            · exact hneg
            · exact hbefore c hc
          · rintro ⟨before, after, h, ha, hbefore⟩
            cases before with
            | nil =>
                obtain ⟨rfl, -⟩ := List.cons.inj h
                exact absurd ha hneg
            | cons c rest =>
                obtain ⟨-, h⟩ := List.cons.inj h
                exact ⟨rest, after, h, ha, fun d hd => hbefore d (List.mem_cons_of_mem _ hd)⟩

variable [LinearOrder κ] {f : α → κ}

/-- Of two first least elements, neither stands before the other. -/
theorem IsFirstLeast.unique : ∀ {l : List α} {a b : α},
    IsFirstLeast f l a → IsFirstLeast f l b → a = b
  | [], _, _, ⟨before, after, h, _⟩, _ => by simp at h
  | c :: l, a, b, ⟨before, after, h, hbefore, hafter⟩,
      ⟨before', after', h', hbefore', hafter'⟩ => by
      cases before with
      | nil =>
          obtain ⟨rfl, rfl⟩ := List.cons.inj h
          cases before' with
          | nil => exact (List.cons.inj h').1
          | cons d rest =>
              obtain ⟨rfl, rfl⟩ := List.cons.inj h'
              exact absurd (hbefore' c (List.mem_cons_self ..)) (not_lt.mpr (hafter b (by simp)))
      | cons d rest =>
          obtain ⟨rfl, rfl⟩ := List.cons.inj h
          cases before' with
          | nil =>
              obtain ⟨rfl, rfl⟩ := List.cons.inj h'
              exact absurd (hbefore c (List.mem_cons_self ..)) (not_lt.mpr (hafter' a (by simp)))
          | cons d rest' =>
              obtain ⟨-, h'⟩ := List.cons.inj h'
              exact IsFirstLeast.unique
                ⟨rest, after, rfl, fun x hx => hbefore x (List.mem_cons_of_mem _ hx), hafter⟩
                ⟨rest', after', h', fun x hx => hbefore' x (List.mem_cons_of_mem _ hx), hafter'⟩

theorem isFirstLeast_head_insertionSort : ∀ {l : List α} {a : α} {rest : List α},
    l.insertionSort (fun b c => f b ≤ f c) = a :: rest → IsFirstLeast f l a
  | [], _, _, h => by cases h
  | b :: l, a, rest, h => by
      rw [List.insertionSort_cons] at h
      cases hsort : l.insertionSort (fun b c => f b ≤ f c) with
      | nil =>
          have hnil : l = [] := by
            have hperm := List.perm_insertionSort (fun b c => f b ≤ f c) l
            rw [hsort] at hperm
            exact hperm.symm.eq_nil
          rw [hsort] at h
          cases h
          exact ⟨[], l, rfl, fun _ h => absurd h List.not_mem_nil, by simp [hnil]⟩
      | cons c sorted =>
          obtain ⟨before, after, rfl, hbefore, hafter⟩ := isFirstLeast_head_insertionSort hsort
          rw [hsort, List.orderedInsert_cons] at h
          by_cases hle : f b ≤ f c
          · rw [if_pos hle] at h
            cases h
            refine ⟨[], _, rfl, fun _ h => absurd h List.not_mem_nil, fun d hd => ?_⟩
            rcases List.mem_append.mp hd with hd | hd
            · exact hle.trans (hbefore d hd).le
            · rcases List.mem_cons.mp hd with rfl | hd
              · exact hle
              · exact hle.trans (hafter d hd)
          · rw [if_neg hle] at h
            cases h
            refine ⟨b :: before, after, rfl, fun d hd => ?_, hafter⟩
            rcases List.mem_cons.mp hd with rfl | hd
            · exact not_le.mp hle
            · exact hbefore d hd

end Py
