import Psrl.Staleness.Buffer

/-!
# Psrl.Staleness.Layout

How a buffer is filled, and what that makes of its status.

Finished groups fill a buffer from the left and reservations from the right, so its
slots read `OCCUPIED* EMPTY* RESERVED*`. `Shaped` says this of the categories of the
slots, as a function of the slot index, in the form that survives an operation: one
segment at each end, never more `OCCUPIED` slots than a batch needs.

With redundant rollout a buffer has slots behind the batch. When the batch is
complete, a hole among the reservations there is invisible to `get_status`; the
parameter `holesOk` says whether such holes are tolerated. `getStatus_of_shaped`
reads the status of a shaped buffer off two questions — is the batch complete, is
there an `EMPTY` slot — and shows that the assertions of `get_status` hold.
-/

namespace Psrl

open Py

namespace Layout

variable {holesOk : Prop} {numEntries readyNumEntries k : Nat} {cat cat' : Nat → EntryCategory}

/-- The batch is complete: its slots are all `OCCUPIED`. -/
def BatchDone (readyNumEntries : Nat) (cat : Nat → EntryCategory) : Prop :=
  ∀ i, i < readyNumEntries → cat i = .occupied

def HasEmpty (numEntries : Nat) (cat : Nat → EntryCategory) : Prop :=
  ∃ i, i < numEntries ∧ cat i = .empty

instance : Decidable (BatchDone readyNumEntries cat) :=
  inferInstanceAs (Decidable (∀ i, i < readyNumEntries → cat i = .occupied))

instance : Decidable (HasEmpty numEntries cat) :=
  decidable_of_iff (∃ i ∈ List.range numEntries, cat i = .empty) (by simp [HasEmpty])

/-- The status of a well filled buffer. -/
def statusOf (numEntries readyNumEntries : Nat) (cat : Nat → EntryCategory) : BufferStatus :=
  if BatchDone readyNumEntries cat then
    if HasEmpty numEntries cat then .readyWithCapacity else .ready
  else if HasEmpty numEntries cat then .pending
  else .stuck

/-- `OCCUPIED` slots form an initial segment of at most one batch, `RESERVED` slots a
final one; the latter may have holes only if `holesOk` and the batch is complete. -/
structure Shaped (holesOk : Prop) (numEntries readyNumEntries : Nat)
    (cat : Nat → EntryCategory) : Prop where
  left : Zones.Left fun i => cat i = .occupied
  lt_ready : ∀ i, cat i = .occupied → i < readyNumEntries
  right : ¬ (holesOk ∧ BatchDone readyNumEntries cat) →
    Zones.Right numEntries fun i => cat i = .reserved
  beyond : ∀ i, numEntries ≤ i → cat i = .empty

theorem shaped_empty : Shaped holesOk numEntries readyNumEntries fun _ => .empty where
  left := fun _ _ _ h => by cases h
  lt_ready := fun _ h => by cases h
  right := fun _ _ _ _ _ h => by cases h
  beyond := fun _ _ => rfl

/-- Where the `RESERVED` slots at the end of the buffer start. -/
def suffixStart (numEntries : Nat) (cat : Nat → EntryCategory) : Nat :=
  (Zones.lastBelow (fun i => decide (cat i ≠ .reserved)) numEntries + 1).toNat

theorem reserved_of_suffixStart_le {i : Nat} (h : suffixStart numEntries cat ≤ i)
    (hi : i < numEntries) : cat i = .reserved := by
  have hlow := Zones.neg_one_le_lastBelow (p := fun i => decide (cat i ≠ .reserved)) numEntries
  unfold suffixStart at h
  simpa using Zones.not_of_lastBelow_lt (p := fun i => decide (cat i ≠ .reserved)) (by omega) hi

/-- Without holes every reservation belongs to the suffix. -/
theorem suffixStart_le_of_reserved (hright : Zones.Right numEntries fun i => cat i = .reserved)
    {i : Nat} (hres : cat i = .reserved) :
    suffixStart numEntries cat ≤ i := by
  have hlow := Zones.neg_one_le_lastBelow (p := fun i => decide (cat i ≠ .reserved)) numEntries
  have hhigh := Zones.lastBelow_lt (p := fun i => decide (cat i ≠ .reserved)) numEntries
  by_contra hlt
  unfold suffixStart at hlt
  obtain ⟨l, hl⟩ : ∃ l : Nat,
      Zones.lastBelow (fun i => decide (cat i ≠ .reserved)) numEntries = l :=
    ⟨(Zones.lastBelow (fun i => decide (cat i ≠ .reserved)) numEntries).toNat, by omega⟩
  have hnot : cat l ≠ .reserved := by simpa using Zones.lastBelow_spec hl
  rcases Nat.eq_or_lt_of_le (show i ≤ l by omega) with rfl | hil
  · exact hnot hres
  · exact hnot (hright i l hil (by omega) hres)

/-! ### Writes that keep the shape -/

theorem batchDone_update_iff {c : EntryCategory} (hk : cat k ≠ .occupied) (hc : c ≠ .occupied) :
    BatchDone readyNumEntries (Function.update cat k c) ↔ BatchDone readyNumEntries cat := by
  have key : ∀ i, Function.update cat k c i = .occupied ↔ cat i = .occupied := by
    intro i
    by_cases hi : i = k
    · subst hi
      simp [hk, hc]
    · rw [Function.update_of_ne hi]
  exact forall₂_congr fun i _ => key i

section

variable (h : Shaped holesOk numEntries readyNumEntries cat)

include h

/-- A reservation goes right before the reserved segment. -/
theorem Shaped.reserve (hk : cat k = .empty) (hlt : k < numEntries)
    (hafter : ∀ j, k < j → j < numEntries → cat j = .reserved) :
    Shaped holesOk numEntries readyNumEntries (Function.update cat k .reserved) := by
  have hocc : ∀ i, Function.update cat k .reserved i = .occupied ↔ cat i = .occupied := by
    intro i
    by_cases hi : i = k
    · subst hi
      simp [hk]
    · rw [Function.update_of_ne hi]
  refine ⟨h.left.congr hocc, fun i hi => h.lt_ready i ((hocc i).mp hi), fun hn => ?_, ?_⟩
  · have hn' : ¬ (holesOk ∧ BatchDone readyNumEntries cat) := by
      rwa [batchDone_update_iff (by simp [hk]) (by simp)] at hn
    refine (h.right hn').insert_before hafter fun i _ => ?_
    by_cases hi : i = k
    · simp [hi]
    · simp [hi]
  · intro i hi
    rw [Function.update_of_ne (by omega)]
    exact h.beyond i hi

/-- A finished group goes right behind the occupied segment, inside the batch. -/
theorem Shaped.occupy (hk : cat k = .empty) (hlt : k < numEntries) (hready : k < readyNumEntries)
    (hbefore : ∀ i, i < k → cat i = .occupied) :
    Shaped holesOk numEntries readyNumEntries (Function.update cat k .occupied) := by
  have hocc : ∀ i, Function.update cat k .occupied i = .occupied ↔
      cat i = .occupied ∨ i = k := by
    intro i
    by_cases hi : i = k
    · simp [hi]
    · simp [hi]
  refine ⟨h.left.insert_next hbefore hocc, fun i hi => ?_, fun _ => ?_, fun i hi => ?_⟩
  · rcases (hocc i).mp hi with hi | rfl
    · exact h.lt_ready i hi
    · exact hready
  · have hnot : ¬ BatchDone readyNumEntries cat := fun hd => by
      have := hd k hready
      rw [hk] at this
      cases this
    refine (h.right fun hn => hnot hn.2).congr fun i _ => ?_
    by_cases hi : i = k
    · subst hi
      simp [hk]
    · rw [Function.update_of_ne hi]
  · rw [Function.update_of_ne (by omega)]
    exact h.beyond i hi

/-- The first reservation goes away. -/
theorem Shaped.clearReserved (hk : cat k = .reserved)
    (hfirst : ¬ (holesOk ∧ BatchDone readyNumEntries cat) →
      ∀ i, i < numEntries → cat i = .reserved → k ≤ i) :
    Shaped holesOk numEntries readyNumEntries (Function.update cat k .empty) := by
  have hocc : ∀ i, Function.update cat k .empty i = .occupied ↔ cat i = .occupied := by
    intro i
    by_cases hi : i = k
    · subst hi
      simp [hk]
    · rw [Function.update_of_ne hi]
  refine ⟨h.left.congr hocc, fun i hi => h.lt_ready i ((hocc i).mp hi), fun hn => ?_,
    fun i hi => ?_⟩
  · have hn' : ¬ (holesOk ∧ BatchDone readyNumEntries cat) := by
      rwa [batchDone_update_iff (by simp [hk]) (by simp)] at hn
    refine (h.right hn').erase_first (hfirst hn') fun i _ => ?_
    by_cases hi : i = k
    · simp [hi]
    · simp [hi]
  · by_cases hik : i = k
    · simp [hik]
    · rw [Function.update_of_ne hik]
      exact h.beyond i hi

/-- The last finished group goes away. -/
theorem Shaped.clearOccupied (hk : cat k = .occupied) (hlast : ∀ i, cat i = .occupied → i ≤ k)
    (hright : Zones.Right numEntries fun i => cat i = .reserved) :
    Shaped holesOk numEntries readyNumEntries (Function.update cat k .empty) := by
  have hocc : ∀ i, Function.update cat k .empty i = .occupied ↔ cat i = .occupied ∧ i ≠ k := by
    intro i
    by_cases hi : i = k
    · simp [hi]
    · simp [hi]
  refine ⟨h.left.erase_last hlast hocc, fun i hi => h.lt_ready i ((hocc i).mp hi).1,
    fun _ => hright.congr fun i _ => ?_, fun i hi => ?_⟩
  · by_cases hi : i = k
    · subst hi
      simp [hk]
    · rw [Function.update_of_ne hi]
  · by_cases hik : i = k
    · simp [hik]
    · rw [Function.update_of_ne hik]
      exact h.beyond i hi

end

end Layout

namespace StalenessBuffer

open Layout

variable {holesOk : Prop} {buf : StalenessBuffer}

theorem getLastNonReserved_succ (buf : StalenessBuffer) :
    buf.getLastNonReserved + 1 = (suffixStart buf.numEntries buf.categoryAt : Int) := by
  have := buf.neg_one_le_getLastNonReserved
  unfold suffixStart
  rw [Int.toNat_of_nonneg]
  · rfl
  · unfold getLastNonReserved at this
    omega

/-- The first non-`OCCUPIED` slot lies inside the batch exactly while the batch is open. -/
theorem first_lt_ready_iff :
    buf.getFirstNonOccupied < buf.readyNumEntries ↔
      ¬ BatchDone buf.readyNumEntries buf.categoryAt := by
  constructor
  · intro hlt hdone
    exact buf.not_occupied_first (hdone _ hlt)
  · intro hnot
    by_contra hle
    exact hnot fun i hi => buf.occupied_of_lt_first (by omega)

/-- In a shaped buffer only the batch is `OCCUPIED`. -/
theorem first_eq_ready_iff
    (h : Shaped holesOk buf.numEntries buf.readyNumEntries buf.categoryAt) :
    buf.getFirstNonOccupied = buf.readyNumEntries ↔
      BatchDone buf.readyNumEntries buf.categoryAt := by
  constructor
  · intro heq
    by_contra hnot
    exact absurd (first_lt_ready_iff.mpr hnot) (by omega)
  · intro hdone
    exact getFirstNonOccupied_eq hdone fun hocc => absurd (h.lt_ready _ hocc) (by omega)

/-- An open, shaped buffer has its boundaries next to each other exactly when it is full. -/
theorem first_eq_last_succ_iff
    (h : Shaped holesOk buf.numEntries buf.readyNumEntries buf.categoryAt) :
    (buf.getFirstNonOccupied : Int) = buf.getLastNonReserved + 1 ↔
      ¬ HasEmpty buf.numEntries buf.categoryAt := by
  have hfirst : ∀ i, buf.categoryAt i = .occupied → i < buf.getFirstNonOccupied := by
    intro i hi
    by_contra hle
    rcases Nat.eq_or_lt_of_le (Nat.not_lt.mp hle) with heq | hlt
    · exact buf.not_occupied_first (heq ▸ hi)
    · exact buf.not_occupied_first (h.left _ _ hlt hi)
  constructor
  · rintro heq ⟨i, hi, hempty⟩
    have hlow : buf.getFirstNonOccupied ≤ i := by
      by_contra hlt
      have := buf.occupied_of_lt_first (Nat.not_le.mp hlt)
      rw [hempty] at this
      cases this
    have := buf.le_last_of_not_reserved hi (by rw [hempty]; simp)
    omega
  · intro hnone
    have hres : ∀ i, buf.getFirstNonOccupied ≤ i → i < buf.numEntries →
        buf.categoryAt i = .reserved := by
      intro i hle hi
      cases hc : buf.categoryAt i with
      | empty => exact absurd ⟨i, hi, hc⟩ hnone
      | reserved => rfl
      | occupied => exact absurd (hfirst i hc) (by omega)
    -- the last non-reserved slot is the last occupied one
    have hle := buf.getFirstNonOccupied_le
    have hge : (buf.getFirstNonOccupied : Int) ≤ buf.getLastNonReserved + 1 := by
      by_cases h0 : buf.getFirstNonOccupied = 0
      · have := buf.neg_one_le_getLastNonReserved
        omega
      · have hocc := buf.occupied_of_lt_first (i := buf.getFirstNonOccupied - 1) (by omega)
        have := buf.le_last_of_not_reserved (i := buf.getFirstNonOccupied - 1) (by omega)
          (by rw [hocc]; simp)
        omega
    by_contra hne
    obtain ⟨i, hi⟩ : ∃ i : Nat, buf.getLastNonReserved = i :=
      ⟨buf.getLastNonReserved.toNat, by omega⟩
    have hlt := buf.getLastNonReserved_lt
    exact buf.not_reserved_last hi (hres i (by omega) (by omega))

/-- `get_status` of a shaped buffer: none of its assertions fails, and the status says
whether the batch is complete and whether there is an `EMPTY` slot. -/
theorem getStatus_of_shaped
    (h : Shaped holesOk buf.numEntries buf.readyNumEntries buf.categoryAt) :
    buf.getStatus = .ok (statusOf buf.numEntries buf.readyNumEntries buf.categoryAt) := by
  unfold getStatus statusOf
  by_cases hdone : BatchDone buf.readyNumEntries buf.categoryAt
  · have hany : ((buf.entries.drop buf.readyNumEntries).any
        fun entry => entry.category = .empty) = true ↔ HasEmpty buf.numEntries buf.categoryAt := by
      rw [any_drop_iff]
      refine ⟨fun ⟨i, _, hi, hc⟩ => ⟨i, hi, hc⟩, fun ⟨i, hi, hc⟩ => ⟨i, ?_, hi, hc⟩⟩
      by_contra hlt
      have := hdone i (by omega)
      rw [hc] at this
      cases this
    rw [if_pos ((first_eq_ready_iff h).mpr hdone), if_pos hdone]
    by_cases hempty : HasEmpty buf.numEntries buf.categoryAt
    · rw [if_pos (hany.mpr hempty), if_pos hempty]
    · rw [if_neg (mt hany.mp hempty), if_neg hempty]
  · rw [if_neg (mt (first_eq_ready_iff h).mp hdone), if_neg hdone]
    by_cases hempty : HasEmpty buf.numEntries buf.categoryAt
    · rw [if_neg fun heq => (first_eq_last_succ_iff h).mp heq hempty, if_pos hempty,
        pyAssert_of (any_iff.mpr hempty), ok_bind]
    · have hbound := (first_eq_last_succ_iff h).mpr hempty
      rw [if_pos hbound, if_neg hempty,
        pyAssert_of ⟨all_take fun i hi => buf.occupied_of_lt_first hi,
          all_drop fun i hle hi => buf.reserved_of_last_lt (by omega) hi⟩, ok_bind]

/-- Whatever the layout, the status of a buffer with an `EMPTY` slot is defined. -/
theorem getStatus_ok_of_hasEmpty (h : HasEmpty buf.numEntries buf.categoryAt) :
    ∃ s, buf.getStatus = .ok s := by
  unfold getStatus
  dsimp only
  split
  · split
    · exact ⟨_, rfl⟩
    · exact ⟨_, rfl⟩
  · split
    · rename_i hbound
      rw [pyAssert_of ⟨all_take fun i hi => buf.occupied_of_lt_first hi,
        all_drop fun i hle hi => buf.reserved_of_last_lt (by omega) hi⟩, ok_bind]
      exact ⟨_, rfl⟩
    · rw [pyAssert_of (any_iff.mpr h), ok_bind]
      exact ⟨_, rfl⟩

/-- Whatever the layout, a returned status says whether the batch boundary was reached. -/
theorem getStatus_ready_iff {s : BufferStatus} (h : buf.getStatus = .ok s) :
    (s = .ready ∨ s = .readyWithCapacity) ↔ buf.getFirstNonOccupied = buf.readyNumEntries := by
  unfold getStatus at h
  by_cases hfirst : buf.getFirstNonOccupied = buf.readyNumEntries
  · rw [if_pos hfirst] at h
    simp only [hfirst, iff_true]
    split at h
    · cases h; exact .inr rfl
    · cases h; exact .inl rfl
  · rw [if_neg hfirst] at h
    simp only [hfirst, iff_false]
    dsimp only at h
    split at h
    · obtain ⟨_, _, h⟩ := bind_eq_ok.mp h
      cases h; simp
    · obtain ⟨_, _, h⟩ := bind_eq_ok.mp h
      cases h; simp

/-! ### The layout as a word -/

/-- The slots read `OCCUPIED* EMPTY* RESERVED*`. -/
def LaidOut (buf : StalenessBuffer) : Prop :=
  ∃ o e r, buf.entries.map Entry.category =
    List.replicate o EntryCategory.occupied ++ List.replicate e EntryCategory.empty ++
      List.replicate r EntryCategory.reserved

instance (buf : StalenessBuffer) : Decidable buf.LaidOut :=
  decidable_of_iff (((List.range (buf.numEntries + 1)).any fun o =>
    (List.range (buf.numEntries + 1)).any fun e => (List.range (buf.numEntries + 1)).any fun r =>
      buf.entries.map Entry.category = List.replicate o EntryCategory.occupied ++
        List.replicate e EntryCategory.empty ++ List.replicate r EntryCategory.reserved) =
          true) <| by
    simp only [List.any_eq_true, List.mem_range, decide_eq_true_eq]
    refine ⟨fun ⟨o, _, e, _, r, _, h⟩ => ⟨o, e, r, h⟩, fun ⟨o, e, r, h⟩ => ?_⟩
    have hlen := congrArg List.length h
    simp only [List.length_map, buf.length_entries, List.length_append,
      List.length_replicate] at hlen
    exact ⟨o, by omega, e, by omega, r, by omega, h⟩

/-- A buffer shaped without holes is laid out. -/
theorem laidOut_of_right
    (h : Shaped holesOk buf.numEntries buf.readyNumEntries buf.categoryAt)
    (hright : Zones.Right buf.numEntries fun i => buf.categoryAt i = .reserved) :
    buf.LaidOut := by
  have hlow := buf.neg_one_le_getLastNonReserved
  have hhigh := buf.getLastNonReserved_lt
  have hle := buf.getFirstNonOccupied_le
  obtain ⟨l, hl⟩ : ∃ l : Nat, buf.getLastNonReserved + 1 = l :=
    ⟨(buf.getLastNonReserved + 1).toNat, by omega⟩
  -- an occupied slot is not reserved, so the occupied segment ends before `l`
  have hfl : buf.getFirstNonOccupied ≤ l := by
    by_contra hlt
    have hocc := buf.occupied_of_lt_first (i := l) (by omega)
    have hres := buf.reserved_of_last_lt (i := l) (by omega) (by omega)
    rw [hocc] at hres
    cases hres
  refine ⟨buf.getFirstNonOccupied, l - buf.getFirstNonOccupied, buf.numEntries - l, ?_⟩
  refine List.ext_getElem (by simp [buf.length_entries]; omega) fun i hi hi' => ?_
  have hlen : i < buf.entries.length := by simpa using hi
  have hnum : i < buf.numEntries := by rw [← buf.length_entries]; exact hlen
  have hcat : (buf.entries.map Entry.category)[i] = buf.categoryAt i := by
    unfold categoryAt
    rw [List.getElem_map, entryAt_eq_getElem _ hlen]
  rw [hcat]
  simp only [List.getElem_append, List.length_append, List.length_replicate,
    List.getElem_replicate]
  split
  · split
    · exact buf.occupied_of_lt_first ‹_›
    · rename_i hil hif
      -- between the boundaries neither segment reaches the slot
      cases hc : buf.categoryAt i with
      | empty => rfl
      | reserved =>
          obtain ⟨j, hj⟩ : ∃ j : Nat, buf.getLastNonReserved = j :=
            ⟨buf.getLastNonReserved.toNat, by omega⟩
          have hij : i ≤ j := by omega
          rcases Nat.eq_or_lt_of_le hij with rfl | hlt
          · exact absurd hc (buf.not_reserved_last hj)
          · exact absurd (hright i j hlt (by omega) hc) (buf.not_reserved_last hj)
      | occupied =>
          rcases Nat.eq_or_lt_of_le (Nat.not_lt.mp hif) with heq | hlt
          · exact absurd (heq ▸ hc) buf.not_occupied_first
          · exact absurd (h.left _ _ hlt hc) buf.not_occupied_first
  · exact buf.reserved_of_last_lt (by omega) hnum

end StalenessBuffer

end Psrl
