import Psrl.Lib.Zones
import Psrl.Staleness.Entry

/-!
# Psrl.Staleness.Buffer

One training buffer (`StalenessBuffer` in `psrl/workers/ps/staleness_controller.py`).

A buffer is a row of slots with two boundaries: the first slot that is not `OCCUPIED`
and the last one that is not `RESERVED`. Everything the inventory asks about a buffer
is read off these two, and `get_status` trusts that the slots between and beyond them
are what they should be. The lemmas here say what each boundary is, whatever the slots
hold; `Psrl.Staleness.Layout` adds the shape that makes `get_status` meaningful.
-/

namespace Psrl

open Py

/-- Status of a buffer: complete, complete with room for redundant groups, full but
waiting for reservations, or accepting new entries. -/
inductive BufferStatus
  | ready
  | stuck
  | pending
  | readyWithCapacity
  deriving Repr, DecidableEq

/-- `for status in BufferStatus`, in declaration order. -/
def BufferStatus.all : List BufferStatus := [.ready, .stuck, .pending, .readyWithCapacity]

@[simp] theorem BufferStatus.mem_all (status : BufferStatus) : status ∈ all := by
  cases status <;> simp [all]

/-- A buffer with a fixed number of slots. -/
structure StalenessBuffer where
  numEntries : Nat
  readyNumEntries : Nat
  entries : List Entry
  length_entries : entries.length = numEntries

namespace StalenessBuffer

variable (buf : StalenessBuffer)

/-- A fresh buffer, all slots `EMPTY`. -/
def new (numEntries readyNumEntries : Nat) : StalenessBuffer where
  numEntries := numEntries
  readyNumEntries := readyNumEntries
  entries := List.replicate numEntries .empty
  length_entries := List.length_replicate

/-- `self.entries[idx]`; slots outside the buffer read as `EMPTY`. -/
def entryAt (idx : Nat) : Entry := buf.entries.getD idx .empty

def categoryAt (idx : Nat) : EntryCategory := (buf.entryAt idx).category

/-- Index of the first slot that is not `OCCUPIED`, `num_entries` if all are. -/
def getFirstNonOccupied : Nat :=
  buf.entries.findIdx (fun entry => decide (entry.category ≠ .occupied))

/-- Index of the last slot that is not `RESERVED`, `-1` if all are. -/
def getLastNonReserved : Int :=
  Zones.lastBelow (fun idx => decide (buf.categoryAt idx ≠ .reserved)) buf.numEntries

/-- Indices of the `RESERVED` slots. -/
def getReservedEntryIds : List Nat :=
  (List.range buf.numEntries).filter (fun idx => buf.categoryAt idx = .reserved)

/-- Number of `RESERVED` slots. -/
def getReserveEntryNum : Nat :=
  buf.entries.countP (fun entry => entry.category = .reserved)

/-- `self.entries[idx] = entry`. -/
def setEntry (idx : Nat) (entry : Entry) : StalenessBuffer where
  numEntries := buf.numEntries
  readyNumEntries := buf.readyNumEntries
  entries := buf.entries.set idx entry
  length_entries := by rw [List.length_set]; exact buf.length_entries

/-- `insert`: write a slot, checking its index. -/
def insert (entryId : Nat) (entry : Entry) : Except PyError StalenessBuffer := do
  pyAssert (entryId < buf.numEntries)
    s!"Invalid entry ID: {entryId}. Expected range: [0, {buf.numEntries})."
  .ok (buf.setEntry entryId entry)

/-- The status read off the two boundaries of the buffer. -/
def getStatus : Except PyError BufferStatus :=
  let firstNonOccupied := buf.getFirstNonOccupied
  if firstNonOccupied = buf.readyNumEntries then
    if (buf.entries.drop buf.readyNumEntries).any (fun entry => entry.category = .empty) then
      .ok .readyWithCapacity
    else .ok .ready
  else
    let lastNonReserved := buf.getLastNonReserved
    if (firstNonOccupied : Int) = lastNonReserved + 1 then do
      pyAssert
        (((buf.entries.take firstNonOccupied).all fun entry => entry.category = .occupied) ∧
          (buf.entries.drop firstNonOccupied).all fun entry => entry.category = .reserved)
        ("STUCK buffer must have all OCCUPIED before first non-occupied and " ++
          "all RESERVED after last non-reserved")
      .ok .stuck
    else do
      pyAssert (buf.entries.any fun entry => entry.category = .empty)
        "PENDING buffer must have at least one EMPTY entry"
      .ok .pending

/-! ### Slots after a write -/

@[simp] theorem setEntry_numEntries (idx : Nat) (entry : Entry) :
    (buf.setEntry idx entry).numEntries = buf.numEntries := rfl

theorem entryAt_setEntry {idx : Nat} (h : idx < buf.numEntries) (entry : Entry) (i : Nat) :
    (buf.setEntry idx entry).entryAt i = if i = idx then entry else buf.entryAt i := by
  have hlen : idx < buf.entries.length := by rw [buf.length_entries]; exact h
  unfold entryAt setEntry
  rw [List.getD_eq_getElem?_getD, List.getD_eq_getElem?_getD, List.getElem?_set]
  by_cases hi : i = idx
  · subst hi
    simp [hlen]
  · simp [hi, Ne.symm hi]

theorem entryAt_of_le {i : Nat} (h : buf.numEntries ≤ i) : buf.entryAt i = .empty := by
  unfold entryAt
  rw [List.getD_eq_getElem?_getD, List.getElem?_eq_none (by rw [buf.length_entries]; exact h)]
  rfl

@[simp] theorem entryAt_new (n r i : Nat) : (new n r).entryAt i = .empty := by
  unfold entryAt new
  rw [List.getD_eq_getElem?_getD, List.getElem?_replicate]
  split <;> rfl

theorem entryAt_eq_getElem {i : Nat} (h : i < buf.entries.length) :
    buf.entryAt i = buf.entries[i] := by
  unfold entryAt
  rw [List.getD_eq_getElem?_getD, List.getElem?_eq_getElem h]
  rfl

theorem entryAt_of_getElem? {buf : StalenessBuffer} {i : Nat} {entry : Entry}
    (h : buf.entries[i]? = some entry) : buf.entryAt i = entry := by
  unfold entryAt
  rw [List.getD_eq_getElem?_getD, h]
  rfl

theorem getElem?_of_entryAt {buf : StalenessBuffer} {i : Nat} {entry : Entry}
    (h : buf.entryAt i = entry) (hne : entry ≠ .empty) : buf.entries[i]? = some entry := by
  unfold entryAt at h
  rw [List.getD_eq_getElem?_getD] at h
  cases hget : buf.entries[i]? with
  | none =>
      rw [hget] at h
      exact absurd h.symm hne
  | some x =>
      rw [hget] at h
      exact congrArg some h

theorem insert_eq_ok {buf buf' : StalenessBuffer} {entryId : Nat} {entry : Entry} :
    buf.insert entryId entry = .ok buf' ↔
      entryId < buf.numEntries ∧ buf' = buf.setEntry entryId entry := by
  unfold insert
  rw [bind_eq_ok]
  constructor
  · rintro ⟨u, hassert, h⟩
    cases h
    exact ⟨pyAssert_eq_ok.mp hassert, rfl⟩
  · rintro ⟨h, rfl⟩
    exact ⟨(), pyAssert_of h, rfl⟩

/-! ### The two boundaries -/

theorem occupied_of_lt_first {i : Nat}
    (h : i < buf.getFirstNonOccupied) : buf.categoryAt i = .occupied := by
  have hnot := List.not_of_lt_findIdx h
  have hlen : i < buf.entries.length := h.trans_le List.findIdx_le_length
  unfold categoryAt
  rw [entryAt_eq_getElem _ hlen]
  simpa using hnot

theorem getFirstNonOccupied_le : buf.getFirstNonOccupied ≤ buf.numEntries := by
  rw [← buf.length_entries]
  exact List.findIdx_le_length

theorem not_occupied_first : buf.categoryAt buf.getFirstNonOccupied ≠ .occupied := by
  by_cases h : buf.getFirstNonOccupied < buf.entries.length
  · have hfound := List.findIdx_getElem (w := h)
    unfold categoryAt
    rw [entryAt_eq_getElem _ h]
    exact of_decide_eq_true hfound
  · unfold categoryAt
    rw [buf.entryAt_of_le (by rw [← buf.length_entries]; omega)]
    simp

/-- The first non-`OCCUPIED` slot is the only index with `OCCUPIED` slots exactly before it. -/
theorem getFirstNonOccupied_eq {buf : StalenessBuffer} {o : Nat}
    (hlt : ∀ i, i < o → buf.categoryAt i = .occupied) (ho : buf.categoryAt o ≠ .occupied) :
    buf.getFirstNonOccupied = o := by
  rcases Nat.lt_trichotomy buf.getFirstNonOccupied o with h | h | h
  · exact absurd (hlt _ h) buf.not_occupied_first
  · exact h
  · exact absurd (buf.occupied_of_lt_first h) ho

theorem reserved_of_last_lt {i : Nat} (h : buf.getLastNonReserved < i) (hi : i < buf.numEntries) :
    buf.categoryAt i = .reserved := by
  simpa using Zones.not_of_lastBelow_lt h hi

theorem not_reserved_last {i : Nat} (h : buf.getLastNonReserved = i) :
    buf.categoryAt i ≠ .reserved := by
  simpa using Zones.lastBelow_spec h

theorem le_last_of_not_reserved {i : Nat} (hi : i < buf.numEntries)
    (h : buf.categoryAt i ≠ .reserved) : (i : Int) ≤ buf.getLastNonReserved :=
  Zones.le_lastBelow hi (by simpa using h)

theorem getLastNonReserved_lt : buf.getLastNonReserved < buf.numEntries := Zones.lastBelow_lt _

theorem neg_one_le_getLastNonReserved : -1 ≤ buf.getLastNonReserved := Zones.neg_one_le_lastBelow _

variable {buf} {buf' : StalenessBuffer} {k : Nat} {c : EntryCategory}

/-- Some slot from `k` on has category `c`. -/
theorem any_drop_iff : ((buf.entries.drop k).any fun entry => entry.category = c) = true ↔
      ∃ i, k ≤ i ∧ i < buf.numEntries ∧ buf.categoryAt i = c := by
  rw [List.any_eq_true]
  constructor
  · rintro ⟨entry, hmem, hc⟩
    obtain ⟨i, hi, rfl⟩ := List.mem_drop_iff_getElem.mp hmem
    refine ⟨k + i, by omega, by rw [← buf.length_entries]; omega, ?_⟩
    unfold categoryAt
    rw [entryAt_eq_getElem _ (by omega)]
    exact of_decide_eq_true hc
  · rintro ⟨i, hki, hi, hc⟩
    have hlen : i < buf.entries.length := by rw [buf.length_entries]; exact hi
    refine ⟨buf.entries[i], List.mem_drop_iff_getElem.mpr ⟨i - k, by omega, ?_⟩, ?_⟩
    · congr 1
      omega
    · unfold categoryAt at hc
      rw [entryAt_eq_getElem _ hlen] at hc
      exact decide_eq_true hc

theorem any_iff : (buf.entries.any fun entry => entry.category = c) = true ↔
      ∃ i, i < buf.numEntries ∧ buf.categoryAt i = c := by
  have h : ((buf.entries.drop 0).any fun entry => entry.category = c) = true ↔ _ := any_drop_iff
  simpa using h

theorem all_take (h : ∀ i, i < k → buf.categoryAt i = c) :
    ((buf.entries.take k).all fun entry => entry.category = c) = true := by
  rw [List.all_eq_true]
  intro entry hmem
  obtain ⟨i, hi, rfl⟩ := List.mem_take_iff_getElem.mp hmem
  have hc := h i (by omega)
  unfold categoryAt at hc
  rw [entryAt_eq_getElem _ (by omega)] at hc
  exact decide_eq_true hc

theorem all_drop (h : ∀ i, k ≤ i → i < buf.numEntries → buf.categoryAt i = c) :
    ((buf.entries.drop k).all fun entry => entry.category = c) = true := by
  rw [List.all_eq_true]
  intro entry hmem
  obtain ⟨i, hi, rfl⟩ := List.mem_drop_iff_getElem.mp hmem
  have hc := h (k + i) (by omega) (by rw [← buf.length_entries]; omega)
  unfold categoryAt at hc
  rw [entryAt_eq_getElem _ (by omega)] at hc
  exact decide_eq_true hc

/-! ### Only categories count -/

theorem map_category_congr (hnum : buf'.numEntries = buf.numEntries)
    (hcat : buf'.categoryAt = buf.categoryAt) :
    buf'.entries.map Entry.category = buf.entries.map Entry.category := by
  refine List.ext_getElem (by simp [length_entries, hnum]) fun i hi hi' => ?_
  have hc := congrFun hcat i
  unfold categoryAt at hc
  rw [entryAt_eq_getElem _ (by simpa using hi), entryAt_eq_getElem _ (by simpa using hi')] at hc
  simpa using hc

theorem getFirstNonOccupied_congr (hcat : buf'.categoryAt = buf.categoryAt) :
    buf'.getFirstNonOccupied = buf.getFirstNonOccupied :=
  getFirstNonOccupied_eq (fun i hi => by rw [hcat]; exact buf.occupied_of_lt_first hi)
    (by rw [hcat]; exact buf.not_occupied_first)

theorem getLastNonReserved_congr (hnum : buf'.numEntries = buf.numEntries)
    (hcat : buf'.categoryAt = buf.categoryAt) :
    buf'.getLastNonReserved = buf.getLastNonReserved := by
  unfold getLastNonReserved
  rw [hnum, hcat]

/-- `get_status` is a function of the categories. -/
theorem getStatus_congr (hnum : buf'.numEntries = buf.numEntries)
    (hready : buf'.readyNumEntries = buf.readyNumEntries)
    (hcat : buf'.categoryAt = buf.categoryAt) : buf'.getStatus = buf.getStatus := by
  have hmap := map_category_congr hnum hcat
  have hany : ∀ (c : EntryCategory) (k : Nat),
      ((buf'.entries.drop k).any fun entry => entry.category = c) =
        (buf.entries.drop k).any fun entry => entry.category = c := by
    intro c k
    have h := congrArg (fun l => (l.drop k).any fun x => decide (x = c)) hmap
    simpa only [← List.map_drop, List.any_map, Function.comp_def] using h
  have htake : ∀ (c : EntryCategory) (k : Nat),
      ((buf'.entries.take k).all fun entry => entry.category = c) =
        (buf.entries.take k).all fun entry => entry.category = c := by
    intro c k
    have h := congrArg (fun l => (l.take k).all fun x => decide (x = c)) hmap
    simpa only [← List.map_take, List.all_map, Function.comp_def] using h
  have hdrop : ∀ (c : EntryCategory) (k : Nat),
      ((buf'.entries.drop k).all fun entry => entry.category = c) =
        (buf.entries.drop k).all fun entry => entry.category = c := by
    intro c k
    have h := congrArg (fun l => (l.drop k).all fun x => decide (x = c)) hmap
    simpa only [← List.map_drop, List.all_map, Function.comp_def] using h
  have hany0 : (buf'.entries.any fun entry => entry.category = .empty) =
      buf.entries.any fun entry => entry.category = .empty := by
    simpa using hany .empty 0
  unfold getStatus
  simp only [getFirstNonOccupied_congr hcat, getLastNonReserved_congr hnum hcat, hready, hany,
    htake, hdrop, hany0]

end StalenessBuffer

end Psrl
