import Mathlib.Order.Bounds.Basic
import Psrl.Staleness.Alignment
import Psrl.Staleness.RedundantRuns

/-!
# Psrl.Staleness.Admission

Does `reserve_data` keep what `can_reserve_data` promised?

The router asks first and reserves later, in two calls that compute their candidates by different
code. What the second one needs of the inventory is little: its tracker and its cached
statuses are exact, and the finished groups of every buffer are at its left end. Every call
keeps that (`Filled`), whatever became of the layout on the right, as long as nobody clears a
finished group as a reservation.

The two calls then agree for every bound but `0`, which `reserve_data` takes for a missing one.
-/

namespace Psrl

open Py

namespace StalenessBuffer

open Layout

/-- With the finished groups at the left, the status is defined and says whether a slot is
`EMPTY`. -/
theorem getStatus_of_left {buf : StalenessBuffer}
    (hleft : Zones.Left fun i => buf.categoryAt i = .occupied) :
    ∃ s, buf.getStatus = .ok s ∧
      ((s = .pending ∨ s = .readyWithCapacity) ↔ HasEmpty buf.numEntries buf.categoryAt) := by
  have hnot : ∀ i, i < buf.getFirstNonOccupied → buf.categoryAt i ≠ .empty := fun i hi => by
    rw [buf.occupied_of_lt_first hi]
    simp
  rw [getStatus]
  split
  · rename_i hready
    have hany : ((buf.entries.drop buf.readyNumEntries).any
        fun entry => entry.category = .empty) = true ↔ HasEmpty buf.numEntries buf.categoryAt := by
      rw [any_drop_iff]
      refine ⟨fun ⟨i, _, hi, hc⟩ => ⟨i, hi, hc⟩, fun ⟨i, hi, hc⟩ => ⟨i, ?_, hi, hc⟩⟩
      by_contra hlt
      exact hnot i (by omega) hc
    split
    · rename_i hempty
      exact ⟨_, rfl, iff_of_true (.inr rfl) (hany.mp hempty)⟩
    · rename_i hempty
      exact ⟨_, rfl, iff_of_false (by simp) (mt hany.mpr hempty)⟩
  · dsimp only
    split
    · rename_i hbound
      refine ⟨.stuck, ?_, iff_of_false (by simp) ?_⟩
      · rw [pyAssert_of ⟨all_take fun i hi => buf.occupied_of_lt_first hi,
          all_drop fun i hle hi => buf.reserved_of_last_lt (by omega) hi⟩, ok_bind]
      · rintro ⟨i, hi, hc⟩
        have hres := buf.reserved_of_last_lt (i := i) (by
          by_contra hle
          exact hnot i (by omega) hc) hi
        rw [hc] at hres
        cases hres
    · rename_i hbound
      -- the last slot that is not reserved lies behind the finished groups
      have hle : (buf.getFirstNonOccupied : Int) ≤ buf.getLastNonReserved := by
        by_contra hlt
        have hlow := buf.neg_one_le_getLastNonReserved
        have hfirst := buf.getFirstNonOccupied_le
        have hres := buf.reserved_of_last_lt (i := (buf.getLastNonReserved + 1).toNat)
          (by omega) (by omega)
        rw [buf.occupied_of_lt_first (by omega)] at hres
        cases hres
      have hlast : buf.getLastNonReserved = (buf.getLastNonReserved.toNat : Int) := by omega
      have hempty : HasEmpty buf.numEntries buf.categoryAt := by
        have hlt := buf.getLastNonReserved_lt
        refine ⟨buf.getLastNonReserved.toNat, by omega, ?_⟩
        cases hc : buf.categoryAt buf.getLastNonReserved.toNat with
        | empty => rfl
        | reserved => exact absurd hc (buf.not_reserved_last hlast)
        | occupied =>
            have := StalenessInventory.occupied_lt_first hleft hc
            omega
      refine ⟨.pending, ?_, iff_of_true (.inl rfl) hempty⟩
      rw [pyAssert_of (any_iff.mpr hempty), ok_bind]

end StalenessBuffer

namespace StalenessInventory

open Layout

variable {inv inv1 inv' : StalenessInventory} {staleness : Nat} {bid : Int}

/-! ### Calls -/

/-- The calls of a training inventory. -/
inductive Call
  | ensureBufferExists (maxStalenessBufferId : Int)
  | canReserve (promptId : Nat) (modelVersion : Int)
  | reserve (req : RequestInfo) (maxStalenessBufferId : Int)
  | updateVersionTag (requestId : Nat) (newVersionTag : Int)
  | updateInstanceId (requestId : Nat) (newInstanceId : RolloutInstanceId)
  | updateNTrajectory (requestId nTrajectory : Nat)
  | dropRequests (promptId : Nat) (abortRequestIdxs : List Nat)
  | clearReserved (promptIds : List Nat) (moveAcrossBuffer : Bool)
  | clearOccupied (promptIds : List Nat)
  | moveOccupied (entryInfos : List EntryInfo) (bid : Int)
  | markForDeletion (bid : Int)
  | delete (bid : Int)
  | occupy (order : SetOrder Int) (promptId : Nat)

/-- Perform a call. -/
def call (inv : StalenessInventory) : Call → Except PyError StalenessInventory
  | .ensureBufferExists maxId => inv.ensureBufferExists (some maxId)
  | .canReserve promptId modelVersion => do
      let (_, inv) ← inv.canReserveData promptId modelVersion
      .ok inv
  | .reserve req maxId => do
      let (_, inv) ← inv.reserveData req (some maxId)
      .ok inv
  | .updateVersionTag requestId new => inv.updateRequestVersionTag requestId new
  | .updateInstanceId requestId new => inv.updateRequestInstanceId requestId new
  | .updateNTrajectory requestId new => inv.updateRequestNTrajectory requestId new
  | .dropRequests promptId aborts => inv.dropRequests promptId aborts
  | .clearReserved promptIds across => inv.clearReservedEntries promptIds across
  | .clearOccupied promptIds => inv.clearOccupiedEntries promptIds
  | .moveOccupied infos bid => inv.moveOccupiedEntries infos bid
  | .markForDeletion bid => inv.markBufferForDeletion bid
  | .delete bid => inv.deleteBuffer bid
  | .occupy order promptId => do
      let (_, inv) ← inv.occupyDataWithReserve order promptId
      .ok inv

/-- What is cleared or occupied as a reservation is not finished yet. -/
def Proper (inv : StalenessInventory) : Call → Prop
  | .clearReserved promptIds _ => ∀ p ∈ promptIds, inv.promptCategory p ≠ some .occupied
  | .occupy _ promptId => inv.promptCategory promptId = some .reserved
  | _ => True

instance (inv : StalenessInventory) (c : Call) : Decidable (inv.Proper c) := by
  cases c <;> unfold Proper <;> infer_instance

/-! ### What every call keeps -/

/-- Tracker and cache are exact, and the finished groups of every buffer are at its left. -/
structure Filled (staleness : Nat) (inv : StalenessInventory) : Prop where
  training : inv.toInventoryConfig.Training staleness
  consistent : inv.Consistent
  left : inv.LeftFilled

theorem Filled.of_keeps {extra : EntryInfo → Prop} (h : Filled staleness inv)
    (hkeeps : Keeps extra inv inv') (hleft : inv'.LeftFilled) : Filled staleness inv' :=
  ⟨by rw [hkeeps.config]; exact h.training, hkeeps.consistent, hleft⟩

theorem Filled.of_grown (h : Filled staleness inv) (hc : inv'.Consistent) (hg : Grown inv inv') :
    Filled staleness inv' :=
  ⟨by rw [hg.config]; exact h.training, hc, h.left.of_slot hg.slot⟩

theorem Filled.of_rewritten {loc : Int × Nat} {info info' : EntryInfo} (h : Filled staleness inv)
    (hr : Rewritten inv inv' loc info info') : Filled staleness inv' :=
  ⟨by rw [hr.edit.config]; exact h.training, hr.consistent h.consistent,
    h.left.of_row fun b e => by rw [hr.row]⟩

theorem Filled.updateRequest (h : Filled staleness inv) {requestId : Nat}
    {update : EntryInfo → Nat → Except PyError EntryInfo}
    (hid : ∀ info idx info', update info idx = .ok info' → info'.promptId = info.promptId)
    (hcall : inv.updateRequest requestId update = .ok inv') : Filled staleness inv' := by
  obtain ⟨loc, info, info', hr, -⟩ := h.consistent.updateRequest hid hcall
  exact h.of_rewritten hr

theorem Filled.of_reserve {req : RequestInfo} {r : Option (Int × Nat)} (h : Filled staleness inv)
    (hc : inv'.Consistent) (hconfig : inv'.toInventoryConfig = inv.toInventoryConfig)
    (heffect : ReserveEffect inv inv' req r) : Filled staleness inv' := by
  refine ⟨by rw [hconfig]; exact h.training, hc, ?_⟩
  cases heffect with
  | refused hgrown => exact h.left.of_slot hgrown.slot
  | fresh loc hnew hfree hslot =>
      refine h.left.of_row fun b e => ?_
      rw [row_eq, row_eq, hslot, Function.update_apply]
      split
      · rename_i heq
        rw [heq, hfree]
        simp [Entry.category]
      · rfl
  | joined loc info hinfo hp hslot =>
      refine h.left.of_row fun b e => ?_
      rw [row_eq, row_eq, hslot, Function.update_apply]
      split
      · rename_i heq
        rw [heq, Entry.category_setInfo]
      · rfl

theorem filled_new {config : InventoryConfig} (ht : config.Training staleness) :
    Filled staleness (new config) := by
  have hg := good_new True ht
  exact ⟨hg.training, hg.consistent, fun b => (hg.orderly.shaped b).left⟩

theorem Filled.call (h : Filled staleness inv) {c : Call} (hproper : inv.Proper c)
    (hcall : inv.call c = .ok inv') : Filled staleness inv' := by
  cases c with
  | ensureBufferExists maxId =>
      have hcall : inv.ensureBufferExists (some maxId) = .ok inv' := hcall
      obtain ⟨hc, hgrown⟩ := h.consistent.ensureBufferExists hcall
      exact h.of_grown hc hgrown
  | canReserve promptId v =>
      obtain ⟨⟨r, inv1⟩, hok, heq⟩ := bind_eq_ok.mp hcall
      cases heq
      obtain ⟨hc, hgrown⟩ := h.consistent.canReserveData hok
      exact h.of_grown hc hgrown
  | reserve req maxId =>
      obtain ⟨⟨r, inv1⟩, hok, heq⟩ := bind_eq_ok.mp hcall
      cases heq
      obtain ⟨hc, hconfig, heffect, -⟩ := h.consistent.reserveData hok
      exact h.of_reserve hc hconfig heffect
  | updateVersionTag requestId new =>
      have hcall : inv.updateRequestVersionTag requestId new = .ok inv' := hcall
      refine h.updateRequest (fun info idx info' hupd => ?_) hcall
      obtain ⟨mv, -, hupd⟩ := bind_eq_ok.mp hupd
      cases hupd
      rfl
  | updateInstanceId requestId new =>
      have hcall : inv.updateRequestInstanceId requestId new = .ok inv' := hcall
      refine h.updateRequest (fun info idx info' hupd => ?_) hcall
      obtain ⟨id, -, hupd⟩ := bind_eq_ok.mp hupd
      cases hupd
      rfl
  | updateNTrajectory requestId new =>
      have hcall : inv.updateRequestNTrajectory requestId new = .ok inv' := hcall
      refine h.updateRequest (fun info idx info' hupd => ?_) hcall
      obtain ⟨n, -, hupd⟩ := bind_eq_ok.mp hupd
      cases hupd
      rfl
  | dropRequests promptId aborts =>
      obtain ⟨loc, info, info', hr, -⟩ := h.consistent.dropRequests hcall
      exact h.of_rewritten hr
  | clearReserved promptIds across =>
      obtain ⟨hkeeps, -, hocc⟩ : Keeps (fun _ => True) inv inv' ∧ _ :=
        h.consistent.clearAny hcall
      exact h.of_keeps hkeeps (h.left.of_occupiedBut h.consistent.wf hocc hproper)
  | clearOccupied promptIds =>
      obtain ⟨hc, hall, -, hleft⟩ := h.consistent.clearOccupiedEntries hcall
      have hkeeps : Keeps (fun _ => True) inv inv' := hall.keeps hc
      exact h.of_keeps hkeeps (hleft h.left)
  | moveOccupied infos bid =>
      obtain ⟨hkeeps, hleft⟩ := h.consistent.moveOccupiedEntries hcall
      exact h.of_keeps hkeeps (hleft h.left)
  | markForDeletion bid =>
      obtain ⟨hkeeps, hslot⟩ : Keeps (fun _ => True) inv inv' ∧ _ :=
        h.consistent.markBufferForDeletion hcall
      exact h.of_keeps hkeeps (h.left.of_slot hslot)
  | delete bid =>
      obtain ⟨hkeeps, hslot⟩ : Keeps (fun _ => True) inv inv' ∧ _ :=
        h.consistent.deleteBuffer hcall
      refine h.of_keeps hkeeps fun b i j hij hj => ?_
      have hrow : ∀ e, inv'.row b e = if b = bid then .empty else inv.row b e := by
        intro e
        rw [row_eq, row_eq, hslot]
        dsimp only
        split <;> rfl
      dsimp only at hj ⊢
      rw [hrow] at hj ⊢
      split at hj
      · cases hj
      · rename_i hne
        rw [if_neg hne]
        exact h.left b i j hij hj
  | occupy order promptId =>
      obtain ⟨⟨r, inv1⟩, hok, heq⟩ := bind_eq_ok.mp hcall
      cases heq
      obtain ⟨hkeeps, hleft⟩ : Keeps (fun _ => True) inv inv' ∧ _ :=
        h.consistent.occupyDataWithReserve hok
      exact h.of_keeps hkeeps (hleft hproper h.left)

/-! ### The two calls -/

theorem Filled.status (h : Filled staleness inv) {buffer : StalenessBuffer}
    (hget : inv.buffers.get? bid = some buffer) : ∃ s, buffer.getStatus = .ok s ∧
      ((s = .pending ∨ s = .readyWithCapacity) ↔ HasEmpty inv.numEntries (inv.row bid)) := by
  rw [← (h.consistent.wf.sized _ _ hget).1, row_of_get? hget]
  refine StalenessBuffer.getStatus_of_left ?_
  rw [← row_of_get? hget]
  exact h.left bid

/-- The cached set of buffers with capacity is the set of buffers with an `EMPTY` slot. -/
theorem Filled.mem_withCapacity (h : Filled staleness inv) :
    bid ∈ inv.getBuffersWithCapacity ↔
      inv.HasBuffer bid ∧ HasEmpty inv.numEntries (inv.row bid) := by
  have hcached := h.consistent.cached
  rw [getBuffersWithCapacity, Finset.mem_union]
  constructor
  · intro hmem
    obtain ⟨buffer, hget⟩ : inv.HasBuffer bid :=
      hmem.elim (hcached.has bid _) (hcached.has bid _)
    obtain ⟨s, hs, hiff⟩ := h.status hget
    have hexact := hcached.exact bid (Set.notMem_empty _) buffer hget
    refine ⟨⟨buffer, hget⟩, hiff.mp ?_⟩
    rw [hexact, hexact, hs] at hmem
    exact hmem.imp Except.ok.inj Except.ok.inj
  · rintro ⟨⟨buffer, hget⟩, hempty⟩
    obtain ⟨s, hs, hiff⟩ := h.status hget
    have hexact := hcached.exact bid (Set.notMem_empty _) buffer hget
    rw [hexact, hexact, hs]
    exact (hiff.mpr hempty).imp (congrArg _) (congrArg _)

/-- A buffer with an `EMPTY` slot has one before the reservations at its end. -/
theorem Filled.lastNonReserved (h : Filled staleness inv) {buffer : StalenessBuffer}
    (hget : inv.buffers.get? bid = some buffer) (hempty : HasEmpty inv.numEntries (inv.row bid)) :
    ∃ k : Nat, buffer.getLastNonReserved = k ∧ k < inv.numEntries ∧
      buffer.categoryAt k = .empty := by
  obtain ⟨hnum, -⟩ := h.consistent.wf.sized _ _ hget
  have hleft := h.left bid
  rw [row_of_get? hget] at hempty hleft
  obtain ⟨i, hi, hcat⟩ := hempty
  have hle := buffer.le_last_of_not_reserved (i := i) (by omega) (by rw [hcat]; simp)
  have hlt := buffer.getLastNonReserved_lt
  have hk : buffer.getLastNonReserved = buffer.getLastNonReserved.toNat := by omega
  refine ⟨buffer.getLastNonReserved.toNat, hk, by omega, ?_⟩
  cases hc : buffer.categoryAt buffer.getLastNonReserved.toNat with
  | empty => rfl
  | reserved => exact absurd hc (buffer.not_reserved_last hk)
  | occupied =>
      have hfirst := occupied_lt_first hleft hc
      have hocc := buffer.occupied_of_lt_first (i := i) (by omega)
      rw [hcat] at hocc
      cases hocc

/-- Reserving in some buffers with capacity takes an `EMPTY` slot of the last of them. -/
theorem Filled.reserveIn (h : Filled staleness inv) {req : RequestInfo} {ids : Finset Int}
    (hnew : inv.dataTracker.get? req.promptId = none) (hne : ids.Nonempty)
    (hids : ids ⊆ inv.getBuffersWithCapacity) :
    ∃ loc inv', inv.reserveIn req ids = .ok (some loc, inv') ∧ IsGreatest (ids : Set Int) loc.1 ∧
      inv.HasBuffer loc.1 ∧ loc.2 < inv.numEntries ∧ inv.slot loc = .empty := by
  obtain ⟨t, ht⟩ : ∃ t, setMax ids = some t :=
    Option.ne_none_iff_exists'.mp (mt setMax_eq_none.mp hne.ne_empty)
  obtain ⟨hmem, hmax⟩ := setMax_eq_some.mp ht
  obtain ⟨⟨buffer, hget⟩, hempty⟩ := h.mem_withCapacity.mp (hids hmem)
  obtain ⟨k, hk, hlt, hcat⟩ := h.lastNonReserved hget hempty
  have hfree : inv.slot (t, k) = .empty := by
    rw [slot_of_get? hget]
    exact Entry.category_eq_empty_iff.mp hcat
  obtain ⟨inv1, hplace⟩ : ∃ inv1,
      inv.place req.promptId t k (.reserved req.toEntryInfo) = .ok inv1 :=
    place_ok _ h.consistent.wf.sized ⟨buffer, hget⟩ hlt
  obtain ⟨hw1, _, hedit⟩ := h.consistent.wf.place hfree hnew rfl hplace
  have hleft : inv1.LeftFilled := h.left.of_row fun b e => by
    rw [row_eq, row_eq, hedit.slot, Function.update_apply]
    split
    · rename_i heq
      rw [heq, hfree]
      simp [Entry.category]
    · rfl
  obtain ⟨inv', hok⟩ : ∃ inv', inv1.updateBufferStatus t = .ok inv' := by
    refine updateBufferStatus_ok fun buffer' hget' => ?_
    have hleft' : Zones.Left fun i => buffer'.categoryAt i = .occupied := by
      rw [← row_of_get? hget']
      exact hleft t
    obtain ⟨s, hs, -⟩ := StalenessBuffer.getStatus_of_left hleft'
    exact ⟨s, hs⟩
  refine ⟨(t, k), inv', ?_, ⟨hmem, hmax⟩, ⟨buffer, hget⟩, hlt, hfree⟩
  rw [StalenessInventory.reserveIn, ht]
  simp only [Dict.get_eq_ok.mpr hget, ok_bind, hk, Int.toNat_natCast]
  rw [pyAssert_of ⟨by omega, hcat⟩, ok_bind, hplace, ok_bind, hok, ok_bind]

/-- The buffers up to a bound are created once. -/
theorem ensureBufferExists_ensured (htrain : inv.isValidate = false) {maxId : Int}
    (hid : maxId < inv.bufferId) : inv.ensureBufferExists (some maxId) = .ok inv := by
  have hrange : Int.range inv.bufferId (maxId + 1) = [] := by
    rw [Int.range, show (maxId + 1 - inv.bufferId).toNat = 0 by omega]
    rfl
  rw [StalenessInventory.ensureBufferExists, htrain]
  simp only [Bool.false_eq_true, if_false, hrange]
  rfl

/-- The buffers a prompt of version `v` may go to. -/
def Admissible (inv : StalenessInventory) (v : Int) (staleness : Nat) (b : Int) : Prop :=
  (v ≤ b ∧ b ≤ v + staleness) ∧ (inv.HasBuffer b ∧ HasEmpty inv.numEntries (inv.row b)) ∧
    b ∉ inv.readyForDeleteBufferIds

/-- Both calls begin by creating the buffers of the window. -/
structure Ensured (inv inv1 : StalenessInventory) (promptId : Nat) (v : Int) (staleness : Nat) :
    Prop where
  filled : Filled staleness inv1
  grown : Grown inv inv1
  bufferId : inv1.bufferId = max inv.bufferId (v + staleness + 1)
  untracked : inv1.dataTracker.get? promptId = none
  can : inv.canReserveData promptId v = .ok (decide (inv1.getBuffersWithCapacity.filter fun bid =>
    (v ≤ bid ∧ bid ≤ v + (staleness : Nat)) ∧ bid ∉ inv1.readyForDeleteBufferIds).Nonempty, inv1)
  reserve : ∀ (base : StalenessInventory), base = inv ∨ base = inv1 → ∀ (req : RequestInfo),
    req.promptId = promptId → base.reserveData req (some (v + staleness)) = do
      let ids ← inv1.reserveCandidates (some (v + staleness))
      inv1.reserveIn req ids

theorem Filled.ensured (h : Filled staleness inv) {promptId : Nat}
    (hnew : inv.dataTracker.get? promptId = none) (v : Int) :
    ∃ inv1, Ensured inv inv1 promptId v staleness := by
  obtain ⟨inv1, hok, hw1, hc1, hgrown, hid⟩ := h.consistent.wf.ensureBufferExists
    h.consistent.cached h.training.train (v + staleness)
  have h1 : Filled staleness inv1 := h.of_grown ⟨hw1, hc1⟩ hgrown
  have hnew1 : inv1.dataTracker.get? promptId = none := by
    rw [hgrown.tracker]
    exact hnew
  have hok1 : inv1.ensureBufferExists (some (v + staleness)) = .ok inv1 :=
    ensureBufferExists_ensured h1.training.train (by omega)
  refine ⟨inv1, h1, hgrown, hid, hnew1, ?_, fun base hbase req hreq => ?_⟩
  · rw [StalenessInventory.canReserveData, hnew, h.training.stale]
    simp only [Option.getD_some, hok, ok_bind]
  · obtain ⟨htracked, htrain, hbaseok⟩ : base.dataTracker.get? req.promptId = none ∧
        base.isValidate = false ∧ base.ensureBufferExists (some (v + staleness)) = .ok inv1 := by
      rw [hreq]
      obtain rfl | rfl := hbase
      · exact ⟨hnew, h.training.train, hok⟩
      · exact ⟨hnew1, h1.training.train, hok1⟩
    rw [reserveData, htracked]
    simp only [htrain, Bool.false_eq_true, if_false, reserveNew, ne_eq, reduceCtorEq,
      not_false_eq_true, pyAssert_of, ok_bind, hbaseok]

theorem Filled.mem_candidates (h : Filled staleness inv1) {v : Int} {b : Int} :
    (b ∈ inv1.getBuffersWithCapacity.filter fun bid =>
      (v ≤ bid ∧ bid ≤ v + (staleness : Nat)) ∧ bid ∉ inv1.readyForDeleteBufferIds) ↔
      inv1.Admissible v staleness b := by
  rw [Finset.mem_filter, h.mem_withCapacity, Admissible]
  tauto

/-- The two calls agree on a fresh prompt: `reserve_data`, on the inventory before the question or
after it, returns a slot exactly if `can_reserve_data` said so, an `EMPTY` one of the
last admissible buffer, and otherwise returns `(None, None)` and changes no slot. -/
def Agree (inv : StalenessInventory) (req : RequestInfo) (v : Int) (staleness : Nat) : Prop :=
  ∃ can inv1 r inv', inv.canReserveData req.promptId v = .ok (can, inv1) ∧
    inv.reserveData req (some (v + staleness)) = .ok (r, inv') ∧
    inv1.reserveData req (some (v + staleness)) = .ok (r, inv') ∧
    (can = true ↔ r ≠ none) ∧
    (∀ loc, r = some loc → inv1.slot loc = .empty ∧ loc.2 < inv1.numEntries ∧
      IsGreatest {b | inv1.Admissible v staleness b} loc.1) ∧
    (r = none → inv'.slot = inv.slot ∧ inv'.dataTracker = inv.dataTracker)

theorem Ensured.agree {req : RequestInfo} {v : Int}
    (h : Ensured inv inv1 req.promptId v staleness) {ids : Finset Int}
    (hcand : inv1.reserveCandidates (some (v + staleness)) = .ok ids)
    (hids : ∀ b, b ∈ ids ↔ inv1.Admissible v staleness b) : inv.Agree req v staleness := by
  have hreserve := fun base hbase => (h.reserve base hbase req rfl).trans (by rw [hcand, ok_bind])
  have hset : (ids : Set Int) = {b | inv1.Admissible v staleness b} := Set.ext hids
  have hcan : (inv1.getBuffersWithCapacity.filter fun bid =>
      (v ≤ bid ∧ bid ≤ v + (staleness : Nat)) ∧ bid ∉ inv1.readyForDeleteBufferIds) = ids :=
    Finset.ext fun b => h.filled.mem_candidates.trans (hids b).symm
  have hsub : ids ⊆ inv1.getBuffersWithCapacity := hcan ▸ Finset.filter_subset ..
  by_cases hne : ids.Nonempty
  · obtain ⟨loc, inv', hok, hmax, -, hlt, hfree⟩ := h.filled.reserveIn h.untracked hne hsub
    refine ⟨true, inv1, some loc, inv', ?_, (hreserve inv (.inl rfl)).trans hok,
      (hreserve inv1 (.inr rfl)).trans hok, by simp, fun loc' heq => ?_, nofun⟩
    · rw [h.can, hcan, decide_eq_true hne]
    · obtain rfl := Option.some.inj heq
      exact ⟨hfree, hlt, hset ▸ hmax⟩
  · have hnone : inv1.reserveIn req ids = .ok (none, inv1) := by
      rw [StalenessInventory.reserveIn,
        setMax_eq_none.mpr (Finset.not_nonempty_iff_eq_empty.mp hne)]
    refine ⟨false, inv1, none, inv1, ?_, (hreserve inv (.inl rfl)).trans hnone,
      (hreserve inv1 (.inr rfl)).trans hnone, by simp, nofun,
      fun _ => ⟨h.grown.slot, h.grown.tracker⟩⟩
    rw [h.can, hcan, decide_eq_false hne]

/-- The candidates of a bound that is not `0` are the admissible buffers. -/
theorem Ensured.reserveCandidates {promptId : Nat} {v : Int}
    (h : Ensured inv inv1 promptId v staleness) (hne : v + staleness ≠ 0) :
    ∃ ids, inv1.reserveCandidates (some (v + staleness)) = .ok ids ∧
      ∀ b, b ∈ ids ↔ inv1.Admissible v staleness b := by
  have hstale : inv1.getStaleness = .ok staleness := by
    rw [getStaleness, h.filled.training.stale]
  refine ⟨_, by rw [StalenessInventory.reserveCandidates, if_neg hne, hstale, ok_bind],
    fun b => ?_⟩
  rw [← h.filled.mem_candidates, Finset.mem_filter, Finset.mem_filter]
  refine and_congr_right fun _ => and_congr_left fun _ => and_congr_left fun _ => ?_
  omega

/-- Buffer 0 is the only one with capacity once it exists. -/
theorem Ensured.zero_iff {promptId : Nat} {v : Int} (h : Ensured inv inv1 promptId v staleness)
    (hf : Filled staleness inv) (hzero : v + staleness = 0) :
    (inv1.getBuffersWithCapacity = {0} ∧ 0 ∉ inv1.readyForDeleteBufferIds) ↔
      inv.bufferId = 0 ∨
        inv.getBuffersWithCapacity = {0} ∧ 0 ∉ inv.readyForDeleteBufferIds := by
  have hw := hf.consistent.wf
  have hid := h.bufferId
  rw [h.grown.marks]
  by_cases hnone : inv.bufferId = 0
  · -- there was no buffer yet
    have hno : ∀ b, ¬inv.HasBuffer b := fun b hb => by
      have := hw.ids b hb
      omega
    refine iff_of_true ⟨Finset.ext fun b => ?_, fun hmem => hno 0 (hw.marked 0 hmem)⟩ (.inl hnone)
    rw [h.filled.mem_withCapacity, Finset.mem_singleton, h.grown.has]
    constructor
    · rintro ⟨hb | hb, -⟩
      · exact absurd hb (hno b)
      · omega
    · rintro rfl
      refine ⟨.inr (by omega), 0, ?_, ?_⟩
      · exact Nat.lt_of_lt_of_le h.filled.training.pos h.filled.training.le
      · rw [row_eq, h.grown.slot, slot_of_not_hasBuffer (hno 0)]
        rfl
  · have hsame : inv1.getBuffersWithCapacity = inv.getBuffersWithCapacity := by
      have hnonneg := hw.nonneg
      refine Finset.ext fun b => ?_
      have hrow : inv1.row b = inv.row b := funext fun e => by rw [row_eq, row_eq, h.grown.slot]
      rw [h.filled.mem_withCapacity, hf.mem_withCapacity, h.grown.config, hrow, h.grown.has]
      refine and_congr_left fun _ => or_iff_left fun hb => ?_
      omega
    rw [hsame]
    exact ⟨.inr, fun hor => hor.resolve_left hnone⟩

theorem Filled.agree_iff (hf : Filled staleness inv) {req : RequestInfo}
    (hnew : inv.dataTracker.get? req.promptId = none) {v : Int} (hv : 0 ≤ v) :
    inv.Agree req v staleness ↔ (v + staleness = 0 → inv.bufferId = 0 ∨
      inv.getBuffersWithCapacity = {0} ∧ 0 ∉ inv.readyForDeleteBufferIds) := by
  obtain ⟨inv1, h⟩ := hf.ensured hnew v
  by_cases hzero : v + staleness = 0
  · simp only [hzero, true_implies]
    rw [← h.zero_iff hf hzero]
    constructor
    · rintro ⟨can, inv1', r, inv', hcan, hreserve, -, hiff, -⟩
      rw [h.reserve inv (.inl rfl) req rfl] at hreserve
      obtain ⟨ids, hids, hreserve⟩ := bind_eq_ok.mp hreserve
      -- a zero bound leaves the only buffer with capacity
      have hcap : inv1.getBuffersWithCapacity.card = 1 ∧ inv1.getBuffersWithCapacity = ids := by
        rw [StalenessInventory.reserveCandidates, if_pos hzero] at hids
        obtain ⟨_, hassert, hids⟩ := bind_eq_ok.mp hids
        exact ⟨pyAssert_eq_ok.mp hassert, Except.ok.inj hids⟩
      obtain ⟨hcard, rfl⟩ := hcap
      obtain ⟨b, hb⟩ := Finset.card_eq_one.mp hcard
      obtain ⟨loc, inv2, hok, -⟩ := h.filled.reserveIn h.untracked
        ⟨b, by rw [hb]; exact Finset.mem_singleton_self b⟩ subset_rfl
      rw [hok] at hreserve
      cases hreserve
      have htrue : can = true := hiff.mpr (by simp)
      rw [h.can] at hcan
      cases hcan
      obtain ⟨c, hc⟩ := of_decide_eq_true htrue
      obtain ⟨hmem, hwin, hmark⟩ := Finset.mem_filter.mp hc
      obtain rfl : c = 0 := by omega
      rw [hb, Finset.mem_singleton] at hmem
      exact ⟨by rw [hb, hmem], hmark⟩
    · rintro ⟨hcap, hmark⟩
      have hcand : inv1.reserveCandidates (some (v + staleness)) = .ok {0} := by
        rw [StalenessInventory.reserveCandidates, if_pos hzero, onlyBufferWithCapacity,
          pyAssert_of (by rw [hcap]; rfl), ok_bind, hcap]
      refine h.agree hcand fun b => ?_
      rw [← h.filled.mem_candidates, hcap, Finset.mem_filter, Finset.mem_singleton]
      exact ⟨fun hb => ⟨hb, by omega, hb ▸ hmark⟩, And.left⟩
  · obtain ⟨ids, hcand, hids⟩ := h.reserveCandidates hzero
    exact iff_of_true (h.agree hcand hids) fun h0 => absurd h0 hzero

/-- **Asking and reserving.** In every state of a run in which nobody clears or occupies a
finished group as a reservation, and for every fresh prompt and version, `can_reserve_data`
and `reserve_data` agree exactly if the bound is not `0` or buffer 0 is the only one with an
`EMPTY` slot and not marked for deletion, or no buffer was created yet. -/
theorem reserve_agrees_iff (staleness numEntries readyNumEntries rolloutN : Nat)
    (hpos : 1 ≤ readyNumEntries) (hle : readyNumEntries ≤ numEntries) {inv : StalenessInventory}
    (hrun : Run.Reachable call Proper
      (new (trainingConfig staleness numEntries readyNumEntries rolloutN)) inv)
    (req : RequestInfo) (hfresh : inv.dataTracker.get? req.promptId = none) (v : Int)
    (hv : 0 ≤ v) :
    inv.Agree req v staleness ↔ (v + staleness = 0 → inv.bufferId = 0 ∨
      inv.getBuffersWithCapacity = {0} ∧ 0 ∉ inv.readyForDeleteBufferIds) := by
  have hf : Filled staleness inv := hrun.invariant (filled_new ⟨rfl, rfl, hpos, hle⟩)
    fun _ _ _ hs hproper hcall => hs.call hproper hcall
  exact hf.agree_iff hfresh hv

theorem reserve_agrees_next_version :
    ∃ inv, Run.Reachable call Proper (new (trainingConfig 1 2 1 1)) inv ∧
      inv.dataTracker.get? 0 = some (1, 1) ∧ inv.Agree (singleRequest 1 1) 1 1 := by
  obtain ⟨inv, hrun, hp⟩ : ∃ inv, Run.Reachable call Proper (new (trainingConfig 1 2 1 1)) inv ∧
      decide (inv.dataTracker.get? 0 = some (1, 1) ∧ inv.dataTracker.get? 1 = none) = true :=
    Run.exists_reachable_of_perform (l := [.canReserve 0 0, .reserve (singleRequest 0 0) 1])
      (by decide +kernel)
  obtain ⟨htracked, hfresh⟩ := of_decide_eq_true hp
  exact ⟨inv, hrun, htracked, (reserve_agrees_iff 1 2 1 1 (by decide) (by decide) hrun
    (singleRequest 1 1) hfresh 1 (by decide)).mpr nofun⟩

/-- Staleness 0: after a reservation for version 1 buffers 0 and 1 both have an `EMPTY` slot. A
prompt of version 0 is admitted, and its reservation fails an assertion. -/
theorem reserve_disagrees :
    ∃ inv, Run.Reachable call Proper (new (trainingConfig 0 2 2 1)) inv ∧
      inv.dataTracker.get? 1 = none ∧
      (∃ inv1, inv.canReserveData 1 0 = .ok (true, inv1)) ∧
      inv.reserveData (singleRequest 1 0) (some 0) = .error (.assertionError
        "Only one PENDING buffer should exist when max_staleness_buffer_id is None") := by
  obtain ⟨inv, hrun, hp⟩ : ∃ inv, Run.Reachable call Proper (new (trainingConfig 0 2 2 1)) inv ∧
      decide (inv.dataTracker.get? 1 = none ∧
        (inv.canReserveData 1 0).toOption.map Prod.fst = some true ∧
        raised (inv.reserveData (singleRequest 1 0) (some 0)) = some (.assertionError
          "Only one PENDING buffer should exist when max_staleness_buffer_id is None")) = true :=
    Run.exists_reachable_of_perform (l := [.reserve (singleRequest 0 1) 1]) (by decide +kernel)
  obtain ⟨hfresh, hcan, hraised⟩ := of_decide_eq_true hp
  obtain ⟨⟨can, inv1⟩, hok, rfl⟩ := Option.map_eq_some_iff.mp hcan
  exact ⟨inv, hrun, hfresh, ⟨inv1, toOption_eq_some_iff.mp hok⟩, raised_eq_some.mp hraised⟩

end StalenessInventory

end Psrl
