import Psrl.Staleness.Training

/-!
# Psrl.Staleness.Reserve

Guarded reservations and version raises keep a training inventory good.

`reserve_data` is only called after `can_reserve_data` has returned `True`
(`guardedReserve`). A new group then gets the last free slot of the last admissible
buffer; a further request of a group joins its entry.
-/

namespace Psrl

open Py

namespace StalenessInventory

open Layout

variable {inv inv' : StalenessInventory} {holesOk : Prop} {staleness : Nat} {bid : Int}

/-! ### Operations on a good inventory that leave the slots alone -/

theorem Good.of_grown (hg : Good holesOk staleness inv) (hw : inv'.Wf) (hc : Cached ∅ inv')
    (h : Grown inv inv') : Good holesOk staleness inv' :=
  ⟨by rw [h.config]; exact hg.training, hw, hc, hg.orderly.congr h.config h.slot⟩

theorem Good.ensureBufferExists (hg : Good holesOk staleness inv) (maxId : Int) :
    ∃ inv', inv.ensureBufferExists (some maxId) = .ok inv' ∧ Good holesOk staleness inv' ∧
      Grown inv inv' ∧ inv'.bufferId = max inv.bufferId (maxId + 1) := by
  obtain ⟨inv', hok, hw, hc, hgrown, hid⟩ :=
    hg.wf.ensureBufferExists hg.cached hg.training.train maxId
  exact ⟨inv', hok, hg.of_grown hw hc hgrown, hgrown, hid⟩

theorem Good.deleteBuffer (hg : Good holesOk staleness inv) (bid : Int) :
    ∃ inv', inv.deleteBuffer bid = .ok inv' ∧ Good holesOk staleness inv' ∧
      inv'.toInventoryConfig = inv.toInventoryConfig ∧
      inv'.slot = fun loc => if loc.1 = bid then .empty else inv.slot loc := by
  obtain ⟨inv', hok, hw, hc, hconfig, -, -, -, hslot⟩ := hg.wf.deleteBuffer hg.cached bid
  refine ⟨inv', hok, ⟨by rw [hconfig]; exact hg.training, hw, hc, fun b => ?_,
    fun b e info hinfo => ?_⟩, hconfig, hslot⟩
  · have hrow : inv'.row b = if b = bid then fun _ => .empty else inv.row b := by
      funext e
      rw [row_eq, hslot]
      dsimp only
      split <;> rfl
    rw [hconfig, hrow]
    split
    · exact shaped_empty
    · exact hg.orderly.shaped b
  · rw [hslot] at hinfo
    dsimp only at hinfo
    split at hinfo
    · cases hinfo
    · exact hg.orderly.window b e info hinfo

theorem Good.markBufferForDeletion (hg : Good holesOk staleness inv) (hb : inv.HasBuffer bid)
    (hdone : BatchDone inv.readyNumEntries (inv.row bid)) :
    ∃ inv', inv.markBufferForDeletion bid = .ok inv' ∧ Good holesOk staleness inv' ∧
      inv'.toInventoryConfig = inv.toInventoryConfig ∧ inv'.slot = inv.slot := by
  obtain ⟨status, hstatus, hready⟩ := hg.getBufferStatus_ready_iff.mpr ⟨hb, hdone⟩
  refine ⟨{ inv with readyForDeleteBufferIds := insert bid inv.readyForDeleteBufferIds }, ?_,
    ⟨hg.training, ⟨hg.wf.sized, hg.wf.ids, hg.wf.nonneg, hg.wf.tracked, fun b hmem => ?_⟩,
      ⟨hg.cached.has, hg.cached.unique, hg.cached.exact⟩, hg.orderly.shaped, hg.orderly.window⟩,
    rfl, rfl⟩
  · unfold StalenessInventory.markBufferForDeletion
    rw [hstatus, ok_bind, pyAssert_of hready, ok_bind]
  · rcases Finset.mem_insert.mp hmem with rfl | hmem
    · exact hb
    · exact hg.wf.marked b hmem

/-! ### A new reservation -/

/-- A buffer with an `EMPTY` slot has one right before its reserved suffix. -/
theorem lastNonReserved_empty {buffer : StalenessBuffer}
    (hshape : Shaped holesOk buffer.numEntries buffer.readyNumEntries buffer.categoryAt)
    (hempty : HasEmpty buffer.numEntries buffer.categoryAt) :
    ∃ k : Nat, buffer.getLastNonReserved = k ∧ k < buffer.numEntries ∧
      buffer.categoryAt k = .empty := by
  obtain ⟨i, hi, hcat⟩ := hempty
  have hle := buffer.le_last_of_not_reserved hi (by rw [hcat]; simp)
  have hlt := buffer.getLastNonReserved_lt
  refine ⟨buffer.getLastNonReserved.toNat, by omega, by omega, ?_⟩
  have hk : buffer.getLastNonReserved = buffer.getLastNonReserved.toNat := by omega
  cases hc : buffer.categoryAt buffer.getLastNonReserved.toNat with
  | empty => rfl
  | reserved => exact absurd hc (buffer.not_reserved_last hk)
  | occupied =>
      -- an occupied slot has no empty slot before it
      rcases Nat.eq_or_lt_of_le (show i ≤ buffer.getLastNonReserved.toNat by omega) with heq | hlt
      · rw [← heq, hcat] at hc
        cases hc
      · have hocc : buffer.categoryAt i = .occupied := hshape.left i _ hlt hc
        rw [hcat] at hocc
        cases hocc

theorem row_update {loc : Int × Nat} {entry : Entry}
    (hslot : inv'.slot = Function.update inv.slot loc entry) (b : Int) :
    inv'.row b = if b = loc.1 then Function.update (inv.row b) loc.2 entry.category
      else inv.row b := by
  obtain ⟨b', e'⟩ := loc
  funext e
  rw [row_eq, hslot, Function.update_apply]
  by_cases hb : b = b'
  · subst hb
    rw [if_pos rfl, Function.update_apply]
    by_cases he : e = e' <;> simp [he, row_eq]
  · rw [if_neg hb, if_neg fun h => hb (congrArg Prod.fst h)]
    rfl

/-- Reserving in the last of some admissible buffers with capacity. -/
theorem Good.reserveIn (hg : Good holesOk staleness inv) {req : RequestInfo}
    {candidateIds : Finset Int} (hnew : inv.dataTracker.get? req.promptId = none)
    (hne : candidateIds.Nonempty)
    (hcand : ∀ t ∈ candidateIds, t ∈ inv.getBuffersWithCapacity ∧
      req.modelVersion ≤ t ∧ t ≤ req.modelVersion + staleness) :
    ∃ inv' loc, inv.reserveIn req candidateIds = .ok (some loc, inv') ∧
      Good holesOk staleness inv' ∧ Frame inv inv' ∧
      loc.1 ∈ candidateIds ∧ inv.slot loc = .empty ∧
      inv'.slot = Function.update inv.slot loc (.reserved req.toEntryInfo) := by
  obtain ⟨t, ht⟩ : ∃ t, setMax candidateIds = some t := by
    cases hmax : setMax candidateIds with
    | none => exact absurd (setMax_eq_none.mp hmax) hne.ne_empty
    | some t => exact ⟨t, rfl⟩
  have hmem := (setMax_eq_some.mp ht).1
  obtain ⟨hcap, hlow, hhigh⟩ := hcand t hmem
  obtain ⟨⟨buffer, hget⟩, hempty⟩ := hg.mem_withCapacity.mp hcap
  obtain ⟨hnum, hready⟩ := hg.wf.sized _ _ hget
  have hrow := row_of_get? hget
  have hshape := hg.orderly.shaped t
  rw [hrow, ← hnum] at hempty
  obtain ⟨k, hk, hlt, hcat⟩ := lastNonReserved_empty
    (by rw [hnum, hready, ← hrow]; exact hshape) hempty
  have hfree : inv.slot (t, k) = .empty := by
    rw [slot_of_get? hget]
    exact Entry.category_eq_empty_iff.mp hcat
  obtain ⟨inv1, hplace⟩ : ∃ inv1,
      inv.place req.promptId t k (.reserved req.toEntryInfo) = .ok inv1 :=
    place_ok _ hg.wf.sized ⟨buffer, hget⟩ (by omega)
  obtain ⟨hw1, _, hedit⟩ := hg.wf.place hfree hnew rfl hplace
  have ho1 : Orderly holesOk staleness inv1 := by
    refine ⟨fun b => ?_, fun b e info hinfo => ?_⟩
    · rw [hedit.config, row_update hedit.slot]
      split
      · rename_i hb
        obtain rfl : b = t := hb
        refine hshape.reserve (by rw [hrow]; exact hcat) (by omega) fun j hj hjlt => ?_
        rw [hrow]
        exact buffer.reserved_of_last_lt (by omega) (by omega)
      · exact hg.orderly.shaped b
    · rw [hedit.slot, Function.update_apply] at hinfo
      split at hinfo
      · rename_i hloc
        cases hinfo
        obtain rfl : b = t := congrArg Prod.fst hloc
        exact EntryInfo.inWindow_of_version rfl (by omega) hlow
      · exact hg.orderly.window b e info hinfo
  have hc1 : Cached {t} inv1 := hg.cached.edit hg.wf.sized hedit fun b hb => by
    have hne : b ≠ t := hb
    exact ⟨Set.notMem_empty _, by rw [row_update hedit.slot, if_neg hne]⟩
  obtain ⟨inv', hok, hr, hg'⟩ := good_of_refresh_one (by rw [hedit.config]; exact hg.training)
    hw1 hc1 ho1
  refine ⟨inv', (t, k), ?_, hg', hedit.toFrame.trans hr.frame, hmem, hfree,
    hr.slot.trans hedit.slot⟩
  unfold StalenessInventory.reserveIn
  simp only [ht, Dict.get_eq_ok.mpr hget, ok_bind, hk, Int.toNat_natCast]
  rw [pyAssert_of ⟨by omega, hcat⟩, ok_bind, hplace, ok_bind, hok, ok_bind]

/-! ### A change to the entry of a slot -/

/-- A rewritten entry keeps the inventory good if a reservation stays in its window. -/
theorem Rewritten.good {loc : Int × Nat} {info info' : EntryInfo}
    (hg : Good holesOk staleness inv) (hrew : Rewritten inv inv' loc info info')
    (hwin : inv.slot loc = .reserved info → info'.InWindow staleness loc.1) :
    Good holesOk staleness inv' := by
  refine ⟨by rw [hrew.edit.config]; exact hg.training, hrew.wf,
    hg.cached.edit hg.wf.sized hrew.edit fun b _ => ⟨Set.notMem_empty _, hrew.row b⟩,
    fun b => ?_, fun b e i hi => ?_⟩
  · rw [hrew.edit.config, hrew.row]
    exact hg.orderly.shaped b
  · rcases hrew.reserved hi with ⟨rfl, hres, rfl⟩ | hi
    · exact hwin hres
    · exact hg.orderly.window b e i hi

theorem Good.setInfo (hg : Good holesOk staleness inv) {loc : Int × Nat} {info info' : EntryInfo}
    (hinfo : (inv.slot loc).entryInfo? = some info) (hid : info'.promptId = info.promptId)
    (hwin : inv.slot loc = .reserved info → info'.InWindow staleness loc.1) :
    Good holesOk staleness (inv.setSlot loc.1 loc.2 ((inv.slot loc).setInfo info')) :=
  (hg.wf.setInfo hinfo hid).good hg hwin

theorem entryInfoAt_eq_ok {eid : Nat} {info : EntryInfo} :
    inv.entryInfoAt bid eid = .ok info ↔ (inv.slot (bid, eid)).entryInfo? = some info := by
  unfold entryInfoAt slot slotAt Dict.get
  cases inv.buffers.get? bid with
  | none => simp [Entry.entryInfo?]
  | some buffer =>
      simp only [ok_bind]
      cases (buffer.entryAt eid).entryInfo? <;> simp

/-- A tracked prompt has an entry in its slot. -/
theorem Wf.entryInfo_of_tracked (hw : inv.Wf) {promptId : Nat} {loc : Int × Nat}
    (h : inv.dataTracker.get? promptId = some loc) :
    ∃ info, (inv.slot loc).entryInfo? = some info ∧ info.promptId = promptId := by
  have hcontent := hw.content_of_tracked h
  unfold content Entry.promptId? at hcontent
  obtain ⟨info, hinfo, hp⟩ := Option.map_eq_some_iff.mp hcontent
  exact ⟨info, hinfo, hp⟩

/-- `update_request_version_tag` of a recorded request, to a version that keeps its entry
in the window. -/
theorem Good.updateRequestVersionTag (hg : Good holesOk staleness inv) {requestId : Nat}
    {new old : Int} {loc : Int × Nat} {info : EntryInfo}
    (htracked : inv.dataTracker.get? (requestId / inv.rolloutN) = some loc)
    (hloc : inv.slot loc = .reserved info) (hcover : info.VersionsCover)
    (hrec : requestId % inv.rolloutN ∈ info.getAllRequestRelativeIds)
    (hold : info.recordedVersion (requestId % inv.rolloutN) = some old) (hraise : old ≤ new)
    (hnew : new ≤ loc.1) :
    ∃ inv' info', inv.updateRequestVersionTag requestId new = .ok inv' ∧
      Good holesOk staleness inv' ∧ inv'.toInventoryConfig = inv.toInventoryConfig ∧
      info.updateModelVersion (requestId % inv.rolloutN) new = .ok info' ∧
      inv'.slot = Function.update inv.slot loc (.reserved info') := by
  obtain ⟨-, info', hupd⟩ := hcover.updateModelVersion_ok hrec new
  have hinfo : (inv.slot loc).entryInfo? = some info := by
    rw [hloc]
    rfl
  have hid : info'.promptId = info.promptId := by
    obtain ⟨mv, -, rfl⟩ := EntryInfo.updateModelVersion_eq_ok.mp hupd
    rfl
  have hset := hg.setInfo hinfo hid fun _ =>
    (hg.orderly.window loc.1 loc.2 info hloc).updateModelVersion hupd hold hraise hnew
  have hedit := (hg.wf.setInfo hinfo hid).edit
  have hslot := hedit.slot
  have hconfig := hedit.config
  have hentry : (inv.slot loc).setInfo info' = .reserved info' := by
    rw [hloc]
    rfl
  rw [hentry] at hset hslot hconfig
  refine ⟨_, info', ?_, hset, hconfig, hupd, hslot⟩
  unfold StalenessInventory.updateRequestVersionTag updateRequest
  simp only [htracked, entryInfoAt_eq_ok.mpr hinfo, hupd, ok_bind]
  rw [← hentry]
  rfl

/-! ### The guarded reservation -/

/-- `can_reserve_data`, and `reserve_data` with the version's staleness bound when it
returned `True`. -/
def guardedReserve (inv : StalenessInventory) (req : RequestInfo) :
    Except PyError (Option (Int × Nat) × StalenessInventory) := do
  let maxStalenessBufferId := req.modelVersion + (inv.staleness.getD 0 : Nat)
  let (canReserve, inv) ← inv.canReserveData req.promptId req.modelVersion
  if canReserve then inv.reserveData req (some maxStalenessBufferId) else .ok (none, inv)

/-- What `reserve_data` does: nothing but create buffers, a new reservation in a free slot,
or a further request in the entry of its group. -/
inductive ReserveEffect (inv inv' : StalenessInventory) (req : RequestInfo) :
    Option (Int × Nat) → Prop
  | refused (h : Grown inv inv') : ReserveEffect inv inv' req none
  | fresh (loc : Int × Nat) (hnew : inv.promptCategory req.promptId = none)
      (hfree : inv.slot loc = .empty)
      (hslot : inv'.slot = Function.update inv.slot loc (.reserved req.toEntryInfo)) :
      ReserveEffect inv inv' req (some loc)
  | joined (loc : Int × Nat) (info : EntryInfo) (hinfo : (inv.slot loc).entryInfo? = some info)
      (hp : info.promptId = req.promptId)
      (hslot : inv'.slot =
        Function.update inv.slot loc ((inv.slot loc).setInfo (info.recordRequest req))) :
      ReserveEffect inv inv' req (some loc)

/-- The candidates `reserve_data` computes after a positive `can_reserve_data`: with a
non-zero bound those of the guard. A zero bound is mistaken for a missing one; if the call
returns at all, the only buffer with capacity is the one the guard found. -/
theorem Good.reserveCandidates (hg : Good holesOk staleness inv) {v : Int}
    (hguard : ∃ b ∈ inv.getBuffersWithCapacity, (v ≤ b ∧ b ≤ v + staleness) ∧
      b ∉ inv.readyForDeleteBufferIds) :
    (∃ ids, inv.reserveCandidates (some (v + staleness)) = .ok ids ∧ ids.Nonempty ∧
      ∀ t ∈ ids, t ∈ inv.getBuffersWithCapacity ∧ v ≤ t ∧ t ≤ v + staleness) ∨
    (v + staleness = 0 ∧ ∃ e, inv.reserveCandidates (some (v + staleness)) = .error e) := by
  obtain ⟨b, hcap, hwin, hmark⟩ := hguard
  unfold StalenessInventory.reserveCandidates
  by_cases hzero : v + staleness = 0
  · simp only [hzero, if_true]
    unfold onlyBufferWithCapacity
    by_cases hcard : inv.getBuffersWithCapacity.card = 1
    · refine .inl ⟨inv.getBuffersWithCapacity, by rw [pyAssert_of hcard, ok_bind], ⟨b, hcap⟩,
        fun t ht => ⟨ht, ?_⟩⟩
      obtain ⟨c, hc⟩ := Finset.card_eq_one.mp hcard
      rw [hc, Finset.mem_singleton] at hcap ht
      omega
    · refine .inr ⟨trivial, ?_⟩
      unfold pyAssert
      rw [if_neg hcard, error_bind]
      exact ⟨_, rfl⟩
  · have hstale : inv.getStaleness = .ok staleness := by
      unfold getStaleness
      rw [hg.training.stale]
    simp only [hzero, if_false, hstale, ok_bind]
    refine .inl ⟨_, rfl, ⟨b, ?_⟩, fun t ht => ?_⟩
    · exact Finset.mem_filter.mpr ⟨hcap, ⟨by omega, hwin.2⟩, hmark⟩
    · obtain ⟨htcap, htwin, -⟩ := Finset.mem_filter.mp ht
      exact ⟨htcap, by omega, htwin.2⟩

/-- A guarded reservation keeps the inventory good. It raises at most on a zero bound. -/
theorem Good.guardedReserve (hg : Good holesOk staleness inv) (req : RequestInfo) :
    (∃ r inv', inv.guardedReserve req = .ok (r, inv') ∧ Good holesOk staleness inv' ∧
      inv'.toInventoryConfig = inv.toInventoryConfig ∧ ReserveEffect inv inv' req r) ∨
    (req.modelVersion + staleness = 0 ∧ ∃ e, inv.guardedReserve req = .error e) := by
  unfold StalenessInventory.guardedReserve canReserveData
  simp only [hg.training.stale, Option.getD_some]
  cases htracked : inv.dataTracker.get? req.promptId with
  | some loc =>
      obtain ⟨b, e⟩ := loc
      simp only [ok_bind]
      split
      · rename_i hguard
        have hguard : b ≤ req.modelVersion + staleness := of_decide_eq_true hguard
        obtain ⟨info, hinfo, hp⟩ := hg.wf.entryInfo_of_tracked htracked
        unfold reserveData
        simp only [htracked, entryInfoAt_eq_ok.mpr hinfo, ok_bind]
        have hedit := (hg.wf.setInfo hinfo (EntryInfo.recordRequest_promptId info req)).edit
        refine .inl ⟨_, _, rfl, hg.setInfo hinfo (EntryInfo.recordRequest_promptId ..) ?_,
          hedit.config, .joined (b, e) info hinfo hp hedit.slot⟩
        exact fun hres => (hg.orderly.window b e info hres).recordRequest (by omega)
      · exact .inl ⟨none, inv, rfl, hg, rfl, .refused (.refl inv)⟩
  | none =>
      obtain ⟨inv1, hok1, hg1, hgrown1, hid1⟩ :=
        hg.ensureBufferExists (req.modelVersion + staleness)
      simp only [hok1, ok_bind]
      split
      · rename_i hguard
        have hguard := of_decide_eq_true hguard
        -- `reserve_data` finds all buffers already there
        obtain ⟨inv2, hok2, hg2, hgrown2, hid2⟩ :=
          hg1.ensureBufferExists (req.modelVersion + staleness)
        obtain ⟨b, hb⟩ := hguard
        obtain ⟨hcap, hwin⟩ := Finset.mem_filter.mp hb
        have hcap2 : b ∈ inv2.getBuffersWithCapacity := by
          obtain ⟨hb1, hempty⟩ := hg1.mem_withCapacity.mp hcap
          refine hg2.mem_withCapacity.mpr ⟨(hgrown2.has b).mpr (.inl hb1), ?_⟩
          have hrow : inv2.row b = inv1.row b := by
            funext e
            rw [row_eq, row_eq, hgrown2.slot]
          rw [hgrown2.config, hrow]
          exact hempty
        have htracked1 : inv1.dataTracker.get? req.promptId = none := by
          rw [hgrown1.tracker]
          exact htracked
        have htracked2 : inv2.dataTracker.get? req.promptId = none := by
          rw [hgrown2.tracker]
          exact htracked1
        have hslot2 : inv2.slot = inv.slot := hgrown2.slot.trans hgrown1.slot
        unfold reserveData reserveNew
        simp only [htracked1, hg1.training.train, Bool.false_eq_true, if_false, ne_eq,
          reduceCtorEq, not_false_eq_true, pyAssert_of, ok_bind, hok2]
        rcases hg2.reserveCandidates ⟨b, hcap2, hwin.1, by rw [hgrown2.marks]; exact hwin.2⟩ with
          ⟨ids, hids, hne, hmem⟩ | ⟨hzero, err, herr⟩
        · obtain ⟨inv3, loc, hok3, hg3, hframe3, hloc, hfree, hslot3⟩ :=
            hg2.reserveIn htracked2 hne hmem
          simp only [hids, ok_bind, hok3]
          refine .inl ⟨_, _, rfl, hg3, hframe3.config.trans (hgrown2.config.trans hgrown1.config),
            .fresh loc ?_ ?_ ?_⟩
          · unfold promptCategory
            rw [htracked]
            rfl
          · rw [← hslot2]
            exact hfree
          · rw [hslot3, hslot2]
        · simp only [herr, error_bind]
          exact .inr ⟨hzero, err, rfl⟩
      · exact .inl ⟨none, inv1, rfl, hg1, hgrown1.config, .refused hgrown1⟩

end StalenessInventory

end Psrl
