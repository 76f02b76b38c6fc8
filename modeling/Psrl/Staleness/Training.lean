import Psrl.Staleness.Exchange

/-!
# Psrl.Staleness.Training

The invariant of a training inventory, and the operations that leave the slots alone.

`Good` puts together what the operations rely on: the tracker is an exact index (`Wf`),
the status cache is up to date (`Cached ∅`), and the buffers are orderly. In a good
inventory the cached sets mean what their names say: a buffer has capacity exactly when
it has an `EMPTY` slot, and is not ready exactly while its batch is open.
-/

namespace Psrl

open Py

/-- A training inventory with staleness bound `staleness` and a non-empty batch. -/
structure InventoryConfig.Training (config : InventoryConfig) (staleness : Nat) : Prop where
  stale : config.staleness = some staleness
  train : config.isValidate = false
  pos : 1 ≤ config.readyNumEntries
  le : config.readyNumEntries ≤ config.numEntries

namespace StalenessInventory

open Layout

variable {inv inv' : StalenessInventory} {holesOk : Prop} {staleness : Nat} {bid : Int}

structure Good (holesOk : Prop) (staleness : Nat) (inv : StalenessInventory) : Prop where
  training : inv.toInventoryConfig.Training staleness
  wf : inv.Wf
  cached : Cached ∅ inv
  orderly : Orderly holesOk staleness inv

/-! ### What the cached sets say -/

theorem Good.mem_cache (hg : Good holesOk staleness inv) {status : BufferStatus} :
    bid ∈ inv.bufferIdsByStatus status ↔
      inv.HasBuffer bid ∧ statusOf inv.numEntries inv.readyNumEntries (inv.row bid) = status := by
  constructor
  · intro h
    obtain ⟨buffer, hget⟩ := hg.cached.has bid status h
    have hstatus := (hg.cached.exact bid (Set.notMem_empty _) buffer hget status).mp h
    rw [hg.orderly.getStatus_ok hg.wf.sized hget] at hstatus
    exact ⟨⟨buffer, hget⟩, Except.ok.inj hstatus⟩
  · rintro ⟨⟨buffer, hget⟩, rfl⟩
    exact (hg.cached.exact bid (Set.notMem_empty _) buffer hget _).mpr
      (hg.orderly.getStatus_ok hg.wf.sized hget)

theorem Good.mem_withCapacity (hg : Good holesOk staleness inv) :
    bid ∈ inv.getBuffersWithCapacity ↔
      inv.HasBuffer bid ∧ HasEmpty inv.numEntries (inv.row bid) := by
  unfold getBuffersWithCapacity
  rw [Finset.mem_union, hg.mem_cache, hg.mem_cache, ← and_or_left]
  refine and_congr_right fun _ => ?_
  unfold statusOf
  split <;> split <;> simp_all

theorem Good.mem_notReady (hg : Good holesOk staleness inv) :
    bid ∈ inv.getBuffersNotReady ↔
      inv.HasBuffer bid ∧ ¬ BatchDone inv.readyNumEntries (inv.row bid) := by
  unfold getBuffersNotReady
  rw [Finset.mem_union, hg.mem_cache, hg.mem_cache, ← and_or_left]
  refine and_congr_right fun _ => ?_
  unfold statusOf
  split <;> split <;> simp_all

theorem Good.mem_ready (hg : Good holesOk staleness inv) :
    bid ∈ inv.readyBufferIds ↔
      inv.HasBuffer bid ∧ BatchDone inv.readyNumEntries (inv.row bid) := by
  unfold readyBufferIds
  rw [Finset.mem_union, hg.mem_cache, hg.mem_cache, ← and_or_left]
  refine and_congr_right fun _ => ?_
  unfold statusOf
  split <;> split <;> simp_all

theorem isOpen_iff (hs : inv.Sized) :
    inv.isOpen bid = true ↔
      inv.HasBuffer bid ∧ ¬ BatchDone inv.readyNumEntries (inv.row bid) := by
  unfold isOpen
  cases hget : inv.buffers.get? bid with
  | none =>
      simp only [Bool.false_eq_true, false_iff, not_and]
      rintro ⟨buffer, hbuf⟩
      rw [hget] at hbuf
      cases hbuf
  | some buffer =>
      rw [row_of_get? hget, ← (hs _ _ hget).2, decide_eq_true_eq,
        StalenessBuffer.first_lt_ready_iff]
      exact (and_iff_right ⟨buffer, hget⟩).symm

theorem Good.getBufferStatus_ready_iff (hg : Good holesOk staleness inv) :
    (∃ status, inv.getBufferStatus bid = .ok status ∧
        (status = .ready ∨ status = .readyWithCapacity)) ↔
      inv.HasBuffer bid ∧ BatchDone inv.readyNumEntries (inv.row bid) := by
  have hcached : ∀ status, inv.cachedStatus? bid = some status ↔
      inv.HasBuffer bid ∧ statusOf inv.numEntries inv.readyNumEntries (inv.row bid) = status :=
    fun status => (cachedStatus?_eq_some hg.cached.unique).trans hg.mem_cache
  unfold getBufferStatus
  cases hget : inv.buffers.get? bid with
  | none =>
      have hno : ¬ inv.HasBuffer bid := by
        rintro ⟨buffer, hbuf⟩
        rw [hget] at hbuf
        cases hbuf
      simp [hno]
  | some buffer =>
      have hb : inv.HasBuffer bid := ⟨buffer, hget⟩
      rw [(hcached _).mpr ⟨hb, rfl⟩]
      simp only [Except.ok.injEq, exists_eq_left', hb, true_and]
      unfold statusOf
      split <;> split <;> simp_all

/-! ### Ending an operation -/

theorem Orderly.congr (ho : Orderly holesOk staleness inv)
    (hconfig : inv'.toInventoryConfig = inv.toInventoryConfig) (hslot : inv'.slot = inv.slot) :
    Orderly holesOk staleness inv' := by
  refine ⟨fun b => ?_, fun b e info hinfo => ho.window b e info (by rw [← hslot]; exact hinfo)⟩
  have hrow : inv'.row b = inv.row b := by
    funext e
    rw [row_eq, row_eq, hslot]
  rw [hconfig, hrow]
  exact ho.shaped b

/-- Refreshing the buffers an operation touched restores the invariant. -/
theorem good_of_refresh {dirty : Set Int} (ids : List Int)
    (ht : inv.toInventoryConfig.Training staleness) (hw : inv.Wf) (hc : Cached dirty inv)
    (ho : Orderly holesOk staleness inv) (hdirty : ∀ b ∈ dirty, b ∈ ids) :
    ∃ inv', inv.updateBufferStatuses ids = .ok inv' ∧ Refresh inv inv' ∧
      Good holesOk staleness inv' := by
  obtain ⟨inv', hok⟩ : ∃ inv', inv.updateBufferStatuses ids = .ok inv' :=
    updateBufferStatuses_ok fun b _ buffer hget => ⟨_, ho.getStatus_ok hw.sized hget⟩
  obtain ⟨hc', hr⟩ := hc.updateBufferStatuses hok
  refine ⟨inv', hok, hr, by rw [hr.config]; exact ht, hr.wf hw, ?_, ?_⟩
  · have hempty : {b | b ∈ dirty ∧ b ∉ ids} = ∅ :=
      Set.eq_empty_of_forall_notMem fun b hb => hb.2 (hdirty b hb.1)
    rw [hempty] at hc'
    exact hc'
  · exact ho.congr hr.config hr.slot

/-- The same for an operation that touched one buffer. -/
theorem good_of_refresh_one (ht : inv.toInventoryConfig.Training staleness) (hw : inv.Wf)
    (hc : Cached {bid} inv) (ho : Orderly holesOk staleness inv) :
    ∃ inv', inv.updateBufferStatus bid = .ok inv' ∧ Refresh inv inv' ∧
      Good holesOk staleness inv' := by
  obtain ⟨inv', hok, h⟩ := good_of_refresh [bid] ht hw hc ho (by simp)
  obtain ⟨inv1, hinv1, hok⟩ := bind_eq_ok.mp hok
  cases hok
  exact ⟨inv', hinv1, h⟩

/-! ### Creating buffers -/

/-- From `inv` to `inv'` empty buffers were added at the end. -/
structure Grown (inv inv' : StalenessInventory) : Prop where
  config : inv'.toInventoryConfig = inv.toInventoryConfig
  marks : inv'.readyForDeleteBufferIds = inv.readyForDeleteBufferIds
  tracker : inv'.dataTracker = inv.dataTracker
  slot : inv'.slot = inv.slot
  le : inv.bufferId ≤ inv'.bufferId
  has : ∀ b, inv'.HasBuffer b ↔ inv.HasBuffer b ∨ inv.bufferId ≤ b ∧ b < inv'.bufferId

theorem Grown.refl (inv : StalenessInventory) : Grown inv inv :=
  ⟨rfl, rfl, rfl, rfl, le_rfl, fun _ => ⟨.inl, fun h => h.elim id fun hb => by omega⟩⟩

theorem Grown.trans {inv'' : StalenessInventory} (h : Grown inv inv') (h' : Grown inv' inv'') :
    Grown inv inv'' where
  config := h'.config.trans h.config
  marks := h'.marks.trans h.marks
  tracker := h'.tracker.trans h.tracker
  slot := h'.slot.trans h.slot
  le := h.le.trans h'.le
  has := fun b => by
    have := h.le
    have := h'.le
    rw [h'.has, h.has, or_assoc]
    refine or_congr_right ⟨fun hb => ?_, fun hb => ?_⟩
    · omega
    · omega

theorem new_getStatus_ok (numEntries readyNumEntries : Nat) :
    ∃ s, (StalenessBuffer.new numEntries readyNumEntries).getStatus = .ok s := by
  have hcat : (StalenessBuffer.new numEntries readyNumEntries).categoryAt = fun _ => .empty := by
    funext i
    unfold StalenessBuffer.categoryAt
    rw [StalenessBuffer.entryAt_new]
    rfl
  have hshape : Shaped False numEntries readyNumEntries
      (StalenessBuffer.new numEntries readyNumEntries).categoryAt := by
    rw [hcat]
    exact shaped_empty
  exact ⟨_, StalenessBuffer.getStatus_of_shaped hshape⟩

theorem Wf.createBuffer (hw : inv.Wf) (hc : Cached ∅ inv) :
    ∃ inv', inv.createBuffer inv.bufferId = .ok inv' ∧ inv'.Wf ∧ Cached ∅ inv' ∧
      Grown inv inv' ∧ inv'.bufferId = inv.bufferId + 1 := by
  have hnew : ¬ inv.HasBuffer inv.bufferId := fun h => absurd (hw.ids _ h).2 (lt_irrefl _)
  obtain ⟨inv1, hinv1⟩ : ∃ i, i = { inv with
    buffers := inv.buffers.set inv.bufferId (.new inv.numEntries inv.readyNumEntries) } := ⟨_, rfl⟩
  have hget : ∀ b, inv1.buffers.get? b = if b = inv.bufferId then
      some (.new inv.numEntries inv.readyNumEntries) else inv.buffers.get? b := by
    intro b
    rw [hinv1]
    exact Dict.get?_set ..
  have hhas : ∀ b, inv1.HasBuffer b ↔ inv.HasBuffer b ∨ b = inv.bufferId := by
    intro b
    unfold HasBuffer
    rw [hget]
    by_cases hb : b = inv.bufferId <;> simp [hb]
  -- a missing buffer already reads as empty slots
  have hslot : inv1.slot = inv.slot := by
    funext ⟨b, e⟩
    by_cases hb : b = inv.bufferId
    · subst hb
      rw [slot_of_get? ((hget _).trans (if_pos rfl)), StalenessBuffer.entryAt_new]
      exact (slot_of_not_hasBuffer hnew).symm
    · unfold StalenessInventory.slot slotAt
      rw [hget, if_neg hb]
  have hc1 : Cached {inv.bufferId} inv1 := by
    rw [hinv1] at hget hhas ⊢
    refine ⟨fun b s hb => (hhas b).mpr (.inl (hc.has b s hb)), hc.unique,
      fun b hb buffer hbuf s => ?_⟩
    have hne : b ≠ inv.bufferId := hb
    refine hc.exact b (Set.notMem_empty _) buffer ?_ s
    rw [← hbuf, hget, if_neg hne]
  obtain ⟨inv2, hinv2⟩ : ∃ inv2, inv1.updateBufferStatus inv.bufferId = .ok inv2 :=
    updateBufferStatus_ok fun buffer hbuf => by
      rw [hget, if_pos rfl] at hbuf
      cases hbuf
      exact new_getStatus_ok ..
  have hr := updateBufferStatus_refresh hinv2
  have hc2 : Cached ∅ inv2 := by
    have := hc1.updateBufferStatus hinv2
    rwa [Set.sdiff_self] at this
  have hconfig : inv2.toInventoryConfig = inv.toInventoryConfig := by
    rw [hr.config, hinv1]
  have hid : inv2.bufferId = inv.bufferId := by rw [hr.bufferId, hinv1]
  have hgrown : Grown inv { inv2 with bufferId := inv2.bufferId + 1 } := by
    refine ⟨hconfig, by rw [hr.marks, hinv1], by rw [hr.tracker, hinv1], hr.slot.trans hslot,
      by dsimp only; omega, fun b => ?_⟩
    refine (hr.has b).trans ((hhas b).trans (or_congr_right ?_))
    dsimp only
    omega
  refine ⟨{ inv2 with bufferId := inv2.bufferId + 1 }, ?_, ?_, ⟨hc2.has, hc2.unique, hc2.exact⟩,
    hgrown, by dsimp only; omega⟩
  · unfold StalenessInventory.createBuffer
    rw [pyAssert_of rfl, ok_bind]
    dsimp only
    rw [← hinv1, hinv2, ok_bind]
  · refine ⟨?_, fun b hb => ?_, ?_, ?_, fun b hb => ?_⟩
    · refine (hr.sized fun b buffer hbuf => ?_ : inv2.Sized)
      rw [hget] at hbuf
      rw [hinv1]
      split at hbuf
      · cases hbuf
        exact ⟨rfl, rfl⟩
      · exact hw.sized b buffer hbuf
    · dsimp only
      rw [hid]
      rcases (hhas b).mp ((hr.has b).mp hb) with hb | hb
      · have := hw.ids b hb
        omega
      · have := hw.nonneg
        omega
    · dsimp only
      have := hw.nonneg
      omega
    · have htracked := hw.tracked
      unfold content at htracked ⊢
      rw [hgrown.slot, hgrown.tracker]
      exact htracked
    · exact (hgrown.has b).mpr (.inl (hw.marked b (by rw [← hgrown.marks]; exact hb)))

theorem Wf.createBuffers (hw : inv.Wf) (hc : Cached ∅ inv) (n : Nat) :
    ∃ inv', ((List.range n).map fun r : Nat => inv.bufferId + r).foldlM
        StalenessInventory.createBuffer inv = .ok inv' ∧ inv'.Wf ∧ Cached ∅ inv' ∧ Grown inv inv' ∧
      inv'.bufferId = inv.bufferId + n := by
  induction n with
  | zero => exact ⟨inv, rfl, hw, hc, .refl inv, by simp⟩
  | succ n ih =>
      obtain ⟨inv1, hok, hw1, hc1, hg1, hid⟩ := ih
      obtain ⟨inv2, hok2, hw2, hc2, hg2, hid2⟩ := hw1.createBuffer hc1
      refine ⟨inv2, ?_, hw2, hc2, hg1.trans hg2, by push_cast; omega⟩
      rw [List.range_succ, List.map_append, List.foldlM_append, hok, ok_bind]
      rw [hid] at hok2
      simp only [List.map_cons, List.map_nil, List.foldlM_cons, List.foldlM_nil, hok2, ok_bind,
        pure_eq_ok]

/-- `ensure_buffer_exists` returns and adds the missing buffers. -/
theorem Wf.ensureBufferExists (hw : inv.Wf) (hc : Cached ∅ inv) (htrain : inv.isValidate = false)
    (maxId : Int) :
    ∃ inv', inv.ensureBufferExists (some maxId) = .ok inv' ∧ inv'.Wf ∧ Cached ∅ inv' ∧
      Grown inv inv' ∧ inv'.bufferId = max inv.bufferId (maxId + 1) := by
  obtain ⟨inv', hok, hw', hc', hgrown, hid⟩ :=
    hw.createBuffers hc (maxId + 1 - inv.bufferId).toNat
  refine ⟨inv', ?_, hw', hc', hgrown, by omega⟩
  unfold StalenessInventory.ensureBufferExists
  rw [htrain]
  exact hok

/-! ### Deleting buffers -/

theorem untrackEntries_ok : ∀ {entries : List Entry},
    (entries.filterMap Entry.promptId?).Nodup → ∀ tracker : Dict Nat (Int × Nat),
    (∀ q ∈ entries.filterMap Entry.promptId?, tracker.get? q ≠ none) →
    ∃ tracker', entries.foldlM untrackEntry tracker = .ok tracker' ∧
      ∀ q, tracker'.get? q =
        if q ∈ entries.filterMap Entry.promptId? then none else tracker.get? q
  | [], _, tracker, _ => ⟨tracker, rfl, fun q => by simp⟩
  | entry :: rest, hnodup, tracker, htracked => by
      cases hp : entry.promptId? with
      | none =>
          rw [List.filterMap_cons_none hp] at hnodup htracked ⊢
          obtain ⟨tracker', hok, hget⟩ := untrackEntries_ok hnodup tracker htracked
          refine ⟨tracker', ?_, hget⟩
          rw [List.foldlM_cons]
          unfold untrackEntry
          simp only [hp, ok_bind]
          exact hok
      | some p =>
          rw [List.filterMap_cons_some hp] at hnodup htracked ⊢
          obtain ⟨hp_notin, hnodup⟩ := List.nodup_cons.mp hnodup
          have hpt := htracked p (List.mem_cons_self ..)
          obtain ⟨loc, hloc⟩ := Option.ne_none_iff_exists'.mp hpt
          obtain ⟨tracker', hok, hget⟩ := untrackEntries_ok hnodup (tracker.erase p)
            fun q hq => by
              have hne : q ≠ p := fun heq => hp_notin (heq ▸ hq)
              rw [Dict.get?_erase, if_neg hne]
              exact htracked q (List.mem_cons_of_mem _ hq)
          refine ⟨tracker', ?_, fun q => ?_⟩
          · rw [List.foldlM_cons]
            unfold untrackEntry
            simp only [hp, pyAssert_of hpt, ok_bind, Dict.del_eq_ok.mpr ⟨⟨loc, hloc⟩, rfl⟩]
            exact hok
          · rw [hget, Dict.get?_erase]
            by_cases hq : q = p
            · subst hq
              simp
            · simp [hq]

/-- Slots with different prompts give a list without repetitions. -/
theorem nodup_prompts {buffer : StalenessBuffer}
    (hinj : ∀ i j p, (buffer.entryAt i).promptId? = some p →
      (buffer.entryAt j).promptId? = some p → i = j) :
    (buffer.entries.filterMap Entry.promptId?).Nodup := by
  refine List.pairwise_filterMap.mpr (List.pairwise_iff_getElem.mpr fun i j hi hj hij => ?_)
  rintro p hp _ hq rfl
  rw [← buffer.entryAt_eq_getElem hi] at hp
  rw [← buffer.entryAt_eq_getElem hj] at hq
  exact hij.ne (hinj i j p hp hq)

theorem mem_prompts_iff {buffer : StalenessBuffer} {q : Nat} :
    q ∈ buffer.entries.filterMap Entry.promptId? ↔ ∃ e, (buffer.entryAt e).promptId? = some q := by
  rw [List.mem_filterMap]
  constructor
  · rintro ⟨entry, hmem, hq⟩
    obtain ⟨e, he⟩ := List.mem_iff_getElem?.mp hmem
    exact ⟨e, by rw [StalenessBuffer.entryAt_of_getElem? he]; exact hq⟩
  · rintro ⟨e, he⟩
    refine ⟨buffer.entryAt e, List.mem_iff_getElem?.mpr ⟨e, ?_⟩, he⟩
    refine StalenessBuffer.getElem?_of_entryAt rfl fun hempty => ?_
    rw [hempty] at he
    cases he

/-- Deleting a buffer untracks the prompts in it. -/
theorem deleteBuffer_of_tracked {buffer : StalenessBuffer} {content : Int × Nat → Option Nat}
    (hget : inv.buffers.get? bid = some buffer)
    (hcontent : ∀ e, content (bid, e) = (buffer.entryAt e).promptId?)
    (htracked : Placement.Exact content inv.dataTracker.get?) :
    ∃ tracker, inv.deleteBuffer bid = .ok { inv with
        dataTracker := tracker
        bufferIdsByStatus := fun status => (inv.bufferIdsByStatus status).erase bid
        buffers := inv.buffers.erase bid
        readyForDeleteBufferIds := inv.readyForDeleteBufferIds.erase bid } ∧
      Placement.Exact (fun loc => if loc.1 = bid then none else content loc) tracker.get? := by
  have hnodup : (buffer.entries.filterMap Entry.promptId?).Nodup := by
    refine nodup_prompts fun i j p hi hj => ?_
    rw [← hcontent] at hi hj
    exact congrArg Prod.snd (htracked.unique hi hj)
  obtain ⟨tracker, hok, htracker⟩ := untrackEntries_ok hnodup inv.dataTracker fun q hq => by
    obtain ⟨e, he⟩ := mem_prompts_iff.mp hq
    rw [(htracked q (bid, e)).mpr ((hcontent e).trans he)]
    simp
  refine ⟨tracker, ?_, htracked.removeZone (fun loc => loc.1 = bid) (fun _ => rfl) ?_ ?_⟩
  · unfold StalenessInventory.deleteBuffer
    rw [hget]
    dsimp only
    rw [hok, ok_bind]
  · rintro q ⟨_, e⟩ rfl hq
    rw [htracker, if_pos (mem_prompts_iff.mpr ⟨e, (hcontent e).symm.trans hq⟩)]
  · intro q hq
    rw [htracker, if_neg]
    intro hmem
    obtain ⟨e, he⟩ := mem_prompts_iff.mp hmem
    exact hq (bid, e) rfl ((hcontent e).trans he)

/-- The cache without a deleted buffer. -/
theorem Cached.eraseBuffer (hc : Cached ∅ inv)
    (hcache : inv'.bufferIdsByStatus = fun status => (inv.bufferIdsByStatus status).erase bid)
    (hbuffers : inv'.buffers = inv.buffers.erase bid) : Cached ∅ inv' where
  has b status hb := by
    rw [hcache] at hb
    obtain ⟨hne, hmem⟩ := Finset.mem_erase.mp hb
    obtain ⟨buffer, hbuf⟩ := hc.has b status hmem
    refine ⟨buffer, ?_⟩
    rw [hbuffers, Dict.get?_erase, if_neg hne]
    exact hbuf
  unique b status status' hb hb' := by
    rw [hcache] at hb hb'
    exact hc.unique b status status' (Finset.mem_erase.mp hb).2 (Finset.mem_erase.mp hb').2
  exact b _ buffer hbuf status := by
    rw [hbuffers, Dict.get?_erase] at hbuf
    split at hbuf
    · cases hbuf
    · rename_i hne
      rw [← hc.exact b (Set.notMem_empty _) buffer hbuf status, hcache]
      exact Finset.mem_erase.trans (and_iff_right hne)

/-- `delete_buffer` returns and removes the buffer with everything in it. -/
theorem Wf.deleteBuffer (hw : inv.Wf) (hc : Cached ∅ inv) (bid : Int) :
    ∃ inv', inv.deleteBuffer bid = .ok inv' ∧ inv'.Wf ∧ Cached ∅ inv' ∧
      inv'.toInventoryConfig = inv.toInventoryConfig ∧ inv'.bufferId = inv.bufferId ∧
      inv'.readyForDeleteBufferIds = inv.readyForDeleteBufferIds.erase bid ∧
      (∀ b, inv'.HasBuffer b ↔ inv.HasBuffer b ∧ b ≠ bid) ∧
      inv'.slot = fun loc => if loc.1 = bid then .empty else inv.slot loc := by
  cases hget : inv.buffers.get? bid with
  | none =>
      have hno : ¬ inv.HasBuffer bid := by
        rintro ⟨buffer, hbuf⟩
        rw [hget] at hbuf
        cases hbuf
      refine ⟨inv, by unfold StalenessInventory.deleteBuffer; rw [hget], hw, hc, rfl, rfl,
        ?_, ?_, ?_⟩
      · exact (Finset.erase_eq_of_notMem fun hm => hno (hw.marked _ hm)).symm
      · exact fun b => ⟨fun hb => ⟨hb, fun heq => hno (heq ▸ hb)⟩, And.left⟩
      · funext loc
        split
        · rename_i hloc
          exact slot_of_not_hasBuffer (hloc ▸ hno)
        · rfl
  | some buffer =>
      have hcontent : ∀ e, inv.content (bid, e) = (buffer.entryAt e).promptId? := by
        intro e
        unfold content
        rw [slot_of_get? hget]
      obtain ⟨tracker, hok, hexact⟩ := deleteBuffer_of_tracked hget hcontent hw.tracked
      obtain ⟨inv', hinv'⟩ : ∃ i, i = { inv with
        dataTracker := tracker
        bufferIdsByStatus := fun status => (inv.bufferIdsByStatus status).erase bid
        buffers := inv.buffers.erase bid
        readyForDeleteBufferIds := inv.readyForDeleteBufferIds.erase bid } := ⟨_, rfl⟩
      have hgets : ∀ b, inv'.buffers.get? b = if b = bid then none else inv.buffers.get? b := by
        intro b
        rw [hinv']
        exact Dict.get?_erase ..
      have hhas : ∀ b, inv'.HasBuffer b ↔ inv.HasBuffer b ∧ b ≠ bid := by
        intro b
        unfold HasBuffer
        rw [hgets]
        by_cases hb : b = bid <;> simp [hb]
      have hslot : inv'.slot = fun loc => if loc.1 = bid then .empty else inv.slot loc := by
        funext loc
        split
        · rename_i hloc
          exact slot_of_not_hasBuffer fun hb => ((hhas _).mp hb).2 hloc
        · rename_i hloc
          unfold StalenessInventory.slot slotAt
          rw [hgets, if_neg hloc]
      refine ⟨inv', by rw [hok, hinv'], ⟨?_, ?_, ?_, ?_, ?_⟩,
        hc.eraseBuffer (by rw [hinv']) (by rw [hinv']), by rw [hinv'], by rw [hinv'],
        by rw [hinv'], hhas, hslot⟩
      · intro b buffer' hbuf
        rw [hgets] at hbuf
        rw [hinv']
        split at hbuf
        · cases hbuf
        · exact hw.sized b buffer' hbuf
      · intro b hb
        rw [hinv']
        exact hw.ids b ((hhas b).mp hb).1
      · rw [hinv']
        exact hw.nonneg
      · refine hexact.congr (fun loc => ?_) fun q => by rw [hinv']
        show (inv'.slot loc).promptId? = _
        rw [hslot]
        dsimp only
        split <;> rfl
      · intro b hb
        rw [hinv'] at hb
        obtain ⟨hne, hmem⟩ := Finset.mem_erase.mp hb
        exact (hhas b).mpr ⟨hw.marked b hmem, hne⟩

end StalenessInventory

end Psrl
