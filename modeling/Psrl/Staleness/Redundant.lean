import Psrl.Staleness.Occupy

/-!
# Psrl.Staleness.Redundant

`occupy_data_with_reserve` as a whole.

A group that was reserved inside the batch always finds a place. A group that was
reserved in a redundant slot takes the first free slot of an open buffer of its window;
if that buffer is full, its boundary reservation is evicted into the last available
buffer before it. Nothing keeps an evicted reservation inside its staleness window, and
when no candidate works out the last resort always raises. `RedundantOk` says, in terms
of the inventory before the call, when neither happens; then the operation returns and
keeps the inventory good (`Good.occupyDataWithReserve`).
-/

namespace Psrl

open Py

namespace StalenessInventory

open Layout

variable {inv inv1 inv' : StalenessInventory} {holesOk : Prop} {staleness : Nat}
  {info : EntryInfo} {modelVersion : Int} {bid : Int} {eid : Nat}

/-! ### The redundant branch -/

/-- An unmarked buffer before `bid` with an `EMPTY` slot: an eviction could go there. -/
def Available (inv : StalenessInventory) (bid other : Int) : Prop :=
  other < bid ∧ inv.HasBuffer other ∧ HasEmpty inv.numEntries (inv.row other) ∧
    other ∉ inv.readyForDeleteBufferIds

/-- The reservation at the left boundary of a buffer may wait in the last available buffer
before it. -/
def EvictionOk (inv : StalenessInventory) (staleness : Nat) (bid : Int) : Prop :=
  ∀ other, inv.Available bid other → (∀ o, inv.Available bid o → o ≤ other) →
    ∀ k ev, inv.slot (bid, k) = .reserved ev → (∀ i, i < k → inv.row bid i = .occupied) →
      ev.InWindow staleness other

theorem Good.setMax_available (hg : Good holesOk staleness inv) (bid : Int) :
    (∃ other, setMax (inv.getBuffersWithCapacity.filter fun o =>
        o < bid ∧ o ∉ inv.readyForDeleteBufferIds) = some other ∧ inv.Available bid other ∧
        ∀ o, inv.Available bid o → o ≤ other) ∨
    (setMax (inv.getBuffersWithCapacity.filter fun o =>
        o < bid ∧ o ∉ inv.readyForDeleteBufferIds) = none ∧ ∀ o, ¬ inv.Available bid o) := by
  have hmem : ∀ o, o ∈ inv.getBuffersWithCapacity.filter (fun o =>
      o < bid ∧ o ∉ inv.readyForDeleteBufferIds) ↔ inv.Available bid o := by
    intro o
    rw [Finset.mem_filter, hg.mem_withCapacity]
    unfold Available
    tauto
  cases hmax : setMax (inv.getBuffersWithCapacity.filter fun o =>
      o < bid ∧ o ∉ inv.readyForDeleteBufferIds) with
  | none =>
      refine .inr ⟨rfl, fun o ho => ?_⟩
      have := (hmem o).mpr ho
      rw [setMax_eq_none.mp hmax] at this
      cases this
  | some other =>
      obtain ⟨h1, h2⟩ := setMax_eq_some.mp hmax
      exact .inl ⟨other, rfl, (hmem other).mp h1, fun o ho => h2 o ((hmem o).mpr ho)⟩

/-- Evicting the boundary reservation of an open buffer: nothing if no buffer is available;
otherwise the slot is free afterwards. -/
theorem Good.evictReserved (hg : Good holesOk staleness inv) {ev : EntryInfo}
    (hsrc : inv.slot (bid, eid) = .reserved ev)
    (hopen : ¬ BatchDone inv.readyNumEntries (inv.row bid))
    (hbefore : ∀ i, i < eid → inv.row bid i = .occupied) (hevict : inv.EvictionOk staleness bid) :
    (∃ inv' dst, inv.evictReserved inv.getBuffersWithCapacity bid eid = .ok (some inv') ∧
      inv'.Wf ∧ Cached {bid} inv' ∧ Orderly holesOk staleness inv' ∧ Frame inv inv' ∧
      inv.slot dst = .empty ∧ inv'.slot = fill inv.slot dst (bid, eid)) ∨
    (inv.evictReserved inv.getBuffersWithCapacity bid eid = .ok none ∧
      ∀ o, ¬ inv.Available bid o) := by
  unfold StalenessInventory.evictReserved
  rcases hg.setMax_available bid with ⟨other, hmax, havail, hlargest⟩ | ⟨hmax, hno⟩
  · refine .inl ?_
    obtain ⟨hlt, ⟨buffer, hget⟩, hempty, -⟩ := id havail
    obtain ⟨hnum, hready⟩ := hg.wf.sized _ _ hget
    have hrow := row_of_get? hget
    have hshape := hg.orderly.shaped other
    rw [hrow, ← hnum] at hempty
    obtain ⟨k, hk, hklt, hcat⟩ := lastNonReserved_empty
      (by rw [hnum, hready, ← hrow]; exact hshape) hempty
    have hfree : inv.slot (other, k) = .empty := by
      rw [slot_of_get? hget]
      exact Entry.category_eq_empty_iff.mp hcat
    have hcontent : inv.content (bid, eid) = some ev.promptId := by
      unfold content
      rw [hsrc]
      rfl
    have hksize : k < inv.numEntries := by omega
    obtain ⟨inv1, hrel⟩ : ∃ inv1, inv.relocate (bid, eid) (other, k) = .ok inv1 :=
      relocate_ok hg.wf.sized ⟨buffer, hget⟩ hksize hcontent
    have hr1 := hg.wf.relocate hfree ⟨buffer, hget⟩ hksize hrel
    obtain ⟨hw1, _, hedit⟩ := id hr1
    have hne : (bid, eid) ≠ (other, k) := fun h => absurd (congrArg Prod.fst h) (by simp; omega)
    -- the evicted slot opens at the left boundary, the reservation joins the other's suffix
    have hrow1 : ∀ b, inv1.row b = if b = bid then Function.update (inv.row b) eid .empty
        else if b = other then Function.update (inv.row b) k .reserved else inv.row b := by
      intro b
      funext e
      rw [row_eq, hedit.slot, fill_apply, hsrc]
      by_cases hb : b = bid
      · subst hb
        rw [if_pos rfl, Function.update_apply]
        by_cases he : e = eid
        · simp [he]
        · have hbo : b ≠ other := by omega
          simp [he, hbo, row_eq]
      · rw [if_neg hb, if_neg fun h => hb (congrArg Prod.fst h)]
        by_cases hbo : b = other
        · subst hbo
          rw [if_pos rfl, Function.update_apply]
          by_cases he : e = k <;> simp [he, row_eq]
        · rw [if_neg hbo, if_neg fun h => hbo (congrArg Prod.fst h), row_eq]
    have ho1 : Orderly holesOk staleness inv1 := by
      refine ⟨fun b => ?_, fun b e i hi => ?_⟩
      · rw [hedit.config, hrow1]
        split
        · rename_i hb
          subst hb
          refine (hg.orderly.shaped b).clearReserved (by rw [row_eq, hsrc]; rfl)
            fun _ i hi hres => ?_
          by_contra hlt
          have := hbefore i (by omega)
          rw [hres] at this
          cases this
        · split
          · rename_i hb
            subst hb
            refine hshape.reserve (by rw [hrow]; exact hcat) hksize fun j hj hjlt => ?_
            rw [hrow]
            exact buffer.reserved_of_last_lt (by omega) (by omega)
          · exact hg.orderly.shaped b
      · rw [hedit.slot, fill_apply] at hi
        split at hi
        · cases hi
        · split at hi
          · rename_i hdst
            obtain rfl : b = other := congrArg Prod.fst hdst
            rw [hsrc] at hi
            cases hi
            exact hevict b havail hlargest eid ev hsrc hbefore
          · exact hg.orderly.window b e i hi
    have hc1 : Cached {bid, other} inv1 := hg.cached.edit hg.wf.sized hedit fun b hb => by
      simp only [Set.mem_insert_iff, Set.mem_singleton_iff, not_or] at hb
      exact ⟨Set.notMem_empty _, by rw [hrow1, if_neg hb.1, if_neg hb.2]⟩
    obtain ⟨inv', hupd⟩ : ∃ inv', inv1.updateBufferStatus other = .ok inv' :=
      updateBufferStatus_ok fun b hb => ⟨_, ho1.getStatus_ok hw1.sized hb⟩
    have href := updateBufferStatus_refresh hupd
    refine ⟨inv', (other, k), ?_, href.wf hw1,
      (hc1.updateBufferStatus hupd).mono (by rintro b ⟨hb | hb, hn⟩ <;> simp_all),
      ho1.congr href.config href.slot, hedit.toFrame.trans href.frame, hfree,
      href.slot.trans hedit.slot⟩
    simp only [hmax, Dict.get_eq_ok.mpr hget, ok_bind, hk, Int.toNat_natCast]
    rw [pyAssert_of ⟨by omega, hcat⟩, ok_bind, hrel, ok_bind, hupd, ok_bind]
  · exact .inr ⟨by simp only [hmax], hno⟩

/-- The loop over candidate buffers either takes the first that has a free boundary slot or
an available buffer to evict to, or passes all of them. -/
theorem Good.occupyRedundantLoop (hg : Good holesOk staleness inv)
    (hnew : inv.dataTracker.get? info.promptId = none) : ∀ (candidates : List Int),
    (∀ c ∈ candidates, inv.HasBuffer c ∧ ¬ BatchDone inv.readyNumEntries (inv.row c) ∧
      (¬ HasEmpty inv.numEntries (inv.row c) → inv.EvictionOk staleness c)) →
    (∃ b e n inv', b ∈ candidates ∧
      inv.occupyRedundantLoop info inv.getBuffersWithCapacity candidates =
        .ok (some ((b, e, n), inv')) ∧
      Good holesOk staleness inv' ∧ Placed inv inv' info (b, e)) ∨
    (inv.occupyRedundantLoop info inv.getBuffersWithCapacity candidates = .ok none ∧
      ∀ c ∈ candidates, ¬ HasEmpty inv.numEntries (inv.row c) ∧ ∀ o, ¬ inv.Available c o)
  | [], _ => .inr ⟨rfl, by simp⟩
  | c :: rest, hcand => by
      obtain ⟨⟨buffer, hget⟩, hopen, hevict⟩ := hcand c (List.mem_cons_self ..)
      obtain ⟨hnum, hready⟩ := hg.wf.sized _ _ hget
      have hrow := row_of_get? hget
      have hlt : buffer.getFirstNonOccupied < buffer.readyNumEntries := by
        rw [StalenessBuffer.first_lt_ready_iff, ← hrow, hready]
        exact hopen
      have hbefore : ∀ i, i < buffer.getFirstNonOccupied → inv.row c i = .occupied := by
        intro i hi
        rw [hrow]
        exact buffer.occupied_of_lt_first hi
      have hfirst : inv.slot (c, buffer.getFirstNonOccupied) =
          buffer.entryAt buffer.getFirstNonOccupied := slot_of_get? hget _
      unfold StalenessInventory.occupyRedundantLoop
      simp only [Dict.get_eq_ok.mpr hget, ok_bind, pyAssert_of hlt]
      cases hcat : buffer.categoryAt buffer.getFirstNonOccupied with
      | occupied => exact absurd hcat buffer.not_occupied_first
      | empty =>
          have hfree : inv.slot (c, buffer.getFirstNonOccupied) = .empty := by
            rw [hfirst]
            exact Entry.category_eq_empty_iff.mp hcat
          obtain ⟨n, inv', hok, hg', hframe, hslot⟩ := hg.orderly.finishOccupy hg.training hg.wf
            (hg.cached.mono (Set.empty_subset {c})) ⟨buffer, hget⟩ (by omega) hfree hbefore hnew
          simp only [if_true, hok, ok_bind]
          exact .inl ⟨c, _, n, inv', List.mem_cons_self .., rfl, hg',
            placed_of_update hframe hfree hslot⟩
      | reserved =>
          have hnoempty : ¬ HasEmpty inv.numEntries (inv.row c) := by
            intro hempty
            have hshape := hg.orderly.shaped c
            rw [hrow, ← hnum, ← hready] at hshape
            rw [hrow, ← hnum] at hempty
            rw [hrow, ← hready] at hopen
            rw [first_empty hshape hopen hempty] at hcat
            cases hcat
          obtain ⟨ev, hev⟩ := Entry.category_eq_reserved_iff.mp hcat
          rw [← hfirst] at hev
          simp only [reduceCtorEq, if_false, pyAssert_of, ok_bind]
          rcases hg.evictReserved hev hopen hbefore (hevict hnoempty) with
            ⟨inv1, dst, hok1, hw1, hc1, ho1, hframe1, hfree, hslot1⟩ | ⟨hok1, hno⟩
          · have hsrc1 : inv1.slot (c, buffer.getFirstNonOccupied) = .empty := by
              rw [hslot1, fill_apply, if_pos rfl]
            have hrow1 : ∀ i, i < buffer.getFirstNonOccupied → inv1.row c i = .occupied := by
              intro i hi
              have hocc := hbefore i hi
              have hne : (c, i) ≠ dst := by
                rintro rfl
                rw [row_eq, hfree] at hocc
                cases hocc
              rw [row_eq, hslot1, fill_apply,
                if_neg fun h => absurd (congrArg Prod.snd h) (by simp; omega), if_neg hne]
              exact hocc
            have hnew1 : inv1.dataTracker.get? info.promptId = none := by
              cases htr : inv1.dataTracker.get? info.promptId with
              | none => rfl
              | some l =>
                  -- a moved entry is an old entry, so the prompt would have been tracked before
                  have hl := hw1.content_of_tracked htr
                  unfold content at hl
                  rw [hslot1, fill_apply] at hl
                  have hold : ∃ l0, inv.content l0 = some info.promptId := by
                    split at hl
                    · cases hl
                    · split at hl
                      · exact ⟨_, hl⟩
                      · exact ⟨_, hl⟩
                  obtain ⟨l0, hl0⟩ := hold
                  rw [(hg.wf.tracked _ l0).mpr hl0] at hnew
                  cases hnew
            obtain ⟨n, inv', hok, hg', hframe, hslot⟩ := ho1.finishOccupy
              (by rw [hframe1.config]; exact hg.training) hw1 hc1
              ((hframe1.has c).mpr ⟨buffer, hget⟩)
              (by rw [hframe1.config]; omega) hsrc1 hrow1 hnew1
            simp only [hok1, ok_bind, hok]
            exact .inl ⟨c, _, n, inv', List.mem_cons_self .., rfl, hg',
              placed_of_evict (hframe1.trans hframe) hev hfree (by rw [hslot, hslot1])⟩
          · simp only [hok1, ok_bind]
            rcases Good.occupyRedundantLoop hg hnew rest
              (fun d hd => hcand d (List.mem_cons_of_mem _ hd)) with
              ⟨b, e, n, inv', hmem, hok, hrest⟩ | ⟨hok, hall⟩
            · exact .inl ⟨b, e, n, inv', List.mem_cons_of_mem _ hmem, hok, hrest⟩
            · refine .inr ⟨hok, fun d hd => ?_⟩
              rcases List.mem_cons.mp hd with rfl | hd
              · exact ⟨hnoempty, hno⟩
              · exact hall d hd

/-- The redundant branch returns when some candidate can take the group and no eviction
leaves its window. -/
theorem Good.occupyRedundant (order : SetOrder Int) (hg : Good holesOk staleness inv)
    (hnew : inv.dataTracker.get? info.promptId = none)
    (hcand : ∃ c, modelVersion ≤ c ∧ c ≤ modelVersion + staleness ∧ inv.HasBuffer c ∧
      ¬ BatchDone inv.readyNumEntries (inv.row c) ∧
      (HasEmpty inv.numEntries (inv.row c) ∨ ∃ o, inv.Available c o))
    (hevict : ∀ c, modelVersion ≤ c → c ≤ modelVersion + staleness → inv.HasBuffer c →
      ¬ BatchDone inv.readyNumEntries (inv.row c) → ¬ HasEmpty inv.numEntries (inv.row c) →
      inv.EvictionOk staleness c) :
    ∃ b e n inv', inv.occupyRedundant order info modelVersion = .ok ((b, e, n), inv') ∧
      Good holesOk staleness inv' ∧ modelVersion ≤ b ∧ b ≤ modelVersion + staleness ∧
      Placed inv inv' info (b, e) := by
  have hstale : inv.getStaleness = .ok staleness := by
    unfold getStaleness
    rw [hg.training.stale]
  obtain ⟨candidates, hcandidates⟩ : ∃ l, l = (order.toList inv.getBuffersNotReady).filter
    fun b => decide ((modelVersion ≤ b ∧ b ≤ modelVersion + staleness) ∧ inv.isOpen b = true) :=
    ⟨_, rfl⟩
  have hmem : ∀ c, c ∈ candidates ↔ (modelVersion ≤ c ∧ c ≤ modelVersion + staleness) ∧
      inv.HasBuffer c ∧ ¬ BatchDone inv.readyNumEntries (inv.row c) := by
    intro c
    rw [hcandidates, List.mem_filter, order.mem_toList, hg.mem_notReady, decide_eq_true_eq,
      isOpen_iff hg.wf.sized]
    tauto
  obtain ⟨c, hlow, hhigh, hb, hopen, hroom⟩ := hcand
  have hc := (hmem c).mpr ⟨⟨hlow, hhigh⟩, hb, hopen⟩
  unfold StalenessInventory.occupyRedundant
  simp only [hstale, ok_bind, ← hcandidates]
  rw [pyAssert_of (List.ne_nil_of_mem hc), ok_bind]
  rcases hg.occupyRedundantLoop hnew candidates (fun d hd => by
      obtain ⟨⟨hl, hh⟩, hbd, hopend⟩ := (hmem d).mp hd
      exact ⟨hbd, hopend, fun hno => hevict d hl hh hbd hopend hno⟩) with
    ⟨b, e, n, inv', hbmem, hok, hg', hplaced⟩ | ⟨-, hall⟩
  · obtain ⟨⟨hl, hh⟩, -, -⟩ := (hmem b).mp hbmem
    exact ⟨b, e, n, inv', by simp only [hok, ok_bind], hg', hl, hh, hplaced⟩
  · obtain ⟨hno, hnoavail⟩ := hall c hc
    rcases hroom with hempty | ⟨o, ho⟩
    · exact absurd hempty hno
    · exact absurd ho (hnoavail o)

/-! ### The whole operation -/

/-- Once the prompt at `loc` has given up its reservation, buffer `b` has an `EMPTY` slot. -/
def Room (inv : StalenessInventory) (staleness : Nat) (promptId : Nat) (loc : Int × Nat)
    (modelVersion : Int) (b : Int) : Prop :=
  inv.HasBuffer b ∧ (HasEmpty inv.numEntries (inv.row b) ∨
    FreedBuffer inv staleness promptId loc modelVersion b)

/-- A prompt reserved in a redundant slot can be occupied: some open buffer of its window
has room, or an unmarked buffer before it has room for its boundary reservation; and
wherever a boundary reservation would be evicted, it is not ahead of its new buffer. -/
structure RedundantOk (inv : StalenessInventory) (staleness : Nat) (promptId : Nat)
    (loc : Int × Nat) (modelVersion : Int) : Prop where
  take : ∃ c, modelVersion ≤ c ∧ c ≤ modelVersion + staleness ∧ inv.HasBuffer c ∧
    ¬ BatchDone inv.readyNumEntries (inv.row c) ∧
    (inv.Room staleness promptId loc modelVersion c ∨
      ∃ o, o < c ∧ inv.Room staleness promptId loc modelVersion o ∧
        o ∉ inv.readyForDeleteBufferIds)
  evict : ∀ c, modelVersion ≤ c → c ≤ modelVersion + staleness → inv.HasBuffer c →
    ¬ BatchDone inv.readyNumEntries (inv.row c) →
    ¬ inv.Room staleness promptId loc modelVersion c →
    ∀ o, o < c → inv.Room staleness promptId loc modelVersion o →
      o ∉ inv.readyForDeleteBufferIds →
      (∀ o', o' < c → inv.Room staleness promptId loc modelVersion o' →
        o' ∉ inv.readyForDeleteBufferIds → o' ≤ o) →
      ∀ k ev w, inv.slot (c, k) = .reserved ev → (∀ i, i < k → inv.row c i = .occupied) →
        ev.getEntryVersion = .ok w → w ≤ o

theorem FreedBuffer.unique {promptId : Nat} {loc : Int × Nat} {b b' : Int}
    (h : FreedBuffer inv staleness promptId loc modelVersion b)
    (h' : FreedBuffer inv staleness promptId loc modelVersion b') : b = b' := by
  rcases h with ⟨x, hx, rfl, hmin⟩ | ⟨hnone, rfl⟩
  · rcases h' with ⟨y, hy, rfl, hmin'⟩ | ⟨hnone, -⟩
    · exact le_antisymm (hmin y hy) (hmin' x hx)
    · exact absurd hx (hnone x)
  · rcases h' with ⟨y, hy, -, -⟩ | ⟨-, rfl⟩
    · exact absurd hy (hnone y)
    · rfl

theorem Cleared.batchDone_iff {promptId : Nat} {loc hole : Int × Nat}
    (h : Cleared staleness inv inv' promptId loc hole)
    (hres : inv.row loc.1 loc.2 = .reserved) (b : Int) :
    BatchDone inv'.readyNumEntries (inv'.row b) ↔ BatchDone inv.readyNumEntries (inv.row b) := by
  rw [h.frame.config, h.row]
  split
  · rename_i hb
    subst hb
    exact batchDone_update_iff (by rw [h.was, hres]; simp) (by simp)
  · rfl

/-- After the reservation is given up, the buffers with an `EMPTY` slot are those with room. -/
theorem Cleared.room_iff {promptId : Nat} {loc hole : Int × Nat} (hw : inv.Wf)
    (h : Cleared staleness inv inv' promptId loc hole)
    (hres : inv.row loc.1 loc.2 = .reserved)
    (hfreed : FreedBuffer inv staleness promptId loc modelVersion hole.1) (b : Int) :
    (inv'.HasBuffer b ∧ HasEmpty inv'.numEntries (inv'.row b)) ↔
      inv.Room staleness promptId loc modelVersion b := by
  unfold Room
  rw [h.frame.has, h.frame.config]
  refine and_congr_right fun _ => ?_
  have hhole : hole.2 < inv.numEntries :=
    (hasBuffer_of_slot hw.sized fun (hempty : inv.slot hole = .empty) => by
      have hcat := h.was.trans hres
      rw [row_eq, hempty] at hcat
      cases hcat).2
  rw [h.row]
  split
  · rename_i hb
    subst hb
    refine ⟨fun _ => .inr hfreed, fun _ => ⟨hole.2, hhole, by simp⟩⟩
  · rename_i hb
    exact ⟨.inl, fun hor => hor.elim id fun hf => absurd (hf.unique hfreed) hb⟩

/-- What occupying does: the group sits finished at `loc`, no finished group moved, every
reservation is an old one of another prompt, and no prompt changed its category. -/
structure OccupyEffect (inv inv' : StalenessInventory) (info : EntryInfo) (loc : Int × Nat) :
    Prop where
  frame : Frame inv inv'
  placed : inv'.slot loc = .occupied info
  occupied : ∀ l i, inv'.slot l = .occupied i ↔ inv.slot l = .occupied i ∨ l = loc ∧ i = info
  reserved : ∀ l i, inv'.slot l = .reserved i →
    i.promptId ≠ info.promptId ∧ ∃ l0, inv.slot l0 = .reserved i
  others : ∀ q, q ≠ info.promptId → inv'.promptCategory q = inv.promptCategory q

theorem Placed.promptCategory {loc : Int × Nat} (h : Placed inv inv' info loc) (hw : inv.Wf)
    (hw' : inv'.Wf) {q : Nat} (hq : q ≠ info.promptId) :
    inv'.promptCategory q = inv.promptCategory q := by
  cases hcat : inv.promptCategory q with
  | none =>
      have hnone := hw.promptCategory_eq_none.mp hcat
      refine hw'.promptCategory_eq_none.mpr fun l hl => ?_
      have hne : l ≠ loc := by
        rintro rfl
        unfold content at hl
        rw [h.placed] at hl
        exact hq (Option.some.inj hl).symm
      obtain ⟨l0, hl0⟩ := h.origin l hne (slot_ne_empty_of_content hl)
      exact hnone l0 ((content_of_slot_eq hl0).trans hl)
  | some c =>
      obtain ⟨l, -, hl, rfl⟩ := hw.of_promptCategory hcat
      obtain ⟨l', hl'⟩ := h.kept l (slot_ne_empty_of_content hl)
      rw [← hl', hw'.promptCategory_of_slot ((content_of_slot_eq hl').trans hl)]

theorem OccupyEffect.of_cleared {old hole loc : Int × Nat} (hw : inv.Wf)
    (hold : inv.slot old = .reserved info)
    (hcleared : Cleared staleness inv inv1 info.promptId old hole)
    (hstay : OccupiedStay inv inv1 old) (hplaced : Placed inv1 inv' info loc) (hw' : inv'.Wf) :
    OccupyEffect inv inv' info loc where
  frame := hcleared.frame.trans hplaced.frame
  placed := hplaced.placed
  occupied := by
    intro l i
    rw [hplaced.occupied, hstay]
    refine or_congr_left (and_iff_left_of_imp fun hl heq => ?_)
    rw [heq, hold] at hl
    cases hl
  reserved := by
    intro l i hl
    have hne : l ≠ loc := by
      rintro rfl
      rw [hplaced.placed] at hl
      cases hl
    obtain ⟨l1, hl1⟩ := hplaced.origin l hne (by rw [hl]; simp)
    obtain ⟨l0, hl0, heq, -⟩ := hcleared.origin l1 (by rw [hl1, hl]; simp)
    have hi : inv.slot l0 = .reserved i := heq.trans (hl1.trans hl)
    refine ⟨fun hp => hl0 (hw.tracked.unique (k := info.promptId) ?_ hcleared.here), l0, hi⟩
    unfold content
    rw [hi, ← hp]
    rfl
  others := fun q hq => (hplaced.promptCategory hcleared.wf hw' hq).trans
    (hcleared.promptCategory hw hq)

/-- The state after the reservation was given up. -/
structure GaveUp (staleness : Nat) (inv inv1 : StalenessInventory) (info : EntryInfo)
    (old : Int × Nat) (modelVersion : Int) (hole : Int × Nat) : Prop where
  cleared : Cleared staleness inv inv1 info.promptId old hole
  held : inv.slot old = .reserved info
  freed : FreedBuffer inv staleness info.promptId old modelVersion hole.1

section GaveUp

variable {old hole : Int × Nat}

section

variable (h : GaveUp staleness inv inv1 info old modelVersion hole)

include h

theorem GaveUp.reserved : inv.row old.1 old.2 = .reserved := by
  rw [row_eq, h.held]
  rfl

theorem GaveUp.available_iff (hw : inv.Wf) (c o : Int) :
    inv1.Available c o ↔ o < c ∧ inv.Room staleness info.promptId old modelVersion o ∧
      o ∉ inv.readyForDeleteBufferIds := by
  unfold Available
  rw [← h.cleared.room_iff hw h.reserved h.freed o, h.cleared.frame.marks, and_assoc]

theorem GaveUp.open_iff (c : Int) :
    (inv1.HasBuffer c ∧ ¬ BatchDone inv1.readyNumEntries (inv1.row c)) ↔
      inv.HasBuffer c ∧ ¬ BatchDone inv.readyNumEntries (inv.row c) := by
  rw [h.cleared.frame.has, h.cleared.batchDone_iff h.reserved]

/-- The boundary reservation of an open buffer without room is the one it was before. -/
theorem GaveUp.boundary (hold : inv.readyNumEntries ≤ old.2) {c : Int} {k : Nat} {ev : EntryInfo}
    (hne : c ≠ hole.1) (hopen : ¬ BatchDone inv.readyNumEntries (inv.row c))
    (hev : inv1.slot (c, k) = .reserved ev) (hbefore : ∀ i, i < k → inv1.row c i = .occupied) :
    inv.slot (c, k) = .reserved ev ∧ ∀ i, i < k → inv.row c i = .occupied := by
  have hrow : inv1.row c = inv.row c := by rw [h.cleared.row, if_neg hne]
  rw [hrow] at hbefore
  -- the boundary lies inside the batch, so it is not the slot that was cleared
  have hklt : k < old.2 := by
    by_contra hge
    exact hopen fun i hi => hbefore i (by omega)
  have hkne : (c, k) ≠ old := by
    rintro rfl
    exact absurd hklt (lt_irrefl _)
  exact ⟨by rw [← h.cleared.unchanged (c, k) hne hkne]; exact hev, hbefore⟩

/-- An eviction admissible before is admissible after the reservation was given up. -/
theorem GaveUp.evictionOk (hg : Good holesOk staleness inv) (hold : inv.readyNumEntries ≤ old.2)
    (hok : inv.RedundantOk staleness info.promptId old modelVersion) {c : Int}
    (hlow : modelVersion ≤ c) (hhigh : c ≤ modelVersion + staleness) (hb : inv1.HasBuffer c)
    (hopen : ¬ BatchDone inv1.readyNumEntries (inv1.row c))
    (hfull : ¬ HasEmpty inv1.numEntries (inv1.row c)) : inv1.EvictionOk staleness c := by
  intro other hav hlargest k ev hev hbefore
  obtain ⟨hb0, hopen0⟩ := (h.open_iff c).mp ⟨hb, hopen⟩
  have hnoroom : ¬ inv.Room staleness info.promptId old modelVersion c := fun hr =>
    hfull ((h.cleared.room_iff hg.wf h.reserved h.freed c).mpr hr).2
  have hne : c ≠ hole.1 := by
    rintro rfl
    exact hnoroom ⟨hb0, .inr h.freed⟩
  obtain ⟨hev0, hbefore0⟩ := h.boundary hold hne hopen0 hev hbefore
  obtain ⟨hoc, hroom, hmark⟩ := (h.available_iff hg.wf c other).mp hav
  have hwin := hg.orderly.window c k ev hev0
  obtain ⟨w, hw, -, -⟩ := hwin.version
  have hle := hok.evict c hlow hhigh hb0 hopen0 hnoroom other hoc hroom hmark
    (fun o' ho' hr' hm' => hlargest o' ((h.available_iff hg.wf c o').mpr ⟨ho', hr', hm'⟩))
    k ev w hev0 hbefore0 hw
  refine ⟨fun v hv => ?_, w, (EntryInfo.getEntryVersion_eq_ok.mp hw).1, hle⟩
  have := hwin.1 v hv
  omega

/-- A group that was reserved in a redundant slot finds its place. -/
theorem GaveUp.occupyRedundant (order : SetOrder Int)
    (hg : Good holesOk staleness inv) (hg1 : Good holesOk staleness inv1)
    (hold : inv.readyNumEntries ≤ old.2)
    (hok : inv.RedundantOk staleness info.promptId old modelVersion)
    (hnew : inv1.dataTracker.get? info.promptId = none) :
    ∃ b e n inv', inv1.occupyRedundant order info modelVersion = .ok ((b, e, n), inv') ∧
      Good holesOk staleness inv' ∧ modelVersion ≤ b ∧ b ≤ modelVersion + staleness ∧
      Placed inv1 inv' info (b, e) := by
  refine hg1.occupyRedundant order hnew ?_ fun c hlow hhigh hb hopen hfull =>
    h.evictionOk hg hold hok hlow hhigh hb hopen hfull
  obtain ⟨c, hlow, hhigh, hb, hopen, hroom⟩ := hok.take
  obtain ⟨hb1, hopen1⟩ := (h.open_iff c).mpr ⟨hb, hopen⟩
  refine ⟨c, hlow, hhigh, hb1, hopen1, ?_⟩
  rcases hroom with hroom | ⟨o, hoc, hroom, hmark⟩
  · exact .inl ((h.cleared.room_iff hg.wf h.reserved h.freed c).mpr hroom).2
  · exact .inr ⟨o, (h.available_iff hg.wf c o).mpr ⟨hoc, hroom, hmark⟩⟩

/-- A group that was reserved inside the batch finds its place: the freed slot itself is in
an open buffer of its window. -/
theorem GaveUp.occupyInBatch (hg : Good holesOk staleness inv) (hg1 : Good holesOk staleness inv1)
    (hold : old.2 < inv.readyNumEntries)
    (hhole : hole = old ∨ ¬ BatchDone inv.readyNumEntries (inv.row hole.1))
    (hlow : modelVersion ≤ hole.1) (hhigh : hole.1 ≤ modelVersion + staleness)
    (hnew : inv1.dataTracker.get? info.promptId = none) :
    ∃ b e n inv', inv1.occupyInBatch info modelVersion = .ok ((b, e, n), inv') ∧
      Good holesOk staleness inv' ∧ modelVersion ≤ b ∧ b ≤ modelVersion + staleness ∧
      Placed inv1 inv' info (b, e) := by
  have hopen : ¬ BatchDone inv.readyNumEntries (inv.row hole.1) := by
    rcases hhole with rfl | hopen
    · intro hd
      have := hd hole.2 hold
      rw [h.reserved] at this
      cases this
    · exact hopen
  have hb : inv.HasBuffer hole.1 :=
    (hasBuffer_of_slot hg.wf.sized fun (hempty : inv.slot hole = .empty) => by
      have hcat := h.cleared.was.trans h.reserved
      rw [row_eq, hempty] at hcat
      cases hcat).1
  obtain ⟨hb1, hopen1⟩ := (h.open_iff hole.1).mpr ⟨hb, hopen⟩
  have hroom := (h.cleared.room_iff hg.wf h.reserved h.freed hole.1).mpr ⟨hb, .inr h.freed⟩
  exact hg1.occupyInBatch hnew ⟨hole.1, hlow, hhigh, hb1, hroom.2, hopen1⟩

end

end GaveUp

theorem Good.havePossibleOccupyTarget (hg : Good holesOk staleness inv)
    (htarget : ∃ c, modelVersion ≤ c ∧ c ≤ modelVersion + staleness ∧ inv.HasBuffer c ∧
      ¬ BatchDone inv.readyNumEntries (inv.row c)) :
    inv.havePossibleOccupyTarget modelVersion = .ok true := by
  have hstale : inv.getStaleness = .ok staleness := by
    unfold getStaleness
    rw [hg.training.stale]
  obtain ⟨c, hlow, hhigh, hb, hopen⟩ := htarget
  unfold StalenessInventory.havePossibleOccupyTarget
  simp only [hg.training.train, Bool.false_eq_true, if_false, hstale, ok_bind, Except.ok.injEq,
    List.any_eq_true]
  exact ⟨c, Int.mem_range_iff.mpr (by omega), (isOpen_iff hg.wf.sized).mpr ⟨hb, hopen⟩⟩

/-- `occupy_data_with_reserve` of a reservation at `(bid, eid)` of a good inventory. -/
theorem Good.occupyDataWithReserve (order : SetOrder Int) (hg : Good holesOk staleness inv)
    (hloc : inv.slot (bid, eid) = .reserved info)
    (hversion : info.getEntryVersion = .ok modelVersion)
    (htarget : ∃ c, modelVersion ≤ c ∧ c ≤ modelVersion + staleness ∧ inv.HasBuffer c ∧
      ¬ BatchDone inv.readyNumEntries (inv.row c))
    (hfirst : ¬ holesOk → BatchDone inv.readyNumEntries (inv.row bid) →
      (∀ x, ¬ Exchangeable inv staleness info.promptId (bid, eid) modelVersion x) →
      ∀ i, inv.row bid i = .reserved → eid ≤ i)
    (hredundant : inv.readyNumEntries ≤ eid →
      inv.RedundantOk staleness info.promptId (bid, eid) modelVersion) :
    ∃ b e n inv', inv.occupyDataWithReserve order info.promptId = .ok ((b, e, n), inv') ∧
      Good holesOk staleness inv' ∧ modelVersion ≤ b ∧ b ≤ modelVersion + staleness ∧
      OccupyEffect inv inv' info (b, e) := by
  have htracked : inv.dataTracker.get? info.promptId = some (bid, eid) :=
    (hg.wf.tracked _ _).mpr (by unfold content; rw [hloc]; rfl)
  have hinfo : inv.entryInfoAt bid eid = .ok info :=
    entryInfoAt_eq_ok.mpr (by rw [hloc]; rfl)
  obtain ⟨inv1, hole, hok1, hg1, hcleared, hstay, hfreed, hhole, hlow, hhigh⟩ :=
    hg.clearAcross hloc hversion hfirst
  have hgave : GaveUp staleness inv inv1 info (bid, eid) modelVersion hole :=
    ⟨hcleared, hloc, hfreed⟩
  have hnew : inv1.dataTracker.get? info.promptId = none :=
    Option.map_eq_none_iff.mp (hcleared.gone hg.wf)
  obtain ⟨buffer, hget⟩ := (hcleared.frame.has bid).mpr (hg.wf.hasBuffer_of_tracked htracked).1
  have hready : buffer.readyNumEntries = inv.readyNumEntries := by
    rw [(hg1.wf.sized _ _ hget).2, hcleared.frame.config]
  unfold StalenessInventory.occupyDataWithReserve
  simp only [htracked, hinfo, hversion, hg.havePossibleOccupyTarget htarget, pyAssert_of, ok_bind,
    hg.training.train, Bool.not_false, hok1, Dict.get_eq_ok.mpr hget, hready]
  split
  · rename_i hbatch
    obtain ⟨b, e, n, inv', hok, hg', hl, hh, hplaced⟩ :=
      hgave.occupyInBatch hg hg1 hbatch hhole hlow hhigh hnew
    exact ⟨b, e, n, inv', hok, hg', hl, hh, .of_cleared hg.wf hloc hcleared hstay hplaced hg'.wf⟩
  · rename_i hbatch
    have hold : inv.readyNumEntries ≤ eid := Nat.not_lt.mp hbatch
    obtain ⟨b, e, n, inv', hok, hg', hl, hh, hplaced⟩ :=
      hgave.occupyRedundant order hg hg1 hold (hredundant hold) hnew
    exact ⟨b, e, n, inv', hok, hg', hl, hh, .of_cleared hg.wf hloc hcleared hstay hplaced hg'.wf⟩

/-- If `occupy_data_with_reserve` returns, some buffer of the window was open. -/
theorem Good.target_of_occupy {order : SetOrder Int} (hg : Good holesOk staleness inv)
    (hloc : inv.slot (bid, eid) = .reserved info)
    (hversion : info.getEntryVersion = .ok modelVersion)
    (hfirst : ¬ holesOk → BatchDone inv.readyNumEntries (inv.row bid) →
      (∀ x, ¬ Exchangeable inv staleness info.promptId (bid, eid) modelVersion x) →
      ∀ i, inv.row bid i = .reserved → eid ≤ i)
    {r : (Int × Nat × Nat) × StalenessInventory}
    (hok : inv.occupyDataWithReserve order info.promptId = .ok r) :
    ∃ c, modelVersion ≤ c ∧ c ≤ modelVersion + staleness ∧ inv.HasBuffer c ∧
      ¬ BatchDone inv.readyNumEntries (inv.row c) := by
  have htracked : inv.dataTracker.get? info.promptId = some (bid, eid) :=
    (hg.wf.tracked _ _).mpr (by unfold content; rw [hloc]; rfl)
  have hinfo : inv.entryInfoAt bid eid = .ok info :=
    entryInfoAt_eq_ok.mpr (by rw [hloc]; rfl)
  obtain ⟨inv1, hole, hok1, hg1, hcleared, -, hfreed, -⟩ := hg.clearAcross hloc hversion hfirst
  have hgave : GaveUp staleness inv inv1 info (bid, eid) modelVersion hole :=
    ⟨hcleared, hloc, hfreed⟩
  have hstale : inv1.getStaleness = .ok staleness := by
    unfold getStaleness
    rw [hg1.training.stale]
  unfold StalenessInventory.occupyDataWithReserve at hok
  simp only [htracked, hinfo, hversion, ok_bind, hg.training.train, Bool.not_false, hok1] at hok
  obtain ⟨_, -, hok⟩ := bind_eq_ok.mp hok
  obtain ⟨_, -, hok⟩ := bind_eq_ok.mp hok
  obtain ⟨_, -, hok⟩ := bind_eq_ok.mp hok
  -- both branches only go on with an open buffer of the window, and giving up a
  -- reservation opens no buffer
  suffices h : ∃ c, (modelVersion ≤ c ∧ c ≤ modelVersion + staleness) ∧ inv1.isOpen c = true by
    obtain ⟨c, ⟨hlow, hhigh⟩, hopen⟩ := h
    exact ⟨c, hlow, hhigh, (hgave.open_iff c).mp ((isOpen_iff hg1.wf.sized).mp hopen)⟩
  split at hok
  · unfold StalenessInventory.occupyInBatch occupyFirstFree at hok
    simp only [hg1.training.train, Bool.false_eq_true, if_false, hstale, ok_bind] at hok
    split at hok
    · cases hok
    · rename_i c hc
      exact ⟨c, (Finset.mem_filter.mp (setMin_eq_some.mp hc).1).2⟩
  · unfold StalenessInventory.occupyRedundant at hok
    simp only [hstale, ok_bind] at hok
    obtain ⟨_, hassert, -⟩ := bind_eq_ok.mp hok
    obtain ⟨c, hc⟩ := List.exists_mem_of_ne_nil _ (pyAssert_eq_ok.mp hassert)
    exact ⟨c, of_decide_eq_true (List.mem_filter.mp hc).2⟩

end StalenessInventory

end Psrl
