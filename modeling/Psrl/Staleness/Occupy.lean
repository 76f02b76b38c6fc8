import Psrl.Staleness.ClearAll
import Psrl.Staleness.Reserve

/-!
# Psrl.Staleness.Occupy

The two halves of `occupy_data_with_reserve` on a good inventory.

The finished group gives up its reservation, which frees a slot of its window
(`Good.clearAcross`, see `Psrl.Staleness.Exchange`), and takes the first free slot of an
open buffer that may still train on its version. `Good.occupyInBatch` is the branch for a
group that was reserved inside the batch; the other one is in `Psrl.Staleness.Redundant`.
-/

namespace Psrl

open Py

namespace StalenessInventory

open Layout

variable {inv inv1 inv' : StalenessInventory} {holesOk : Prop} {staleness : Nat}
  {info : EntryInfo} {modelVersion : Int} {bid : Int} {eid : Nat}

/-! ### Giving up the reservation -/

/-- Clearing one reservation across buffers: the hole opens in the freed buffer. The slots
of a complete batch's buffer are only kept free of holes under `hfirst`. -/
theorem Good.clearAcross (hg : Good holesOk staleness inv)
    (hloc : inv.slot (bid, eid) = .reserved info)
    (hversion : info.getEntryVersion = .ok modelVersion)
    (hfirst : ¬ holesOk → BatchDone inv.readyNumEntries (inv.row bid) →
      (∀ x, ¬ Exchangeable inv staleness info.promptId (bid, eid) modelVersion x) →
      ∀ i, inv.row bid i = .reserved → eid ≤ i) :
    ∃ inv' hole, inv.clearReservedEntries [info.promptId] true = .ok inv' ∧
      Good holesOk staleness inv' ∧
      Cleared staleness inv inv' info.promptId (bid, eid) hole ∧
      OccupiedStay inv inv' (bid, eid) ∧
      FreedBuffer inv staleness info.promptId (bid, eid) modelVersion hole.1 ∧
      (hole = (bid, eid) ∨ ¬ BatchDone inv.readyNumEntries (inv.row hole.1)) ∧
      modelVersion ≤ hole.1 ∧ hole.1 ≤ modelVersion + staleness := by
  have ho := hg.orderly
  obtain ⟨v, hv, hlow, hhigh⟩ := (ho.window bid eid info hloc).version
  obtain rfl : v = modelVersion := Except.ok.inj (hv.symm.trans hversion)
  obtain ⟨inv1, changed, hole, hok, hcleared, hstay, hr, hchanged, -, hcase⟩ :=
    ho.clearReservedEntry_across hg.wf hg.training.stale hloc hversion []
  have ho1 : Orderly holesOk staleness inv1 := by
    refine hcleared.orderly ho (by rw [row_eq, hloc]; rfl) fun hn i hi hres => ?_
    rcases hcase with ⟨x, hx, -, rfl⟩ | ⟨hnone, rfl⟩
    · have hright := (ho.shaped x.1).right fun h => hx.opened h.2
      exact (Nat.min_le_right ..).trans (suffixStart_le_of_reserved hright hres)
    · by_cases hdone : BatchDone inv.readyNumEntries (inv.row bid)
      · exact hfirst (fun hh => hn ⟨hh, hdone⟩) hdone hnone i hres
      · -- an earlier reservation of the open buffer would have been exchanged
        by_contra hlt
        obtain ⟨j, hj⟩ := Entry.category_eq_reserved_iff.mp hres
        have hj : inv.slot (bid, i) = .reserved j := hj
        refine hnone (bid, i) ⟨hhigh, by omega, le_rfl, hdone,
          ⟨j, hj, ho.window bid i j hj, fun hp => ?_⟩, fun _ => by omega⟩
        have hsame : (bid, i) = (bid, eid) := hg.wf.tracked.unique
          (k := info.promptId) (by unfold content; rw [hj, ← hp]; rfl)
          (by unfold content; rw [hloc]; rfl)
        exact absurd (congrArg Prod.snd hsame) (by simp; omega)
  have hc : Cached {b | b ∈ ([] : List Int)} inv := by simpa using hg.cached
  have hc1 : Cached {b | b ∈ changed} inv1 :=
    hcleared.cached hg.wf.sized hr hc hchanged (by simp)
  obtain ⟨inv', hok', href, hg'⟩ := good_of_refresh changed
    (by rw [hcleared.frame.config]; exact hg.training) hcleared.wf hc1 ho1 (fun _ hb => hb)
  refine ⟨inv', hole, ?_, hg', hcleared.of_refresh href, ?_, ?_⟩
  · unfold StalenessInventory.clearReservedEntries
    simp only [hg.training.train, Bool.not_false, Bool.and_true, List.foldlM_cons,
      List.foldlM_nil, hok, ok_bind, pure_eq_ok]
    exact hok'
  · unfold OccupiedStay
    rw [href.slot]
    exact hstay
  · rcases hcase with ⟨x, hx, hmin, rfl⟩ | ⟨hnone, rfl⟩
    · exact ⟨.inl ⟨x, hx, rfl, hmin⟩, .inr hx.opened, hx.low, hx.high⟩
    · exact ⟨.inr ⟨hnone, rfl⟩, .inl rfl, hhigh, by dsimp only; omega⟩

/-! ### Taking a free slot -/

/-- The finished group `info` now sits at `loc`; every other entry is still there, and no
other finished group moved. -/
structure Placed (inv inv' : StalenessInventory) (info : EntryInfo) (loc : Int × Nat) : Prop where
  frame : Frame inv inv'
  placed : inv'.slot loc = .occupied info
  kept : ∀ l, inv.slot l ≠ .empty → ∃ l', inv'.slot l' = inv.slot l
  origin : ∀ l, l ≠ loc → inv'.slot l ≠ .empty → ∃ l0, inv.slot l0 = inv'.slot l
  occupied : ∀ l i, inv'.slot l = .occupied i ↔ inv.slot l = .occupied i ∨ l = loc ∧ i = info

theorem placed_of_update {loc : Int × Nat} (hframe : Frame inv inv')
    (hfree : inv.slot loc = .empty)
    (hslot : inv'.slot = Function.update inv.slot loc (.occupied info)) :
    Placed inv inv' info loc where
  frame := hframe
  placed := by rw [hslot, Function.update_self]
  kept := by
    intro l hl
    refine ⟨l, ?_⟩
    rw [hslot, Function.update_of_ne]
    rintro rfl
    exact hl hfree
  origin := fun l hl _ => ⟨l, by rw [hslot, Function.update_of_ne hl]⟩
  occupied := by
    intro l i
    rw [hslot, Function.update_apply]
    split
    · rename_i hl
      subst hl
      rw [hfree]
      simp [eq_comm]
    · rename_i hl
      simp [hl]

/-- Moving a reservation to a free slot and putting a group into the slot it left. -/
theorem placed_of_evict {src dst : Int × Nat} {ev : EntryInfo} (hframe : Frame inv inv')
    (hsrc : inv.slot src = .reserved ev) (hfree : inv.slot dst = .empty)
    (hslot : inv'.slot = Function.update (fill inv.slot dst src) src (.occupied info)) :
    Placed inv inv' info src := by
  have hne : dst ≠ src := by
    rintro rfl
    rw [hsrc] at hfree
    cases hfree
  have happly : ∀ l, inv'.slot l = if l = src then .occupied info else
      if l = dst then .reserved ev else inv.slot l := by
    intro l
    rw [hslot, Function.update_apply, fill_apply, hsrc]
    by_cases hl : l = src
    · rw [if_pos hl, if_pos hl]
    · rw [if_neg hl, if_neg hl, if_neg hl]
  refine ⟨hframe, by rw [happly, if_pos rfl], fun l hl => ?_, fun l hl hl' => ?_, fun l i => ?_⟩
  · by_cases hls : l = src
    · subst hls
      exact ⟨dst, by rw [happly, if_neg hne, if_pos rfl, hsrc]⟩
    · have hld : l ≠ dst := by
        rintro rfl
        exact hl hfree
      exact ⟨l, by rw [happly, if_neg hls, if_neg hld]⟩
  · by_cases hld : l = dst
    · exact ⟨src, by rw [happly, if_neg hl, if_pos hld, hsrc]⟩
    · exact ⟨l, by rw [happly, if_neg hl, if_neg hld]⟩
  · rw [happly]
    split
    · rename_i hl
      subst hl
      rw [hsrc]
      simp [eq_comm]
    · rename_i hl
      split
      · rename_i hld
        subst hld
        rw [hfree]
        simp [hl]
      · simp [hl]

/-- An open, shaped buffer with an `EMPTY` slot has one at its left boundary. -/
theorem first_empty {buffer : StalenessBuffer}
    (hshape : Shaped holesOk buffer.numEntries buffer.readyNumEntries buffer.categoryAt)
    (hopen : ¬ BatchDone buffer.readyNumEntries buffer.categoryAt)
    (hempty : HasEmpty buffer.numEntries buffer.categoryAt) :
    buffer.categoryAt buffer.getFirstNonOccupied = .empty := by
  obtain ⟨i, hi, hcat⟩ := hempty
  have hle : buffer.getFirstNonOccupied ≤ i := by
    by_contra hlt
    have hocc := buffer.occupied_of_lt_first (Nat.not_le.mp hlt)
    rw [hcat] at hocc
    cases hocc
  rcases Nat.eq_or_lt_of_le hle with heq | hlt
  · rw [heq]
    exact hcat
  · cases hc : buffer.categoryAt buffer.getFirstNonOccupied with
    | empty => rfl
    | occupied => exact absurd hc buffer.not_occupied_first
    | reserved =>
        have hres : buffer.categoryAt i = .reserved :=
          hshape.right (fun hn => hopen hn.2) _ i hlt hi hc
        rw [hcat] at hres
        cases hres

/-- Putting a finished group into the first free slot of an open buffer. -/
theorem Orderly.finishOccupy (ho : Orderly holesOk staleness inv)
    (ht : inv.toInventoryConfig.Training staleness) (hw : inv.Wf) (hc : Cached {bid} inv)
    (hb : inv.HasBuffer bid) (hready : eid < inv.readyNumEntries)
    (hfree : inv.slot (bid, eid) = .empty)
    (hbefore : ∀ i, i < eid → inv.row bid i = .occupied)
    (hnew : inv.dataTracker.get? info.promptId = none) :
    ∃ n inv', inv.finishOccupy info bid eid = .ok ((bid, eid, n), inv') ∧
      Good holesOk staleness inv' ∧ Frame inv inv' ∧
      inv'.slot = Function.update inv.slot (bid, eid) (.occupied info) := by
  have hlt : eid < inv.numEntries := hready.trans_le ht.le
  obtain ⟨inv1, hplace⟩ : ∃ inv1, inv.place info.promptId bid eid (.occupied info) = .ok inv1 :=
    place_ok _ hw.sized hb hlt
  obtain ⟨hw1, _, hedit⟩ := hw.place hfree hnew rfl hplace
  have ho1 : Orderly holesOk staleness inv1 := by
    refine ⟨fun b => ?_, fun b e i hi => ?_⟩
    · rw [hedit.config, row_update hedit.slot]
      split
      · rename_i hbb
        obtain rfl : b = bid := hbb
        exact (ho.shaped b).occupy (by rw [row_eq, hfree]; rfl) hlt hready hbefore
      · exact ho.shaped b
    · rw [hedit.slot, Function.update_apply] at hi
      split at hi
      · cases hi
      · exact ho.window b e i hi
  have hc1 : Cached {bid} inv1 := hc.edit hw.sized hedit fun b hbd => by
    have hne : b ≠ bid := hbd
    exact ⟨hbd, by rw [row_update hedit.slot, if_neg hne]⟩
  obtain ⟨buffer1, hget1⟩ := (hedit.has bid).mpr hb
  obtain ⟨inv', hok, hr, hg'⟩ :=
    good_of_refresh_one (by rw [hedit.config]; exact ht) hw1 hc1 ho1
  refine ⟨buffer1.getFirstNonOccupied, inv', ?_, hg', hedit.toFrame.trans hr.frame,
    hr.slot.trans hedit.slot⟩
  unfold StalenessInventory.finishOccupy
  rw [hplace, ok_bind, Dict.get_eq_ok.mpr hget1, ok_bind]
  dsimp only
  rw [hok, ok_bind]

theorem Cached.mono {dirty dirty' : Set Int} (h : Cached dirty inv) (hsub : dirty ⊆ dirty') :
    Cached dirty' inv :=
  ⟨h.has, h.unique, fun b hb => h.exact b fun hd => hb (hsub hd)⟩

/-- The branch for a group reserved inside the batch. -/
theorem Good.occupyInBatch (hg : Good holesOk staleness inv)
    (hnew : inv.dataTracker.get? info.promptId = none)
    (hcand : ∃ b, modelVersion ≤ b ∧ b ≤ modelVersion + staleness ∧ inv.HasBuffer b ∧
      HasEmpty inv.numEntries (inv.row b) ∧ ¬ BatchDone inv.readyNumEntries (inv.row b)) :
    ∃ b e n inv', inv.occupyInBatch info modelVersion = .ok ((b, e, n), inv') ∧
      Good holesOk staleness inv' ∧ modelVersion ≤ b ∧ b ≤ modelVersion + staleness ∧
      Placed inv inv' info (b, e) := by
  have hstale : inv.getStaleness = .ok staleness := by
    unfold getStaleness
    rw [hg.training.stale]
  have hmem : ∀ b, b ∈ inv.openInWindow modelVersion staleness inv.getBuffersWithCapacity ↔
      (modelVersion ≤ b ∧ b ≤ modelVersion + staleness) ∧ inv.HasBuffer b ∧
        HasEmpty inv.numEntries (inv.row b) ∧ ¬ BatchDone inv.readyNumEntries (inv.row b) := by
    intro b
    unfold openInWindow
    rw [Finset.mem_filter, hg.mem_withCapacity, isOpen_iff hg.wf.sized]
    tauto
  obtain ⟨b, hmin⟩ : ∃ b, setMin (inv.openInWindow modelVersion staleness
      inv.getBuffersWithCapacity) = some b := by
    obtain ⟨b, hlow, hhigh, hb, hempty, hopen⟩ := hcand
    cases hmin : setMin (inv.openInWindow modelVersion staleness inv.getBuffersWithCapacity) with
    | none =>
        have := (hmem b).mpr ⟨⟨hlow, hhigh⟩, hb, hempty, hopen⟩
        rw [setMin_eq_none.mp hmin] at this
        cases this
    | some b => exact ⟨b, rfl⟩
  obtain ⟨⟨hlow, hhigh⟩, ⟨buffer, hget⟩, hempty, hopen⟩ := (hmem b).mp (setMin_eq_some.mp hmin).1
  obtain ⟨hnum, hready⟩ := hg.wf.sized _ _ hget
  have hrow := row_of_get? hget
  have hshape := hg.orderly.shaped b
  rw [hrow, ← hnum, ← hready] at hshape
  rw [hrow, ← hnum] at hempty
  rw [hrow, ← hready] at hopen
  have hcat := first_empty hshape hopen hempty
  have hlt := StalenessBuffer.first_lt_ready_iff.mpr hopen
  have hfree : inv.slot (b, buffer.getFirstNonOccupied) = .empty := by
    rw [slot_of_get? hget]
    exact Entry.category_eq_empty_iff.mp hcat
  obtain ⟨n, inv', hok, hg', hframe, hslot⟩ := hg.orderly.finishOccupy hg.training hg.wf
    (hg.cached.mono (Set.empty_subset {b})) ⟨buffer, hget⟩ (by omega) hfree
    (fun i hi => by rw [hrow]; exact buffer.occupied_of_lt_first hi) hnew
  refine ⟨b, buffer.getFirstNonOccupied, n, inv', ?_, hg', hlow, hhigh,
    placed_of_update hframe hfree hslot⟩
  unfold StalenessInventory.occupyInBatch occupyFirstFree
  simp only [hg.training.train, Bool.false_eq_true, if_false, hstale, ok_bind, hmin,
    Dict.get_eq_ok.mpr hget]
  rw [pyAssert_of ⟨hlt, hcat⟩, ok_bind]
  exact hok

end StalenessInventory

end Psrl
