import Psrl.Staleness.Clear

/-!
# Psrl.Staleness.Exchange

Clearing a reservation across buffers, as `occupy_data_with_reserve` does before it puts
the finished group somewhere else.

The search of `clear_reserved_entries(move_across_buffer=True)` looks through the open
buffers of the prompt's staleness window, up to its own buffer, for a reservation that
may wait in the slot about to be freed. `Exchangeable` states what it looks for; in an
orderly inventory the search neither raises nor misses one, and the hole ends up in an
open buffer of the window or in the cleared slot (`Orderly.clearReservedEntry_across`).
-/

namespace Psrl

open Py

namespace StalenessInventory

open Layout

variable {inv inv' : StalenessInventory} {promptId : Nat} {bid : Int} {eid : Nat}
  {staleness : Nat} {promptIds : List Nat} {holesOk : Prop}

/-! ### The search for an exchange -/

theorem findInBuffer_some {other : Int} {x : Nat} : ∀ {entries : List Entry} {k : Nat},
    findInBuffer staleness promptIds bid eid other (entries.zipIdx k) = .ok (some x) →
      ∃ i info, x = k + i ∧ entries[i]? = some (.reserved info) ∧
        info.InWindow staleness bid ∧ info.promptId ∉ promptIds ∧ (other = bid → x < eid)
  | [], _, h => by cases h
  | entry :: rest, k, h => by
      have hrest (h : findInBuffer staleness promptIds bid eid other (rest.zipIdx (k + 1)) =
          .ok (some x)) : ∃ i info, x = k + i ∧ (entry :: rest)[i]? = some (.reserved info) ∧
            info.InWindow staleness bid ∧ info.promptId ∉ promptIds ∧ (other = bid → x < eid) := by
        obtain ⟨i, info, hx, hget, hfound⟩ := findInBuffer_some h
        exact ⟨i + 1, info, by omega, by simpa using hget, hfound⟩
      rw [List.zipIdx_cons] at h
      unfold findInBuffer at h
      split at h
      · cases h
      · rename_i hbreak
        cases entry with
        | empty => exact hrest h
        | occupied info => exact hrest h
        | reserved info =>
            obtain ⟨v, hv, h⟩ := bind_eq_ok.mp h
            split at h
            · rename_i hok
              cases h
              exact ⟨0, info, rfl, rfl, EntryInfo.inWindow_of_version hv hok.1 hok.2.1, hok.2.2,
                fun hb => by omega⟩
            · exact hrest h

theorem findInBuffer_none {other : Int} : ∀ {entries : List Entry} {k : Nat},
    findInBuffer staleness promptIds bid eid other (entries.zipIdx k) = .ok none →
      ∀ i info, entries[i]? = some (.reserved info) → info.InWindow staleness bid →
        (other = bid → k + i < eid) → info.promptId ∈ promptIds
  | [], _, _ => by simp
  | entry :: rest, k, h => by
      have hrest (h : findInBuffer staleness promptIds bid eid other (rest.zipIdx (k + 1)) =
          .ok none) : ∀ i info, rest[i]? = some (.reserved info) → info.InWindow staleness bid →
            (other = bid → k + (i + 1) < eid) → info.promptId ∈ promptIds := by
        intro i info hget hwin hlt
        exact findInBuffer_none h i info hget hwin fun hb => by have := hlt hb; omega
      rw [List.zipIdx_cons] at h
      unfold findInBuffer at h
      intro i info hget hwin hlt
      split at h
      · rename_i hbreak
        exact absurd (hlt hbreak.1) (by omega)
      · cases entry with
        | empty =>
            cases i with
            | zero => simp at hget
            | succ i => exact hrest h i info (by simpa using hget) hwin hlt
        | occupied info' =>
            cases i with
            | zero => simp at hget
            | succ i => exact hrest h i info (by simpa using hget) hwin hlt
        | reserved info' =>
            obtain ⟨v, hv, h⟩ := bind_eq_ok.mp h
            split at h
            · cases h
            · rename_i hnot
              cases i with
              | zero =>
                  obtain rfl : info' = info := by simpa using hget
                  obtain ⟨w, hw, hlow, hup⟩ := hwin.version
                  rw [hv] at hw
                  cases hw
                  by_contra hmem
                  exact hnot ⟨hlow, hup, hmem⟩
              | succ i => exact hrest h i info (by simpa using hget) hwin hlt

theorem findInBuffer_ok {other : Int} : ∀ {entries : List Entry} {k : Nat},
    (∀ info, Entry.reserved info ∈ entries → ∃ v, info.getEntryVersion = .ok v) →
      ∃ r, findInBuffer staleness promptIds bid eid other (entries.zipIdx k) = .ok r
  | [], _, _ => ⟨none, rfl⟩
  | entry :: rest, k, hv => by
      have hrest : ∃ r, findInBuffer staleness promptIds bid eid other (rest.zipIdx (k + 1)) =
          .ok r := findInBuffer_ok fun info hmem => hv info (List.mem_cons_of_mem _ hmem)
      rw [List.zipIdx_cons]
      unfold findInBuffer
      split
      · exact ⟨none, rfl⟩
      · cases entry with
        | empty => exact hrest
        | occupied info => exact hrest
        | reserved info =>
            obtain ⟨v, hv⟩ := hv info (List.mem_cons_self ..)
            simp only [hv, ok_bind]
            split
            · exact ⟨_, rfl⟩
            · exact hrest

/-- A found exchange is a reservation of a buffer whose batch is open, it may wait in the
cleared slot's buffer, and it is not about to be cleared itself. -/
theorem findExchange_some {x : Int × Nat} : ∀ {ids : List Int},
    inv.findExchange staleness promptIds bid eid ids = .ok (some x) →
      x.1 ∈ ids ∧ (∃ buffer, inv.buffers.get? x.1 = some buffer ∧
        buffer.getFirstNonOccupied ≠ buffer.readyNumEntries) ∧
      ∃ info, inv.slot x = .reserved info ∧ info.InWindow staleness bid ∧
        info.promptId ∉ promptIds ∧ (x.1 = bid → x.2 < eid)
  | [], h => by cases h
  | other :: rest, h => by
      have hrest (h : inv.findExchange staleness promptIds bid eid rest = .ok (some x)) :=
        (findExchange_some h).imp_left (List.mem_cons_of_mem other)
      unfold findExchange at h
      split at h
      · exact hrest h
      · rename_i buffer hget
        obtain ⟨status, hstatus, h⟩ := bind_eq_ok.mp h
        split at h
        · exact hrest h
        · rename_i hopen
          obtain ⟨r, hr, h⟩ := bind_eq_ok.mp h
          cases r with
          | none => exact hrest h
          | some e =>
              cases h
              obtain ⟨i, info, rfl, hi, hwin, hmem, hlt⟩ := findInBuffer_some hr
              refine ⟨List.mem_cons_self .., ⟨buffer, hget, ?_⟩, info, ?_, hwin, hmem, hlt⟩
              · exact fun heq => hopen ((StalenessBuffer.getStatus_ready_iff hstatus).mpr heq)
              · rw [Nat.zero_add, slot_of_get? hget]
                exact StalenessBuffer.entryAt_of_getElem? hi

/-- If nothing is found, no reservation of a searched open buffer could be exchanged. -/
theorem findExchange_none : ∀ {ids : List Int},
    inv.findExchange staleness promptIds bid eid ids = .ok none →
      ∀ other ∈ ids, ∀ buffer, inv.buffers.get? other = some buffer →
        buffer.getFirstNonOccupied ≠ buffer.readyNumEntries →
        ∀ i info, inv.slot (other, i) = .reserved info → info.InWindow staleness bid →
          (other = bid → i < eid) → info.promptId ∈ promptIds
  | [], _ => by simp
  | first :: rest, h => by
      have hrest (h : inv.findExchange staleness promptIds bid eid rest = .ok none) :=
        findExchange_none h
      unfold findExchange at h
      intro other hother buffer hget hopen i info hslot hwin hlt
      rcases List.mem_cons.mp hother with rfl | hother
      · simp only [hget] at h
        obtain ⟨status, hstatus, h⟩ := bind_eq_ok.mp h
        rw [if_neg fun hready =>
          hopen ((StalenessBuffer.getStatus_ready_iff hstatus).mp hready)] at h
        obtain ⟨r, hr, h⟩ := bind_eq_ok.mp h
        cases r with
        | some e => cases h
        | none =>
            refine findInBuffer_none hr i info ?_ hwin (by simpa using hlt)
            rw [slot_of_get? hget] at hslot
            exact StalenessBuffer.getElem?_of_entryAt hslot (by simp)
      · refine hrest ?_ other hother buffer hget hopen i info hslot hwin hlt
        split at h
        · exact h
        · obtain ⟨status, hstatus, h⟩ := bind_eq_ok.mp h
          split at h
          · exact h
          · obtain ⟨r, hr, h⟩ := bind_eq_ok.mp h
            cases r with
            | some e => cases h
            | none => exact h

/-- The search goes through the buffers in order and stops at the first that has one. -/
theorem findExchange_first {x : Int × Nat} : ∀ {ids : List Int}, ids.Pairwise (· < ·) →
    inv.findExchange staleness promptIds bid eid ids = .ok (some x) →
      ∀ other ∈ ids, other < x.1 → ∀ buffer, inv.buffers.get? other = some buffer →
        buffer.getFirstNonOccupied ≠ buffer.readyNumEntries →
        ∀ i info, inv.slot (other, i) = .reserved info → info.InWindow staleness bid →
          (other = bid → i < eid) → info.promptId ∈ promptIds
  | [], _, h => by cases h
  | first :: rest, hsorted, h => by
      obtain ⟨hfirst, hsorted⟩ := List.pairwise_cons.mp hsorted
      intro other hother hlt buffer hget hopen i info hslot hwin hpos
      rcases List.mem_cons.mp hother with rfl | hother
      · -- the search passed this buffer, so it found nothing there
        have hnone : inv.findExchange staleness promptIds bid eid [other] = .ok none := by
          unfold findExchange at h ⊢
          simp only [hget] at h ⊢
          obtain ⟨status, hstatus, h⟩ := bind_eq_ok.mp h
          rw [hstatus, ok_bind]
          split at h
          · rename_i hready
            rw [if_pos hready]
            rfl
          · rename_i hready
            rw [if_neg hready]
            obtain ⟨r, hr, h⟩ := bind_eq_ok.mp h
            rw [hr, ok_bind]
            cases r with
            | none => rfl
            | some e =>
                cases h
                exact absurd hlt (lt_irrefl _)
        exact findExchange_none hnone other (List.mem_singleton_self _) buffer hget hopen i info
          hslot hwin hpos
      · refine findExchange_first hsorted ?_ other hother hlt buffer hget hopen i info hslot hwin
          hpos
        unfold findExchange at h
        split at h
        · exact h
        · obtain ⟨status, hstatus, h⟩ := bind_eq_ok.mp h
          split at h
          · exact h
          · obtain ⟨r, hr, h⟩ := bind_eq_ok.mp h
            cases r with
            | none => exact h
            | some e =>
                cases h
                exact absurd (hfirst other hother) (by simp at hlt; omega)

theorem findExchange_ok : ∀ {ids : List Int},
    (∀ other ∈ ids, ∀ buffer, inv.buffers.get? other = some buffer →
      (∃ s, buffer.getStatus = .ok s) ∧
      ∀ i info, inv.slot (other, i) = .reserved info → ∃ v, info.getEntryVersion = .ok v) →
    ∃ r, inv.findExchange staleness promptIds bid eid ids = .ok r
  | [], _ => ⟨none, rfl⟩
  | other :: rest, hv => by
      have hrest := findExchange_ok fun o ho => hv o (List.mem_cons_of_mem _ ho)
      unfold findExchange
      cases hget : inv.buffers.get? other with
      | none => exact hrest
      | some buffer =>
          obtain ⟨⟨s, hs⟩, hversion⟩ := hv other (List.mem_cons_self ..) buffer hget
          simp only [hs, ok_bind]
          split
          · exact hrest
          · obtain ⟨r, hr⟩ : ∃ r, findInBuffer staleness promptIds bid eid other
                buffer.entries.zipIdx = .ok r := findInBuffer_ok fun info hmem => by
                obtain ⟨i, hi⟩ := List.mem_iff_getElem?.mp hmem
                refine hversion i info ?_
                rw [slot_of_get? hget]
                exact StalenessBuffer.entryAt_of_getElem? hi
            rw [hr, ok_bind]
            cases r with
            | none => exact hrest
            | some e => exact ⟨_, rfl⟩

/-! ### Clearing across buffers -/

theorem Orderly.getStatus_ok (ho : Orderly holesOk staleness inv) (hs : inv.Sized)
    {buffer : StalenessBuffer} (hget : inv.buffers.get? bid = some buffer) :
    buffer.getStatus =
      .ok (statusOf inv.numEntries inv.readyNumEntries (inv.row bid)) := by
  have hshape := ho.shaped bid
  obtain ⟨hnum, hready⟩ := hs _ _ hget
  rw [row_of_get? hget, ← hnum, ← hready] at hshape ⊢
  exact StalenessBuffer.getStatus_of_shaped hshape

theorem Orderly.first_eq_ready_iff (ho : Orderly holesOk staleness inv) (hs : inv.Sized)
    {buffer : StalenessBuffer} (hget : inv.buffers.get? bid = some buffer) :
    buffer.getFirstNonOccupied = buffer.readyNumEntries ↔
      BatchDone inv.readyNumEntries (inv.row bid) := by
  have hshape := ho.shaped bid
  obtain ⟨hnum, hready⟩ := hs _ _ hget
  rw [row_of_get? hget, ← hready] at hshape ⊢
  rw [← hnum] at hshape
  exact StalenessBuffer.first_eq_ready_iff hshape

/-- In an orderly inventory the search never raises. -/
theorem Orderly.findExchange_ok (ho : Orderly holesOk staleness inv) (hs : inv.Sized)
    (ids : List Int) :
    ∃ r, inv.findExchange staleness promptIds bid eid ids = .ok r :=
  StalenessInventory.findExchange_ok fun other _ _ hget =>
    ⟨⟨_, ho.getStatus_ok hs hget⟩, fun i info hinfo => by
      obtain ⟨v, hv, -⟩ := (ho.window other i info hinfo).version
      exact ⟨v, hv⟩⟩

/-- A reservation that may take over the slot `loc` of the cleared prompt: it waits in an
open buffer of the prompt's own window, no later than `loc`, and `loc` is admissible for it. -/
structure Exchangeable (inv : StalenessInventory) (staleness : Nat) (promptId : Nat)
    (loc : Int × Nat) (modelVersion : Int) (x : Int × Nat) : Prop where
  low : modelVersion ≤ x.1
  high : x.1 ≤ modelVersion + staleness
  before : x.1 ≤ loc.1
  opened : ¬ BatchDone inv.readyNumEntries (inv.row x.1)
  reserved : ∃ info, inv.slot x = .reserved info ∧ info.InWindow staleness loc.1 ∧
    info.promptId ≠ promptId
  earlier : x.1 = loc.1 → x.2 < loc.2

theorem mem_exchangeRange {modelVersion other : Int} :
    other ∈ exchangeRange modelVersion staleness bid ↔
      modelVersion ≤ other ∧ other ≤ modelVersion + staleness ∧ other ≤ bid := by
  unfold exchangeRange
  rw [Int.mem_range_iff]
  omega

theorem Orderly.exchangeable_of_findExchange (ho : Orderly holesOk staleness inv)
    (hs : inv.Sized) {modelVersion : Int} {x : Int × Nat}
    (h : inv.findExchange staleness [promptId] bid eid
      (exchangeRange modelVersion staleness bid) = .ok (some x)) :
    Exchangeable inv staleness promptId (bid, eid) modelVersion x := by
  obtain ⟨hmem, ⟨buffer, hget, hopen⟩, info, hinfo, hwin, hp, hlt⟩ := findExchange_some h
  obtain ⟨hlow, hhigh, hbefore⟩ := mem_exchangeRange.mp hmem
  exact ⟨hlow, hhigh, hbefore, fun hd => hopen ((ho.first_eq_ready_iff hs hget).mpr hd),
    ⟨info, hinfo, hwin, by simpa using hp⟩, hlt⟩

theorem Orderly.not_exchangeable_of_findExchange (ho : Orderly holesOk staleness inv)
    (hs : inv.Sized) {modelVersion : Int}
    (h : inv.findExchange staleness [promptId] bid eid
      (exchangeRange modelVersion staleness bid) = .ok none) (x : Int × Nat) :
    ¬ Exchangeable inv staleness promptId (bid, eid) modelVersion x := by
  rintro ⟨hlow, hhigh, hbefore, hopen, ⟨info, hinfo, hwin, hp⟩, hlt⟩
  obtain ⟨⟨buffer, hget⟩, -⟩ := hasBuffer_of_slot hs (show inv.slot x ≠ .empty by rw [hinfo]; simp)
  have := findExchange_none h x.1 (mem_exchangeRange.mpr ⟨hlow, hhigh, hbefore⟩) buffer hget
    (fun heq => hopen ((ho.first_eq_ready_iff hs hget).mp heq)) x.2 info hinfo hwin hlt
  exact hp (by simpa using this)

theorem pairwise_exchangeRange {modelVersion : Int} :
    (exchangeRange modelVersion staleness bid).Pairwise (· < ·) := by
  unfold exchangeRange Int.range
  rw [List.pairwise_map]
  exact List.pairwise_lt_range.imp fun h => by omega

/-- Among the exchangeable reservations the search takes one of the first buffer. -/
theorem Orderly.exchangeable_first (ho : Orderly holesOk staleness inv) (hs : inv.Sized)
    {modelVersion : Int} {x y : Int × Nat}
    (h : inv.findExchange staleness [promptId] bid eid
      (exchangeRange modelVersion staleness bid) = .ok (some x))
    (hy : Exchangeable inv staleness promptId (bid, eid) modelVersion y) : x.1 ≤ y.1 := by
  by_contra hlt
  obtain ⟨info, hinfo, hwin, hp⟩ := hy.reserved
  obtain ⟨⟨buffer, hget⟩, -⟩ := hasBuffer_of_slot hs (show inv.slot y ≠ .empty by rw [hinfo]; simp)
  have := findExchange_first pairwise_exchangeRange h y.1
    (mem_exchangeRange.mpr ⟨hy.low, hy.high, hy.before⟩) (by omega) buffer hget
    (fun heq => hy.opened ((ho.first_eq_ready_iff hs hget).mp heq)) y.2 info hinfo hwin hy.earlier
  exact hp (by simpa using this)

/-- The buffer in which clearing the prompt at `loc` across buffers frees a slot: the first
one with an exchangeable reservation, its own if there is none. -/
def FreedBuffer (inv : StalenessInventory) (staleness : Nat) (promptId : Nat) (loc : Int × Nat)
    (modelVersion : Int) (freed : Int) : Prop :=
  (∃ x, Exchangeable inv staleness promptId loc modelVersion x ∧ x.1 = freed ∧
      ∀ y, Exchangeable inv staleness promptId loc modelVersion y → freed ≤ y.1) ∨
    ((∀ x, ¬ Exchangeable inv staleness promptId loc modelVersion x) ∧ freed = loc.1)

/-- `clear_reserved_entries` of one reservation across buffers: it returns, and the hole it
leaves is in an open buffer of the prompt's window, or is the cleared slot itself. -/
theorem Orderly.clearReservedEntry_across (ho : Orderly holesOk staleness inv) (hw : inv.Wf)
    (hstale : inv.staleness = some staleness) {info : EntryInfo} {modelVersion : Int}
    (hloc : inv.slot (bid, eid) = .reserved info)
    (hversion : info.getEntryVersion = .ok modelVersion) (changed : List Int) :
    ∃ inv' changed' hole,
      clearReservedEntry [info.promptId] true (inv, changed) info.promptId =
        .ok (inv', changed') ∧
      Cleared staleness inv inv' info.promptId (bid, eid) hole ∧
      OccupiedStay inv inv' (bid, eid) ∧ (∃ slot', Rearranged inv inv' slot') ∧
      hole.1 ∈ changed' ∧ (∀ b ∈ changed, b ∈ changed') ∧
      ((∃ x, Exchangeable inv staleness info.promptId (bid, eid) modelVersion x ∧
          (∀ y, Exchangeable inv staleness info.promptId (bid, eid) modelVersion y → x.1 ≤ y.1) ∧
          hole = (x.1, min x.2 (suffixStart inv.numEntries (inv.row x.1)))) ∨
        ((∀ x, ¬ Exchangeable inv staleness info.promptId (bid, eid) modelVersion x) ∧
          hole = (bid, eid))) := by
  have htracked : inv.dataTracker.get? info.promptId = some (bid, eid) :=
    (hw.tracked _ _).mpr (by unfold content; rw [hloc]; rfl)
  obtain ⟨⟨buffer, hget⟩, hsize⟩ := hw.hasBuffer_of_tracked htracked
  have hget : inv.buffers.get? bid = some buffer := hget
  have hinfoAt : inv.entryInfoAt bid eid = .ok info := by
    unfold entryInfoAt
    rw [Dict.get_eq_ok.mpr hget, ok_bind, ← slot_of_get? hget, hloc]
    rfl
  have hstaleOk : inv.getStaleness = .ok staleness := by
    unfold getStaleness
    rw [hstale]
  obtain ⟨r, hr⟩ : ∃ r, inv.findExchange staleness [info.promptId] bid eid
      (exchangeRange modelVersion staleness bid) = .ok r := ho.findExchange_ok hw.sized _
  unfold clearReservedEntry
  simp only [htracked, if_true, hinfoAt, hversion, hstaleOk, ok_bind, hr]
  cases r with
  | some x =>
      have hx := ho.exchangeable_of_findExchange hw.sized hr
      obtain ⟨infoX, hinfoX, hwin, -⟩ := hx.reserved
      have hne : x ≠ (bid, eid) := by
        rintro rfl
        exact absurd (hx.earlier rfl) (lt_irrefl _)
      have hcontent : inv.content x = some infoX.promptId := by
        unfold content
        rw [hinfoX]
        rfl
      obtain ⟨inv', hinv'⟩ := hw.clearWithExchange_ok htracked hne hcontent
      have hltx : x.2 < inv.numEntries := (hasBuffer_of_slot hw.sized (by rw [hinfoX]; simp)).2
      -- the slot that is emptied in the exchange buffer is reserved
      have hk : inv.row x.1 (min x.2 (suffixStart inv.numEntries (inv.row x.1))) =
          .reserved := by
        rcases Nat.le_total x.2 (suffixStart inv.numEntries (inv.row x.1)) with hle | hle
        · rw [Nat.min_eq_left hle, row_eq, hinfoX]
          rfl
        · rw [Nat.min_eq_right hle]
          exact reserved_of_suffixStart_le le_rfl (by omega)
      obtain ⟨infoY, hinfoY⟩ := Entry.category_eq_reserved_iff.mp hk
      have hr' := hw.clearWithExchange htracked hne (by rw [hinfoX]; simp) hinv'
      obtain ⟨hcleared, hstay⟩ := cleared_of_exchange hr' hloc hinfoX hinfoY
        (Nat.min_le_left ..) hx.earlier hwin
      refine ⟨inv', addId (addId changed bid) x.1, _, by simp only [hinv', ok_bind], hcleared,
        hstay, ⟨_, hr'⟩, ?_, ?_,
        .inl ⟨x, hx, fun _ => ho.exchangeable_first hw.sized hr, rfl⟩⟩
      · exact mem_addId_self ..
      · exact fun b hb => mem_addId_of_mem _ (mem_addId_of_mem _ hb)
  | none =>
      obtain ⟨inv', hinv'⟩ := removeEntry_ok hw.sized ⟨buffer, hget⟩ hsize htracked
      have hr' := hw.removeEntry htracked hinv'
      rw [← fill_self] at hr'
      refine ⟨inv', addId changed bid, _, by simp only [hinv', ok_bind],
        cleared_of_fill hr' (hw.content_of_tracked htracked) rfl,
        occupiedStay_of_fill hr' (.inl rfl), ⟨_, hr'⟩, mem_addId_self ..,
        fun b hb => mem_addId_of_mem _ hb,
        .inr ⟨ho.not_exchangeable_of_findExchange hw.sized hr, rfl⟩⟩

end StalenessInventory

end Psrl
