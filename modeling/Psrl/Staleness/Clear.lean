import Psrl.Staleness.Slots

/-!
# Psrl.Staleness.Clear

What `clear_reserved_entries` and `clear_occupied_entries` do to the slots.

Clearing a prompt frees its slot and refills it from the boundary of the same buffer
(`clearWithinBuffer`, `clearOccupiedEntry`) or with a reservation of an earlier buffer,
whose own slot is refilled in turn (`clearWithExchange`). Either way the net effect on a
*reservation* is `Cleared`: one `RESERVED` slot of one buffer — the hole — becomes
`EMPTY`, and all other reservations are still there, in their buffer or in the slot
that was cleared.
-/

namespace Psrl

open Py

namespace StalenessInventory

open Layout

variable {inv inv' : StalenessInventory} {promptId : Nat} {bid : Int} {eid : Nat}
  {staleness : Nat} {promptIds : List Nat}

theorem mem_addId {ids : List Int} {b b' : Int} : b' ∈ addId ids b ↔ b' ∈ ids ∨ b' = b := by
  unfold addId
  split
  · rename_i hmem
    exact ⟨.inl, fun h => h.elim id fun heq => heq ▸ hmem⟩
  · simp

theorem mem_addId_self (ids : List Int) (b : Int) : b ∈ addId ids b := mem_addId.mpr (.inr rfl)

theorem mem_addId_of_mem {ids : List Int} (b : Int) {b' : Int} (h : b' ∈ ids) :
    b' ∈ addId ids b := mem_addId.mpr (.inl h)

/-! ### Refilling a slot -/

theorem fill_self (slots : Int × Nat → Entry) (loc : Int × Nat) :
    fill slots loc loc = Function.update slots loc .empty := by
  unfold fill
  rw [Function.update_idem]

theorem fill_update {slots : Int × Nat → Entry} {dst src : Int × Nat} (hne : src ≠ dst)
    (entry : Entry) : fill (Function.update slots dst entry) dst src = fill slots dst src := by
  unfold fill
  rw [Function.update_idem, Function.update_of_ne hne]

theorem suffixStart_of_get? (hs : inv.Sized) {buffer : StalenessBuffer}
    (hget : inv.buffers.get? bid = some buffer) :
    buffer.getLastNonReserved + 1 = (suffixStart inv.numEntries (inv.row bid) : Int) := by
  rw [buffer.getLastNonReserved_succ, (hs _ _ hget).1, row_of_get? hget]

/-- Within a buffer the cleared slot is refilled with the first reservation of the suffix. -/
theorem Wf.clearWithinBuffer (hw : inv.Wf)
    (htracked : inv.dataTracker.get? promptId = some (bid, eid))
    (h : inv.clearWithinBuffer promptId bid eid = .ok inv') :
    Rearranged inv inv'
      (fill inv.slot (bid, eid) (bid, min eid (suffixStart inv.numEntries (inv.row bid)))) := by
  obtain ⟨buffer, hget, h⟩ := bind_eq_ok.mp h
  obtain ⟨inv1, hrem, h⟩ := bind_eq_ok.mp h
  have hrem := hw.removeEntry htracked hrem
  rw [suffixStart_of_get? hw.sized (Dict.get_eq_ok.mp hget)] at h
  split at h
  · rename_i hlt
    have hlt : suffixStart inv.numEntries (inv.row bid) < eid := by omega
    obtain ⟨hb, hsize⟩ := hw.hasBuffer_of_tracked htracked
    obtain ⟨hw1, _, hedit⟩ := id hrem
    have hrel := hw1.relocate (by rw [hedit.slot]; simp) ((hedit.has bid).mpr hb)
      (by rw [hedit.numEntries]; exact hsize) h
    rw [hedit.slot, Int.toNat_natCast, fill_update (by simp; omega)] at hrel
    rw [Nat.min_eq_right hlt.le]
    exact hrem.trans hrel
  · rename_i hle
    cases h
    rw [Nat.min_eq_left (by omega), fill_self]
    exact hrem

theorem content_of_reserved (loc : Int × Nat) (h : inv.row loc.1 loc.2 = .reserved) :
    ∃ q, inv.content loc = some q := by
  obtain ⟨info, hinfo⟩ := Entry.category_eq_reserved_iff.mp h
  have hinfo : inv.slot loc = .reserved info := hinfo
  exact ⟨info.promptId, by unfold content; rw [hinfo]; rfl⟩

theorem Wf.clearWithinBuffer_ok (hw : inv.Wf)
    (htracked : inv.dataTracker.get? promptId = some (bid, eid)) :
    ∃ inv', inv.clearWithinBuffer promptId bid eid = .ok inv' := by
  obtain ⟨⟨buffer, hget⟩, hsize⟩ := hw.hasBuffer_of_tracked htracked
  obtain ⟨inv1, hrem⟩ := removeEntry_ok hw.sized ⟨buffer, hget⟩ hsize htracked
  have hget : inv.buffers.get? bid = some buffer := hget
  unfold StalenessInventory.clearWithinBuffer
  rw [Dict.get_eq_ok.mpr hget, ok_bind]
  dsimp only
  rw [hrem, ok_bind, suffixStart_of_get? hw.sized hget]
  split
  · rename_i hlt
    -- the first reservation of the suffix is a different slot, so it is still there
    obtain ⟨hw1, _, hedit⟩ := hw.removeEntry htracked hrem
    obtain ⟨q, hq⟩ := content_of_reserved (bid, suffixStart inv.numEntries (inv.row bid))
      (reserved_of_suffixStart_le le_rfl (by omega))
    have hq1 : inv1.content (bid, suffixStart inv.numEntries (inv.row bid)) = some q := by
      unfold content at hq ⊢
      rw [hedit.slot, Function.update_of_ne (by simp; omega)]
      exact hq
    exact relocate_ok hw1.sized ((hedit.has bid).mpr ⟨buffer, hget⟩)
      (by rw [hedit.numEntries]; exact hsize) hq1
  · exact ⟨inv1, rfl⟩

/-- Across buffers the cleared slot is refilled with the exchanged reservation, and that
one's slot with the first reservation of its buffer's suffix. -/
theorem Wf.clearWithExchange (hw : inv.Wf) {exchange : Int × Nat}
    (htracked : inv.dataTracker.get? promptId = some (bid, eid))
    (hne : exchange ≠ (bid, eid)) (hx : inv.slot exchange ≠ .empty)
    (h : inv.clearWithExchange promptId bid eid exchange = .ok inv') :
    Rearranged inv inv' (fill (fill inv.slot (bid, eid) exchange) exchange
      (exchange.1, min exchange.2 (suffixStart inv.numEntries (inv.row exchange.1)))) := by
  obtain ⟨buffer, hget, h⟩ := bind_eq_ok.mp h
  obtain ⟨inv1, hrem, h⟩ := bind_eq_ok.mp h
  obtain ⟨inv2, hrel, h⟩ := bind_eq_ok.mp h
  rw [suffixStart_of_get? hw.sized (Dict.get_eq_ok.mp hget)] at h
  have hrem := hw.removeEntry htracked hrem
  obtain ⟨hb, hsize⟩ := hw.hasBuffer_of_tracked htracked
  obtain ⟨hw1, _, hedit1⟩ := id hrem
  have hrel := hw1.relocate (by rw [hedit1.slot]; simp) ((hedit1.has bid).mpr hb)
    (by rw [hedit1.numEntries]; exact hsize) hrel
  rw [hedit1.slot, fill_update hne] at hrel
  have hmoved := hrem.trans hrel
  have hfree : inv2.slot exchange = .empty := by
    rw [hmoved.slot, fill_apply, if_pos rfl]
  split at h
  · rename_i hlt
    obtain ⟨hw2, _, hedit2⟩ := id hmoved
    obtain ⟨hbx, hltx⟩ := hasBuffer_of_slot hw.sized hx
    have hrel2 := hw2.relocate hfree ((hedit2.has _).mpr hbx)
      (by rw [hedit2.numEntries]; exact hltx) h
    rw [hedit2.slot, Int.toNat_natCast] at hrel2
    rw [Nat.min_eq_right (by omega)]
    exact hmoved.trans hrel2
  · rename_i hle
    cases h
    rw [Nat.min_eq_left (by omega), fill_self, ← hmoved.slot, ← hfree, Function.update_eq_self,
      hmoved.slot]
    exact hmoved

theorem Wf.clearWithExchange_ok (hw : inv.Wf) {exchange : Int × Nat} {q : Nat}
    (htracked : inv.dataTracker.get? promptId = some (bid, eid))
    (hne : exchange ≠ (bid, eid)) (hx : inv.content exchange = some q) :
    ∃ inv', inv.clearWithExchange promptId bid eid exchange = .ok inv' := by
  obtain ⟨hb, hsize⟩ := hw.hasBuffer_of_tracked htracked
  obtain ⟨inv1, hrem⟩ := removeEntry_ok hw.sized hb hsize htracked
  obtain ⟨hbx, hltx⟩ := hasBuffer_of_slot hw.sized (slot_ne_empty_of_content hx)
  obtain ⟨buffer, hget⟩ := hbx
  obtain ⟨hw1, _, hedit1⟩ := hw.removeEntry htracked hrem
  have hx1 : inv1.content exchange = some q := by
    unfold content at hx ⊢
    rw [hedit1.slot, Function.update_of_ne hne]
    exact hx
  obtain ⟨inv2, hrel⟩ : ∃ inv2, inv1.relocate exchange (bid, eid) = .ok inv2 :=
    relocate_ok hw1.sized ((hedit1.has bid).mpr hb) (by rw [hedit1.numEntries]; exact hsize) hx1
  unfold StalenessInventory.clearWithExchange
  rw [Dict.get_eq_ok.mpr hget, ok_bind]
  dsimp only
  rw [hrem, ok_bind, hrel, ok_bind, suffixStart_of_get? hw.sized hget]
  split
  · rename_i hlt
    obtain ⟨hw2, _, hedit2⟩ := hw1.relocate (by rw [hedit1.slot]; simp)
      ((hedit1.has bid).mpr hb) (by rw [hedit1.numEntries]; exact hsize) hrel
    -- the suffix slot was neither cleared nor exchanged, unless it received the exchange
    have hres : inv.row exchange.1 (suffixStart inv.numEntries (inv.row exchange.1)) =
        .reserved := reserved_of_suffixStart_le le_rfl (by omega)
    obtain ⟨q', hq'⟩ : ∃ q', inv2.content
        (exchange.1, suffixStart inv.numEntries (inv.row exchange.1)) = some q' := by
      unfold content
      rw [hedit2.slot, hedit1.slot, fill_update hne, fill_apply,
        if_neg (fun h => absurd (congrArg Prod.snd h) (by simp; omega))]
      split
      · exact ⟨q, hx⟩
      · exact content_of_reserved _ hres
    rw [Int.toNat_natCast]
    exact relocate_ok hw2.sized
      ((hedit2.has _).mpr ((hedit1.has _).mpr ⟨buffer, hget⟩))
      (by rw [hedit2.numEntries, hedit1.numEntries]; exact hltx) hq'
  · exact ⟨inv2, rfl⟩

/-! ### The net effect of clearing -/

/-- The entry of `promptId` at `loc` is gone: the slot `hole` of the same category became
`EMPTY`, every other entry is still there, in its buffer — or, if it was exchanged across
buffers, in `loc`, where its versions are admissible. -/
structure Cleared (staleness : Nat) (inv inv' : StalenessInventory) (promptId : Nat)
    (loc hole : Int × Nat) : Prop where
  frame : Frame inv inv'
  wf : inv'.Wf
  here : inv.content loc = some promptId
  was : inv.row hole.1 hole.2 = inv.row loc.1 loc.2
  row : ∀ b, inv'.row b =
    if b = hole.1 then Function.update (inv.row b) hole.2 .empty else inv.row b
  kept : ∀ l, l ≠ loc → inv.slot l ≠ .empty → ∃ l', inv'.slot l' = inv.slot l
  origin : ∀ l, inv'.slot l ≠ .empty → ∃ l0, l0 ≠ loc ∧ inv.slot l0 = inv'.slot l ∧
    (l0.1 = l.1 ∨ l = loc ∧ ∃ info, inv.slot l0 = .reserved info ∧ info.InWindow staleness loc.1)
  unchanged : ∀ l, l.1 ≠ hole.1 → l ≠ loc → inv'.slot l = inv.slot l

/-- Except at `loc`, finished groups stay where they are. -/
def OccupiedStay (inv inv' : StalenessInventory) (loc : Int × Nat) : Prop :=
  ∀ l info, inv'.slot l = .occupied info ↔ inv.slot l = .occupied info ∧ l ≠ loc

theorem row_eq (inv : StalenessInventory) (b : Int) (e : Nat) :
    inv.row b e = (inv.slot (b, e)).category := rfl

theorem row_fill {slot' : Int × Nat → Entry} {k : Nat} (hslot : inv'.slot = slot')
    (hrows : ∀ b e, (slot' (b, e)).category =
      if (b, e) = (bid, k) then .empty else inv.row b e) (b : Int) :
    inv'.row b = if b = bid then Function.update (inv.row b) k .empty else inv.row b := by
  funext e
  rw [row_eq, hslot, hrows]
  by_cases hb : b = bid
  · subst hb
    rw [if_pos rfl, Function.update_apply]
    by_cases he : e = k <;> simp [he]
  · rw [if_neg hb, if_neg (fun h => hb (congrArg Prod.fst h))]

/-- Refilling a slot from a slot of the same buffer and category. -/
theorem cleared_of_fill {k : Nat} (h : Rearranged inv inv' (fill inv.slot (bid, eid) (bid, k)))
    (hloc : inv.content (bid, eid) = some promptId)
    (hk : inv.row bid k = inv.row bid eid) :
    Cleared staleness inv inv' promptId (bid, eid) (bid, k) where
  frame := h.frame
  wf := h.wf
  here := hloc
  was := hk
  row := by
    refine row_fill h.slot fun b e => ?_
    rw [fill_apply]
    split
    · rfl
    · split
      · rename_i heq
        cases heq
        exact hk
      · rfl
  kept := by
    intro l hl _
    rw [h.slot]
    by_cases hlk : l = (bid, k)
    · subst hlk
      exact ⟨(bid, eid), by rw [fill_apply, if_neg (Ne.symm hl), if_pos rfl]⟩
    · exact ⟨l, by rw [fill_apply, if_neg hlk, if_neg hl]⟩
  origin := by
    intro l hl
    rw [h.slot, fill_apply] at hl ⊢
    split at hl
    · exact absurd rfl hl
    · rename_i hlk
      rw [if_neg hlk]
      split at hl
      · rename_i hll
        subst hll
        exact ⟨(bid, k), Ne.symm hlk, by rw [if_pos rfl], .inl rfl⟩
      · rename_i hll
        exact ⟨l, hll, by rw [if_neg hll], .inl rfl⟩
  unchanged := by
    intro l hb hl
    rw [h.slot, fill_apply, if_neg fun heq => hb (congrArg Prod.fst heq), if_neg hl]

/-- A refill within a buffer leaves every entry in its buffer. -/
theorem origin_of_fill {k : Nat} (h : Rearranged inv inv' (fill inv.slot (bid, eid) (bid, k)))
    (l : Int × Nat) (hl : inv'.slot l ≠ .empty) : ∃ e, inv.slot (l.1, e) = inv'.slot l := by
  rw [h.slot, fill_apply] at hl ⊢
  split at hl
  · exact absurd rfl hl
  · rename_i hlk
    rw [if_neg hlk]
    split
    · rename_i hll
      subst hll
      exact ⟨k, rfl⟩
    · exact ⟨l.2, rfl⟩

/-- A refill moves no finished group if the refilling slot is reserved or the cleared one. -/
theorem occupiedStay_of_fill {k : Nat}
    (h : Rearranged inv inv' (fill inv.slot (bid, eid) (bid, k)))
    (hk : k = eid ∨ inv.row bid k = .reserved) : OccupiedStay inv inv' (bid, eid) := by
  intro l info
  rw [h.slot, fill_apply]
  split
  · rename_i hlk
    subst hlk
    rcases hk with rfl | hk
    · simp
    · obtain ⟨i, hi⟩ := Entry.category_eq_reserved_iff.mp hk
      rw [show inv.slot (bid, k) = .reserved i from hi]
      simp
  · rename_i hlk
    split
    · rename_i hll
      subst hll
      rcases hk with rfl | hk
      · exact absurd rfl hlk
      · obtain ⟨i, hi⟩ := Entry.category_eq_reserved_iff.mp hk
        rw [show inv.slot (bid, k) = .reserved i from hi]
        simp
    · rename_i hll
      exact (and_iff_left hll).symm

theorem fill_fill_apply (slots : Int × Nat → Entry) {loc x y : Int × Nat} (hy : y ≠ loc)
    (hx : x ≠ loc) (l : Int × Nat) :
    fill (fill slots loc x) x y l =
      if l = y then .empty else if l = x then slots y else if l = loc then slots x
      else slots l := by
  rw [fill_apply, fill_apply, fill_apply]
  by_cases hly : l = y
  · rw [if_pos hly, if_pos hly]
  · rw [if_neg hly, if_neg hly]
    by_cases hlx : l = x
    · subst hlx
      rw [if_pos rfl, if_pos rfl, if_neg (Ne.symm hly), if_neg hy]
    · rw [if_neg hlx, if_neg hlx, if_neg hlx]

/-- An exchange of reservations moves no finished group. -/
theorem occupiedStay_of_exchange {loc x y : Int × Nat} {infoX infoY : EntryInfo}
    (hslot : inv'.slot = fill (fill inv.slot loc x) x y) (hyloc : y ≠ loc) (hxloc : x ≠ loc)
    (hx : inv.slot x = .reserved infoX) (hy : inv.slot y = .reserved infoY) :
    OccupiedStay inv inv' loc := by
  intro l i
  rw [hslot, fill_fill_apply inv.slot hyloc hxloc]
  split
  · rename_i hly
    rw [hly, hy]
    simp
  · split
    · rename_i hlx
      rw [hlx, hx, hy]
      simp
    · split
      · rename_i hll
        rw [hx]
        simp [hll]
      · rename_i hll
        exact (and_iff_left hll).symm

/-- Refilling a reserved slot with an admissible reservation of an earlier place, and that
one's slot from its own buffer. -/
theorem cleared_of_exchange {exchange : Int × Nat} {k : Nat} {info infoX infoY : EntryInfo}
    (h : Rearranged inv inv'
      (fill (fill inv.slot (bid, eid) exchange) exchange (exchange.1, k)))
    (hloc : inv.slot (bid, eid) = .reserved info) (hx : inv.slot exchange = .reserved infoX)
    (hk : inv.slot (exchange.1, k) = .reserved infoY) (hle : k ≤ exchange.2)
    (hbefore : exchange.1 = bid → exchange.2 < eid) (hwin : infoX.InWindow staleness bid) :
    Cleared staleness inv inv' info.promptId (bid, eid) (exchange.1, k) ∧
      OccupiedStay inv inv' (bid, eid) := by
  have hxloc : exchange ≠ (bid, eid) := by
    rintro rfl
    exact absurd (hbefore rfl) (by simp)
  have hyloc : (exchange.1, k) ≠ (bid, eid) := by
    intro heq
    have hb := congrArg Prod.fst heq
    have he : k = eid := congrArg Prod.snd heq
    exact absurd (hbefore hb) (by omega)
  have hslot : ∀ l, inv'.slot l = _ := fun l =>
    (congrFun h.slot l).trans (fill_fill_apply inv.slot hyloc hxloc l)
  refine ⟨⟨h.frame, h.wf, by unfold content; rw [hloc]; rfl, by rw [row_eq, row_eq, hk, hloc]; rfl,
    ?_, ?_, ?_, ?_⟩, ?_⟩
  · refine row_fill rfl fun b e => ?_
    rw [hslot]
    split
    · rfl
    · split
      · rename_i heq
        rw [row_eq, heq, hx, hk]
        rfl
      · split
        · rename_i heq
          rw [row_eq, heq, hx, hloc]
          rfl
        · rfl
  · intro l hl _
    by_cases hlx : l = exchange
    · subst hlx
      exact ⟨(bid, eid), by rw [hslot, if_neg (Ne.symm hyloc), if_neg (Ne.symm hl), if_pos rfl]⟩
    · by_cases hly : l = (exchange.1, k)
      · subst hly
        exact ⟨exchange, by rw [hslot, if_neg (Ne.symm hlx), if_pos rfl]⟩
      · exact ⟨l, by rw [hslot, if_neg hly, if_neg hlx, if_neg hl]⟩
  · intro l hl
    rw [hslot] at hl ⊢
    split at hl
    · exact absurd rfl hl
    · rename_i hly
      rw [if_neg hly]
      split at hl
      · rename_i hlx
        subst hlx
        exact ⟨(l.1, k), hyloc, by rw [if_pos rfl], .inl rfl⟩
      · rename_i hlx
        rw [if_neg hlx]
        split at hl
        · rename_i hll
          exact ⟨exchange, hxloc, by rw [if_pos hll], .inr ⟨hll, infoX, hx, hwin⟩⟩
        · rename_i hll
          exact ⟨l, hll, by rw [if_neg hll], .inl rfl⟩
  · intro l hb hl
    have hx' : l ≠ exchange := fun heq => hb (by rw [heq])
    rw [hslot, if_neg fun heq => hb (congrArg Prod.fst heq), if_neg hx', if_neg hl]
  · exact occupiedStay_of_exchange h.slot hyloc hxloc hx hk

theorem content_of_slot_eq {l l0 : Int × Nat} (h : inv.slot l0 = inv'.slot l) :
    inv.content l0 = inv'.content l := by
  unfold content
  rw [h]

/-- The cleared prompt is no longer tracked. -/
theorem Cleared.gone {loc hole : Int × Nat} (hw : inv.Wf)
    (h : Cleared staleness inv inv' promptId loc hole) : inv'.promptCategory promptId = none := by
  refine h.wf.promptCategory_eq_none.mpr fun l hl => ?_
  obtain ⟨l0, hne, hslot, -⟩ := h.origin l (slot_ne_empty_of_content hl)
  refine hne (hw.tracked.unique ?_ h.here)
  rw [content_of_slot_eq hslot]
  exact hl

/-- The other prompts keep their category. -/
theorem Cleared.promptCategory {loc hole : Int × Nat} (hw : inv.Wf)
    (h : Cleared staleness inv inv' promptId loc hole) {q : Nat} (hq : q ≠ promptId) :
    inv'.promptCategory q = inv.promptCategory q := by
  cases hcat : inv.promptCategory q with
  | none =>
      have hnone := hw.promptCategory_eq_none.mp hcat
      refine h.wf.promptCategory_eq_none.mpr fun l hl => ?_
      obtain ⟨l0, -, hslot, -⟩ := h.origin l (slot_ne_empty_of_content hl)
      exact hnone l0 ((content_of_slot_eq hslot).trans hl)
  | some c =>
      obtain ⟨l, -, hl, rfl⟩ := hw.of_promptCategory hcat
      have hne : l ≠ loc := by
        rintro rfl
        exact hq (Option.some.inj (hl.symm.trans h.here))
      obtain ⟨l', hl'⟩ := h.kept l hne (slot_ne_empty_of_content hl)
      rw [← hl', h.wf.promptCategory_of_slot ((content_of_slot_eq hl').trans hl)]

/-! ### Orderly inventories -/

/-- Every buffer is shaped, and every reservation waits inside its staleness window. -/
structure Orderly (holesOk : Prop) (staleness : Nat) (inv : StalenessInventory) : Prop where
  shaped : ∀ b, Shaped holesOk inv.numEntries inv.readyNumEntries (inv.row b)
  window : ∀ b e info, inv.slot (b, e) = .reserved info → info.InWindow staleness b

variable {holesOk : Prop}

theorem Cleared.of_refresh {inv1 : StalenessInventory} {loc hole : Int × Nat}
    (h : Cleared staleness inv inv1 promptId loc hole) (hr : Refresh inv1 inv') :
    Cleared staleness inv inv' promptId loc hole where
  frame := h.frame.trans hr.frame
  wf := hr.wf h.wf
  here := h.here
  was := h.was
  row := fun b => by
    rw [← h.row]
    funext e
    rw [row_eq, row_eq, hr.slot]
  kept := by
    rw [hr.slot]
    exact h.kept
  origin := by
    rw [hr.slot]
    exact h.origin
  unchanged := by
    rw [hr.slot]
    exact h.unchanged

/-- Clearing keeps an inventory orderly if the hole opens at the start of the reserved
suffix of its buffer. -/
theorem Cleared.orderly {loc hole : Int × Nat}
    (h : Cleared staleness inv inv' promptId loc hole) (ho : Orderly holesOk staleness inv)
    (hres : inv.row loc.1 loc.2 = .reserved)
    (hfirst : ¬ (holesOk ∧ BatchDone inv.readyNumEntries (inv.row hole.1)) →
      ∀ i, i < inv.numEntries → inv.row hole.1 i = .reserved → hole.2 ≤ i) :
    Orderly holesOk staleness inv' := by
  refine ⟨fun b => ?_, fun b e info hinfo => ?_⟩
  · rw [h.frame.config, h.row]
    split
    · rename_i hb
      subst hb
      exact (ho.shaped _).clearReserved (h.was.trans hres) hfirst
    · exact ho.shaped b
  · obtain ⟨l0, -, hslot, hcase⟩ := h.origin (b, e) (by rw [hinfo]; simp)
    rw [hinfo] at hslot
    rcases hcase with hb | ⟨hl, info', hinfo', hwin⟩
    · obtain ⟨b0, e0⟩ := l0
      obtain rfl : b0 = b := hb
      exact ho.window b0 e0 info hslot
    · rw [hslot] at hinfo'
      cases hinfo'
      obtain rfl : b = loc.1 := congrArg Prod.fst hl
      exact hwin

/-- Clearing within a buffer: the hole is the cleared slot or the start of the suffix. -/
theorem Wf.cleared_within (staleness : Nat) (hw : inv.Wf)
    (htracked : inv.dataTracker.get? promptId = some (bid, eid))
    (h : inv.clearWithinBuffer promptId bid eid = .ok inv') :
    Cleared staleness inv inv' promptId (bid, eid)
        (bid, min eid (suffixStart inv.numEntries (inv.row bid))) ∧
      OccupiedStay inv inv' (bid, eid) ∧
      ∀ l, inv'.slot l ≠ .empty → ∃ e, inv.slot (l.1, e) = inv'.slot l := by
  have hr := hw.clearWithinBuffer htracked h
  have hlt : eid < inv.numEntries := (hw.hasBuffer_of_tracked htracked).2
  have hcontent := hw.content_of_tracked htracked
  rcases Nat.lt_or_ge eid (suffixStart inv.numEntries (inv.row bid)) with hlt' | hle
  · rw [Nat.min_eq_left hlt'.le] at hr ⊢
    exact ⟨cleared_of_fill hr hcontent rfl, occupiedStay_of_fill hr (.inl rfl), origin_of_fill hr⟩
  · rw [Nat.min_eq_right hle] at hr ⊢
    have hk : inv.row bid (suffixStart inv.numEntries (inv.row bid)) = .reserved :=
      reserved_of_suffixStart_le le_rfl (by omega)
    exact ⟨cleared_of_fill hr hcontent (hk.trans (reserved_of_suffixStart_le hle hlt).symm),
      occupiedStay_of_fill hr (.inr hk), origin_of_fill hr⟩

/-- Clearing a reservation within its buffer keeps an inventory orderly. -/
theorem Orderly.clearWithinBuffer (ho : Orderly holesOk staleness inv) (hw : inv.Wf)
    (htracked : inv.dataTracker.get? promptId = some (bid, eid))
    (hres : inv.row bid eid = .reserved)
    (h : inv.clearWithinBuffer promptId bid eid = .ok inv') :
    Orderly holesOk staleness inv' := by
  refine (hw.cleared_within staleness htracked h).1.orderly ho hres fun hn i _ hi => ?_
  exact (Nat.min_le_right ..).trans (suffixStart_le_of_reserved ((ho.shaped bid).right hn) hi)

end StalenessInventory

end Psrl
