import Psrl.Staleness.Training

/-!
# Psrl.Staleness.ClearAll

Clearing a list of prompts.

`clear_reserved_entries` without exchange never raises while it clears, whatever the
category of a prompt's slot: the listed prompts lose their slot, all others keep
theirs or move within their buffer (`ClearedAll`). Only the refresh of the statuses at
the end can raise, and it does not in an orderly inventory.
-/

namespace Psrl

open Py

namespace StalenessInventory

open Layout

variable {inv inv1 inv' : StalenessInventory} {holesOk : Prop} {staleness : Nat}
  {promptIds rest : List Nat} {promptId : Nat}

/-- Tracker and cache are exact. -/
structure Consistent (inv : StalenessInventory) : Prop where
  wf : inv.Wf
  cached : Cached ∅ inv

theorem Good.consistent (hg : Good holesOk staleness inv) : inv.Consistent :=
  ⟨hg.wf, hg.cached⟩

/-- The listed prompts have no slot any more, the others keep their category and buffer. -/
structure ClearedAll (inv inv' : StalenessInventory) (promptIds : List Nat) : Prop where
  frame : Frame inv inv'
  gone : ∀ q ∈ promptIds, inv'.promptCategory q = none
  others : ∀ q, q ∉ promptIds → inv'.promptCategory q = inv.promptCategory q
  origin : ∀ l, inv'.slot l ≠ .empty → ∃ e, inv.slot (l.1, e) = inv'.slot l

/-- Finished groups of other prompts stay in their slots. -/
def OccupiedBut (inv inv' : StalenessInventory) (promptIds : List Nat) : Prop :=
  ∀ l info, inv'.slot l = .occupied info ↔ inv.slot l = .occupied info ∧
    info.promptId ∉ promptIds

theorem ClearedAll.nil (inv : StalenessInventory) : ClearedAll inv inv [] :=
  ⟨.refl inv, by simp, fun _ _ => rfl, fun l _ => ⟨l.2, rfl⟩⟩

theorem ClearedAll.cons (h : ClearedAll inv inv1 [promptId]) (h' : ClearedAll inv1 inv' rest) :
    ClearedAll inv inv' (promptId :: rest) where
  frame := h.frame.trans h'.frame
  gone := by
    intro q hq
    by_cases hrest : q ∈ rest
    · exact h'.gone q hrest
    · rw [h'.others q hrest]
      exact h.gone q (by simpa [hrest] using hq)
  others := by
    intro q hq
    rw [List.mem_cons, not_or] at hq
    rw [h'.others q hq.2, h.others q (by simpa using hq.1)]
  origin := by
    intro l hl
    obtain ⟨e1, he1⟩ := h'.origin l hl
    obtain ⟨e, he⟩ := h.origin (l.1, e1) (by rw [he1]; exact hl)
    exact ⟨e, he.trans he1⟩

theorem OccupiedBut.cons (h : OccupiedBut inv inv1 [promptId])
    (h' : OccupiedBut inv1 inv' rest) : OccupiedBut inv inv' (promptId :: rest) := by
  intro l info
  rw [h', h, List.mem_singleton, List.mem_cons, not_or, and_assoc]

theorem ClearedAll.of_refresh (h : ClearedAll inv inv1 promptIds) (hr : Refresh inv1 inv') :
    ClearedAll inv inv' promptIds where
  frame := h.frame.trans hr.frame
  gone := fun q hq => (hr.promptCategory q).trans (h.gone q hq)
  others := fun q hq => (hr.promptCategory q).trans (h.others q hq)
  origin := by
    rw [hr.slot]
    exact h.origin

/-- Clearing an untracked prompt changes nothing. -/
theorem clearedAll_of_untracked (h : inv.dataTracker.get? promptId = none) :
    ClearedAll inv inv [promptId] where
  frame := .refl inv
  gone := by
    intro q hq
    obtain rfl := List.mem_singleton.mp hq
    unfold promptCategory
    rw [h]
    rfl
  others := fun _ _ => rfl
  origin := fun l _ => ⟨l.2, rfl⟩

theorem occupiedBut_of_untracked (hw : inv.Wf) (h : inv.dataTracker.get? promptId = none) :
    OccupiedBut inv inv [promptId] := by
  intro l info
  refine ⟨fun hl => ⟨hl, fun hp => ?_⟩, And.left⟩
  have hcontent : inv.content l = some promptId := by
    unfold content
    rw [hl, ← List.mem_singleton.mp hp]
    rfl
  rw [(hw.tracked promptId l).mpr hcontent] at h
  cases h

/-- A clearing that moved nothing across buffers. -/
theorem Cleared.clearedAll {loc hole : Int × Nat} (hw : inv.Wf)
    (h : Cleared staleness inv inv' promptId loc hole)
    (horigin : ∀ l, inv'.slot l ≠ .empty → ∃ e, inv.slot (l.1, e) = inv'.slot l) :
    ClearedAll inv inv' [promptId] where
  frame := h.frame
  gone := by
    intro q hq
    obtain rfl := List.mem_singleton.mp hq
    exact h.gone hw
  others := fun q hq => h.promptCategory hw (by simpa using hq)
  origin := horigin

theorem OccupiedStay.occupiedBut {loc : Int × Nat} (hw : inv.Wf)
    (hloc : inv.content loc = some promptId) (h : OccupiedStay inv inv' loc) :
    OccupiedBut inv inv' [promptId] := by
  intro l info
  rw [h l info, List.mem_singleton]
  refine and_congr_right fun hl => not_congr ?_
  have hcontent : inv.content l = some info.promptId := by
    unfold content
    rw [hl]
    rfl
  constructor
  · rintro rfl
    exact Option.some.inj (hcontent.symm.trans hloc)
  · intro hp
    exact hw.tracked.unique hcontent (hp ▸ hloc)

theorem Cleared.cached {loc hole : Int × Nat} (hs : inv.Sized) {changed changed' : List Int}
    (h : Cleared staleness inv inv' promptId loc hole) (hr : ∃ slot', Rearranged inv inv' slot')
    (hc : Cached {b | b ∈ changed} inv) (hhole : hole.1 ∈ changed')
    (hsub : ∀ b ∈ changed, b ∈ changed') : Cached {b | b ∈ changed'} inv' := by
  obtain ⟨_, -, _, hedit⟩ := hr
  refine hc.edit hs hedit fun b hb => ⟨fun hb' => hb (hsub b hb'), ?_⟩
  rw [h.row, if_neg]
  rintro rfl
  exact hb hhole

/-- A cleared slot leaves its buffer with an `EMPTY` slot, and no buffer loses one. -/
theorem Cleared.hasEmpty {loc hole : Int × Nat} (hs : inv.Sized)
    (h : Cleared staleness inv inv' promptId loc hole) :
    HasEmpty inv.numEntries (inv'.row hole.1) ∧
      ∀ b, HasEmpty inv.numEntries (inv.row b) → HasEmpty inv.numEntries (inv'.row b) := by
  constructor
  · have hne : inv.slot hole ≠ .empty := by
      intro hempty
      have hwas := h.was
      rw [row_eq, hempty] at hwas
      exact slot_ne_empty_of_content h.here (Entry.category_eq_empty_iff.mp hwas.symm)
    refine ⟨hole.2, (hasBuffer_of_slot hs hne).2, ?_⟩
    · rw [h.row, if_pos rfl, Function.update_self]
  · rintro b ⟨i, hi, hempty⟩
    refine ⟨i, hi, ?_⟩
    rw [h.row]
    split
    · rw [Function.update_apply]
      split
      · rfl
      · exact hempty
    · exact hempty

/-! ### Reservations, without exchange -/

theorem Wf.clearWithinAll (ps : List Nat) : ∀ (todo : List Nat) (changed : List Int)
    {inv : StalenessInventory}, inv.Wf → Cached {b | b ∈ changed} inv →
    ∃ inv' changed', todo.foldlM (clearReservedEntry ps false) (inv, changed) =
        .ok (inv', changed') ∧
      inv'.Wf ∧ Cached {b | b ∈ changed'} inv' ∧ ClearedAll inv inv' todo ∧
      OccupiedBut inv inv' todo ∧
      ((∀ b, HasEmpty inv.numEntries (inv.row b) → HasEmpty inv.numEntries (inv'.row b)) ∧
        ∀ b ∈ changed', b ∈ changed ∨ HasEmpty inv.numEntries (inv'.row b)) ∧
      ∀ holesOk staleness, Orderly holesOk staleness inv →
        (∀ q ∈ todo, inv.promptCategory q ≠ some .occupied) → Orderly holesOk staleness inv'
  | [], changed, inv, hw, hc =>
      ⟨inv, changed, rfl, hw, hc, .nil inv, fun l info => by simp,
        ⟨fun _ h => h, fun _ h => .inl h⟩, fun _ _ ho _ => ho⟩
  | q :: rest, changed, inv, hw, hc => by
      cases htracked : inv.dataTracker.get? q with
      | none =>
          obtain ⟨inv', changed', hok, hw', hc', hall, hocc, hempty, hord⟩ :=
            Wf.clearWithinAll ps rest changed hw hc
          refine ⟨inv', changed', ?_, hw', hc', (clearedAll_of_untracked htracked).cons hall,
            (occupiedBut_of_untracked hw htracked).cons hocc, hempty,
            fun _ _ ho hq => hord _ _ ho fun r hr => hq r (List.mem_cons_of_mem _ hr)⟩
          rw [List.foldlM_cons]
          unfold clearReservedEntry
          simp only [htracked, ok_bind]
          exact hok
      | some loc =>
          obtain ⟨b, e⟩ := loc
          obtain ⟨inv1, h1⟩ := hw.clearWithinBuffer_ok htracked
          obtain ⟨hcleared, hstay, horigin⟩ := hw.cleared_within 0 htracked h1
          have hr : ∃ slot', Rearranged inv inv1 slot' := ⟨_, hw.clearWithinBuffer htracked h1⟩
          have hall1 := hcleared.clearedAll hw horigin
          obtain ⟨inv', changed', hok, hw', hc', hall, hocc, ⟨hempty, hchanged⟩, hord⟩ :=
            Wf.clearWithinAll ps rest (addId changed b) hcleared.wf
              (hcleared.cached hw.sized hr hc (mem_addId_self changed b)
                fun _ hb => mem_addId_of_mem _ hb)
          obtain ⟨hhole, hmono⟩ := hcleared.hasEmpty hw.sized
          rw [show inv1.numEntries = inv.numEntries by rw [hcleared.frame.config]]
            at hempty hchanged
          refine ⟨inv', changed', ?_, hw', hc', hall1.cons hall,
            (hstay.occupiedBut hw (hw.content_of_tracked htracked)).cons hocc,
            ⟨fun c hc => hempty c (hmono c hc), fun c hc => ?_⟩,
            fun holesOk staleness ho hq => hord _ _ ?_ fun r hr => ?_⟩
          · rw [List.foldlM_cons]
            unfold clearReservedEntry
            simp only [htracked, Bool.false_eq_true, if_false, h1, ok_bind]
            exact hok
          · rcases hchanged c hc with hc | hc
            · rcases mem_addId.mp hc with hc | rfl
              · exact .inl hc
              · exact .inr (hempty _ hhole)
            · exact .inr hc
          · -- the cleared prompt was tracked and not finished, so its slot is reserved
            have hcat := hw.promptCategory_of_slot (hw.content_of_tracked htracked)
            have hne := hq q (List.mem_cons_self ..)
            have hslot := slot_ne_empty_of_content (hw.content_of_tracked htracked)
            refine ho.clearWithinBuffer hw htracked ?_ h1
            rw [row_eq]
            cases hentry : inv.slot (b, e) with
            | empty => exact absurd hentry hslot
            | reserved info => rfl
            | occupied info =>
                rw [hentry] at hcat
                exact absurd hcat hne
          · by_cases hrq : r = q
            · subst hrq
              rw [hall1.gone r (List.mem_singleton_self r)]
              simp
            · rw [hall1.others r (by simpa using hrq)]
              exact hq r (List.mem_cons_of_mem _ hr)

/-- `clear_reserved_entries(move_across_buffer=False)` returns, whatever the prompts are: a
buffer that lost an entry has an `EMPTY` slot, so its status is defined. -/
theorem Consistent.clearReservedEntries (hc : inv.Consistent) (promptIds : List Nat) :
    ∃ inv', inv.clearReservedEntries promptIds false = .ok inv' ∧ inv'.Consistent ∧
      ClearedAll inv inv' promptIds ∧ OccupiedBut inv inv' promptIds := by
  obtain ⟨inv1, changed, hok, hw1, hc1, hall, hocc, ⟨-, hchanged⟩, -⟩ :=
    Wf.clearWithinAll promptIds promptIds [] hc.wf (by simpa using hc.cached)
  obtain ⟨inv', hok'⟩ : ∃ inv', inv1.updateBufferStatuses changed = .ok inv' := by
    refine updateBufferStatuses_ok fun b hb buffer hget => ?_
    have hempty := (hchanged b hb).resolve_left List.not_mem_nil
    rw [row_of_get? hget, show inv.numEntries = buffer.numEntries by
      rw [(hw1.sized _ _ hget).1, hall.frame.config]] at hempty
    exact buffer.getStatus_ok_of_hasEmpty hempty
  obtain ⟨hc', hr⟩ := hc1.updateBufferStatuses hok'
  refine ⟨inv', ?_, ⟨hr.wf hw1, by simpa using hc'⟩, hall.of_refresh hr,
    by unfold OccupiedBut; rw [hr.slot]; exact hocc⟩
  unfold StalenessInventory.clearReservedEntries
  simp only [Bool.false_and, hok, ok_bind]
  exact hok'

/-- Clearing reservations of an orderly inventory returns and keeps it orderly. -/
theorem Good.clearReservedEntries (hg : Good holesOk staleness inv)
    (hres : ∀ q ∈ promptIds, inv.promptCategory q ≠ some .occupied) :
    ∃ inv', inv.clearReservedEntries promptIds false = .ok inv' ∧ Good holesOk staleness inv' ∧
      ClearedAll inv inv' promptIds ∧ OccupiedBut inv inv' promptIds := by
  obtain ⟨inv1, changed, hok, hw1, hc1, hall, hocc, -, hord⟩ :=
    Wf.clearWithinAll promptIds promptIds [] hg.wf (by simpa using hg.cached)
  obtain ⟨inv', hok', hr, hg'⟩ := good_of_refresh changed
    (by rw [hall.frame.config]; exact hg.training) hw1 hc1 (hord _ _ hg.orderly hres)
    (fun _ hb => hb)
  refine ⟨inv', ?_, hg', hall.of_refresh hr, by unfold OccupiedBut; rw [hr.slot]; exact hocc⟩
  unfold StalenessInventory.clearReservedEntries
  simp only [Bool.false_and, hok, ok_bind]
  exact hok'

/-! ### Finished groups -/

theorem occupied_lt_first {buffer : StalenessBuffer}
    (hleft : Zones.Left fun i => buffer.categoryAt i = .occupied) {i : Nat}
    (hi : buffer.categoryAt i = .occupied) : i < buffer.getFirstNonOccupied := by
  by_contra hle
  rcases Nat.eq_or_lt_of_le (Nat.not_lt.mp hle) with heq | hlt
  · exact buffer.not_occupied_first (heq ▸ hi)
  · exact buffer.not_occupied_first (hleft _ _ hlt hi)

/-- Clearing a slot of the occupied prefix refills it with the last entry of the prefix. -/
theorem Wf.clearOccupiedSlot (hw : inv.Wf) {b : Int} {e : Nat} {buffer : StalenessBuffer}
    (htracked : inv.dataTracker.get? promptId = some (b, e))
    (hget : inv.buffers.get? b = some buffer) (he : e < buffer.getFirstNonOccupied) :
    ∃ inv', inv.clearOccupiedSlot promptId b e = .ok inv' ∧
      Rearranged inv inv' (fill inv.slot (b, e) (b, buffer.getFirstNonOccupied - 1)) := by
  have hsize : e < inv.numEntries := (hw.hasBuffer_of_tracked htracked).2
  obtain ⟨inv1, hrem⟩ := removeEntry_ok hw.sized ⟨buffer, hget⟩ hsize htracked
  have hr1 := hw.removeEntry htracked hrem
  unfold StalenessInventory.clearOccupiedSlot
  rw [Dict.get_eq_ok.mpr hget, ok_bind]
  dsimp only
  rw [pyAssert_of (by omega), ok_bind, hrem, ok_bind]
  split
  · rename_i hlt
    obtain ⟨hw1, _, hedit⟩ := id hr1
    have hne : (b, buffer.getFirstNonOccupied - 1) ≠ (b, e) := by
      simp only [ne_eq, Prod.mk.injEq, true_and]
      omega
    obtain ⟨q, hq⟩ : ∃ q, inv1.content (b, buffer.getFirstNonOccupied - 1) = some q := by
      have hocc := buffer.occupied_of_lt_first
        (show buffer.getFirstNonOccupied - 1 < buffer.getFirstNonOccupied by omega)
      obtain ⟨i, hi⟩ := Entry.category_eq_occupied_iff.mp hocc
      unfold content
      rw [hedit.slot, Function.update_of_ne hne, slot_of_get? hget, hi]
      exact ⟨i.promptId, rfl⟩
    rw [show ((buffer.getFirstNonOccupied : Int) - 1).toNat = buffer.getFirstNonOccupied - 1
      by omega]
    have hb1 := (hedit.has b).mpr ⟨buffer, hget⟩
    have hsize1 : e < inv1.numEntries := by rw [hedit.numEntries]; exact hsize
    obtain ⟨inv', hrel⟩ : ∃ inv', inv1.relocate (b, buffer.getFirstNonOccupied - 1) (b, e) =
        .ok inv' := relocate_ok hw1.sized hb1 hsize1 hq
    have hmove := hw1.relocate (by rw [hedit.slot]; simp) hb1 hsize1 hrel
    rw [hedit.slot, fill_update hne] at hmove
    exact ⟨inv', hrel, hr1.trans hmove⟩
  · have heq : buffer.getFirstNonOccupied - 1 = e := by omega
    rw [heq, fill_self]
    exact ⟨inv1, rfl, hr1⟩

/-- One iteration of `clear_occupied_entries` on a finished group: the last `OCCUPIED` slot
of the buffer becomes the hole. -/
theorem Wf.clearOccupiedEntry (staleness : Nat) (changed : List Int) (hw : inv.Wf) {b : Int}
    {e : Nat} (htracked : inv.dataTracker.get? promptId = some (b, e))
    (hocc : inv.row b e = .occupied) (hleft : Zones.Left fun i => inv.row b i = .occupied) :
    ∃ inv' k, clearOccupiedEntry (inv, changed) promptId = .ok (inv', addId changed b) ∧
      Cleared staleness inv inv' promptId (b, e) (b, k) ∧ (∃ slot', Rearranged inv inv' slot') ∧
      (∀ i, inv.row b i = .occupied → i ≤ k) ∧
      ∀ l, inv'.slot l ≠ .empty → ∃ e', inv.slot (l.1, e') = inv'.slot l := by
  obtain ⟨⟨buffer, hget⟩, -⟩ := hw.hasBuffer_of_tracked htracked
  have hget : inv.buffers.get? b = some buffer := hget
  have hrow := row_of_get? hget
  rw [hrow] at hocc hleft
  have he := occupied_lt_first hleft hocc
  obtain ⟨inv', hok, hr⟩ := hw.clearOccupiedSlot htracked hget he
  have hcat : inv.row b (buffer.getFirstNonOccupied - 1) = inv.row b e := by
    rw [hrow, hocc]
    exact buffer.occupied_of_lt_first (by omega)
  refine ⟨inv', _, ?_, cleared_of_fill hr (hw.content_of_tracked htracked) hcat, ⟨_, hr⟩,
    fun i hi => ?_, origin_of_fill hr⟩
  · unfold StalenessInventory.clearOccupiedEntry
    simp only [htracked, hok, ok_bind]
  · rw [hrow] at hi
    have := occupied_lt_first hleft hi
    omega

theorem Orderly.clearOccupiedAll : ∀ (todo : List Nat) (changed : List Int)
    {inv : StalenessInventory}, inv.Wf → Cached {b | b ∈ changed} inv →
    Orderly False staleness inv → todo.Nodup →
    (∀ q ∈ todo, inv.promptCategory q = some .occupied) →
    ∃ inv' changed', todo.foldlM clearOccupiedEntry (inv, changed) = .ok (inv', changed') ∧
      inv'.Wf ∧ Cached {b | b ∈ changed'} inv' ∧ ClearedAll inv inv' todo ∧
      Orderly False staleness inv'
  | [], changed, inv, hw, hc, ho, _, _ => ⟨inv, changed, rfl, hw, hc, .nil inv, ho⟩
  | q :: rest, changed, inv, hw, hc, ho, hnodup, hall => by
      obtain ⟨hq, hnodup⟩ := List.nodup_cons.mp hnodup
      obtain ⟨⟨b, e⟩, htracked, -, hcat⟩ := hw.of_promptCategory (hall q (List.mem_cons_self ..))
      obtain ⟨inv1, k, hok1, hcleared, hr, hlast, horigin⟩ :=
        hw.clearOccupiedEntry staleness changed htracked hcat (ho.shaped b).left
      have hall1 := hcleared.clearedAll hw horigin
      have ho1 : Orderly False staleness inv1 := by
        refine ⟨fun b' => ?_, fun b' e' info hinfo => ?_⟩
        · rw [hcleared.frame.config, hcleared.row]
          split
          · rename_i hb
            obtain rfl : b' = b := hb
            exact (ho.shaped b').clearOccupied (hcleared.was.trans hcat) hlast
              ((ho.shaped b').right fun hn => hn.1)
          · exact ho.shaped b'
        · obtain ⟨e0, he0⟩ := horigin (b', e') (by rw [hinfo]; simp)
          exact ho.window b' e0 info (he0.trans hinfo)
      obtain ⟨inv', changed', hok, hw', hc', hall', ho'⟩ :=
        Orderly.clearOccupiedAll rest (addId changed b) hcleared.wf
          (hcleared.cached hw.sized hr hc (mem_addId_self changed b)
            fun _ hb => mem_addId_of_mem _ hb) ho1 hnodup fun r hr => by
          have hne : r ≠ q := fun heq => hq (heq ▸ hr)
          rw [hall1.others r (by simpa using hne)]
          exact hall r (List.mem_cons_of_mem _ hr)
      refine ⟨inv', changed', ?_, hw', hc', hall1.cons hall', ho'⟩
      rw [List.foldlM_cons, hok1, ok_bind]
      exact hok

/-- Clearing finished groups of an orderly inventory returns and keeps it orderly. -/
theorem Good.clearOccupiedEntries (hg : Good False staleness inv) (hnodup : promptIds.Nodup)
    (hocc : ∀ q ∈ promptIds, inv.promptCategory q = some .occupied) :
    ∃ inv', inv.clearOccupiedEntries promptIds = .ok inv' ∧ Good False staleness inv' ∧
      ClearedAll inv inv' promptIds := by
  obtain ⟨inv1, changed, hok, hw1, hc1, hall, ho1⟩ :=
    Orderly.clearOccupiedAll promptIds [] hg.wf (by simpa using hg.cached) hg.orderly hnodup hocc
  obtain ⟨inv', hok', hr, hg'⟩ := good_of_refresh changed
    (by rw [hall.frame.config]; exact hg.training) hw1 hc1 ho1 (fun _ hb => hb)
  refine ⟨inv', ?_, hg', hall.of_refresh hr⟩
  unfold StalenessInventory.clearOccupiedEntries
  simp only [hok, ok_bind]
  exact hok'

end StalenessInventory

end Psrl
