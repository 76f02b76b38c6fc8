import Psrl.Staleness.Occupy

/-!
# Psrl.Staleness.Consistent

What every returning operation keeps, whatever the layout.

`Good` describes inventories that are used as intended. The tracker and the status cache
are more robust: an operation that returns leaves both exact (`Consistent`), also after
holes opened in the reserved suffix or a finished group was cleared as a reservation. Each
operation checks the slots it writes to; the lemmas here turn those checks into the side
conditions of the primitives.
-/

namespace Psrl

open Py

namespace StalenessInventory

variable {inv inv1 inv' : StalenessInventory} {promptId : Nat} {bid : Int} {eid : Nat}
  {changed changed' : List Int}

/-! ### Rules -/

/-- A rearrangement only endangers the cache of the buffers it touches. -/
theorem Cached.rearranged {dirty dirty' : Set Int} {slot' : Int × Nat → Entry} (hs : inv.Sized)
    (hc : Cached dirty inv) (h : Rearranged inv inv' slot') (hsub : dirty ⊆ dirty')
    (hslot : ∀ l, l.1 ∉ dirty' → slot' l = inv.slot l) : Cached dirty' inv' := by
  obtain ⟨-, _, hedit⟩ := h
  refine hc.edit hs hedit fun b hb => ⟨fun hd => hb (hsub hd), ?_⟩
  funext e
  rw [row_eq, row_eq, hedit.slot, hslot (b, e) hb]

/-- Refreshing the touched buffers restores the cache. -/
theorem consistent_of_refresh {dirty : Set Int} {ids : List Int} (hw : inv.Wf)
    (hc : Cached dirty inv) (hdirty : ∀ b ∈ dirty, b ∈ ids)
    (h : inv.updateBufferStatuses ids = .ok inv') : inv'.Consistent ∧ Refresh inv inv' := by
  obtain ⟨hc', hr⟩ := hc.updateBufferStatuses h
  have hempty : {b | b ∈ dirty ∧ b ∉ ids} = ∅ :=
    Set.eq_empty_of_forall_notMem fun b hb => hb.2 (hdirty b hb.1)
  rw [hempty] at hc'
  exact ⟨⟨hr.wf hw, hc'⟩, hr⟩

theorem consistent_of_refresh_one (hw : inv.Wf) (hc : Cached {bid} inv)
    (h : inv.updateBufferStatus bid = .ok inv') : inv'.Consistent ∧ Refresh inv inv' := by
  have hids : inv.updateBufferStatuses [bid] = .ok inv' := by
    unfold updateBufferStatuses
    rw [List.foldlM_cons, h, ok_bind]
    rfl
  exact consistent_of_refresh hw hc (by simp) hids

/-- The finished groups of every buffer are at its left end. -/
def LeftFilled (inv : StalenessInventory) : Prop :=
  ∀ b, Zones.Left fun e => inv.row b e = .occupied

theorem LeftFilled.of_row (h : inv.LeftFilled)
    (hrow : ∀ b e, inv'.row b e = .occupied ↔ inv.row b e = .occupied) : inv'.LeftFilled :=
  fun b i j hij hj => (hrow b i).mpr (h b i j hij ((hrow b j).mp hj))

theorem LeftFilled.of_slot (h : inv.LeftFilled) (hslot : inv'.slot = inv.slot) :
    inv'.LeftFilled :=
  h.of_row fun b e => by rw [row_eq, row_eq, hslot]

/-- Clearing prompts that are not finished. -/
theorem LeftFilled.of_occupiedBut (h : inv.LeftFilled) (hw : inv.Wf) {promptIds : List Nat}
    (hocc : OccupiedBut inv inv' promptIds)
    (hres : ∀ q ∈ promptIds, inv.promptCategory q ≠ some .occupied) : inv'.LeftFilled := by
  refine h.of_row fun b e => ?_
  rw [row_eq, row_eq, Entry.category_eq_occupied_iff, Entry.category_eq_occupied_iff]
  refine exists_congr fun info =>
    (hocc (b, e) info).trans (and_iff_left_of_imp fun hslot hmem => ?_)
  refine hres info.promptId hmem ?_
  have hcontent : inv.content (b, e) = some info.promptId := by
    unfold content
    rw [hslot]
    rfl
  rw [hw.promptCategory_of_slot hcontent, hslot]
  rfl

/-- Clearing the last finished group of a buffer. -/
theorem LeftFilled.cleared (h : inv.LeftFilled) {loc : Int × Nat} {k : Nat}
    (hc : Cleared 0 inv inv' promptId loc (bid, k))
    (hlast : ∀ i, inv.row bid i = .occupied → i ≤ k) : inv'.LeftFilled := by
  intro b i j hij hj
  rw [hc.row] at hj ⊢
  split
  · rename_i hb
    obtain rfl : b = bid := hb
    rw [if_pos rfl, Function.update_apply] at hj
    split at hj
    · cases hj
    · have hle := hlast j hj
      rw [Function.update_of_ne (by omega)]
      exact h b i j hij hj
  · rename_i hb
    rw [if_neg hb] at hj
    exact h b i j hij hj

/-- If every entry that is left comes from another slot than the prompt's, the prompt is
no longer tracked. -/
theorem untracked_of_origin {loc : Int × Nat} (hw : inv.Wf) (hw' : inv'.Wf)
    (htracked : inv.dataTracker.get? promptId = some loc)
    (horigin : ∀ l, inv'.slot l ≠ .empty → ∃ l0, l0 ≠ loc ∧ inv.slot l0 = inv'.slot l) :
    inv'.dataTracker.get? promptId = none := by
  cases hget : inv'.dataTracker.get? promptId with
  | none => rfl
  | some l =>
      have hcontent := hw'.content_of_tracked hget
      obtain ⟨l0, hne, hslot⟩ := horigin l (slot_ne_empty_of_content hcontent)
      exact absurd (hw.tracked.unique ((content_of_slot_eq hslot).trans hcontent)
        (hw.content_of_tracked htracked)) hne

/-- The entry info is stored in some slot. -/
def Holds (inv : StalenessInventory) (info : EntryInfo) : Prop :=
  ∃ l, (inv.slot l).entryInfo? = some info

/-- The entry that tracks a prompt. -/
def entryOf? (inv : StalenessInventory) (promptId : Nat) : Option EntryInfo :=
  (inv.dataTracker.get? promptId).bind fun loc => (inv.slot loc).entryInfo?

theorem Wf.entryOf?_eq_some (hw : inv.Wf) {promptId : Nat} {info : EntryInfo} :
    inv.entryOf? promptId = some info ↔
      info.promptId = promptId ∧ inv.Holds info := by
  unfold entryOf?
  rw [Option.bind_eq_some_iff]
  constructor
  · rintro ⟨loc, htracked, hinfo⟩
    obtain ⟨info0, hinfo0, hp⟩ := hw.entryInfo_of_tracked htracked
    obtain rfl : info0 = info := Option.some.inj (hinfo0.symm.trans hinfo)
    exact ⟨hp, loc, hinfo⟩
  · rintro ⟨rfl, loc, hinfo⟩
    refine ⟨loc, (hw.tracked _ _).mpr ?_, hinfo⟩
    unfold content Entry.promptId?
    rw [hinfo]
    rfl

theorem holds_of_update {loc : Int × Nat} {entry : Entry}
    (hslot : inv'.slot = Function.update inv.slot loc entry) {info : EntryInfo}
    (h : inv'.Holds info) : inv.Holds info ∨ entry.entryInfo? = some info := by
  obtain ⟨l, hl⟩ := h
  rw [hslot, Function.update_apply] at hl
  split at hl
  · exact .inr hl
  · exact .inl ⟨l, hl⟩

theorem holds_of_origin
    (horigin : ∀ l, inv'.slot l ≠ .empty → ∃ l0, inv.slot l0 = inv'.slot l) {info : EntryInfo}
    (h : inv'.Holds info) : inv.Holds info := by
  obtain ⟨l, hl⟩ := h
  obtain ⟨l0, hl0⟩ := horigin l fun hempty => by rw [hempty] at hl; cases hl
  exact ⟨l0, by rw [hl0]; exact hl⟩

theorem holds_of_slot_eq (hslot : inv'.slot = inv.slot) {info : EntryInfo}
    (h : inv'.Holds info) : inv.Holds info := by
  unfold Holds at h ⊢
  rwa [hslot] at h

/-- What a returning operation leaves: a consistent inventory with the same parameters, whose
entries were stored before or are `extra`. -/
structure Keeps (extra : EntryInfo → Prop) (inv inv' : StalenessInventory) : Prop where
  consistent : inv'.Consistent
  config : inv'.toInventoryConfig = inv.toInventoryConfig
  carried : ∀ info, inv'.Holds info → inv.Holds info ∨ extra info

variable {extra : EntryInfo → Prop}

theorem Keeps.refl (hc : inv.Consistent) : Keeps extra inv inv :=
  ⟨hc, rfl, fun _ h => .inl h⟩

theorem Keeps.trans (h : Keeps extra inv inv1) (h' : Keeps extra inv1 inv') :
    Keeps extra inv inv' where
  consistent := h'.consistent
  config := h'.config.trans h.config
  carried := fun info hinfo => (h'.carried info hinfo).elim (h.carried info) .inr

theorem Keeps.mono {extra' : EntryInfo → Prop} (h : Keeps extra inv inv')
    (hsub : ∀ info, extra info → inv.Holds info ∨ extra' info) : Keeps extra' inv inv' where
  consistent := h.consistent
  config := h.config
  carried := fun info hinfo => (h.carried info hinfo).elim .inl (hsub info)

/-- Clearing stores nothing new. -/
theorem ClearedAll.keeps {promptIds : List Nat} (h : ClearedAll inv inv' promptIds)
    (hc : inv'.Consistent) : Keeps extra inv inv' where
  consistent := hc
  config := h.frame.config
  carried := fun _ hinfo => .inl <| holds_of_origin
    (fun l hl => by obtain ⟨e, he⟩ := h.origin l hl; exact ⟨_, he⟩) hinfo

/-- A new inventory is consistent. -/
theorem consistent_new (config : InventoryConfig) : (new config).Consistent := by
  have hno : ∀ b, ¬ (new config).HasBuffer b := fun b hb => by
    obtain ⟨buffer, hbuf⟩ := hb
    cases hbuf
  exact ⟨⟨nofun, fun b hb => absurd hb (hno b), le_rfl, fun p l => ⟨nofun, nofun⟩,
      fun b hb => absurd hb (Finset.notMem_empty b)⟩,
    ⟨fun b s h => absurd h (Finset.notMem_empty b),
      fun b s _ h => absurd h (Finset.notMem_empty b), nofun⟩⟩

/-! ### Creating, deleting and marking buffers -/

theorem Consistent.ensureBufferExists (hc : inv.Consistent) {maxId : Option Int}
    (h : inv.ensureBufferExists maxId = .ok inv') : inv'.Consistent ∧ Grown inv inv' := by
  cases hval : inv.isValidate with
  | true =>
      unfold StalenessInventory.ensureBufferExists at h
      rw [hval, if_pos rfl] at h
      cases h
      exact ⟨hc, .refl inv⟩
  | false =>
      cases maxId with
      | none =>
          unfold StalenessInventory.ensureBufferExists at h
          rw [hval] at h
          cases h
      | some maxId =>
          obtain ⟨inv1, hok, hw1, hc1, hgrown, -⟩ :=
            hc.wf.ensureBufferExists hc.cached hval maxId
          obtain rfl : inv1 = inv' := Except.ok.inj (hok.symm.trans h)
          exact ⟨⟨hw1, hc1⟩, hgrown⟩

theorem Grown.keeps (hc : inv'.Consistent) (h : Grown inv inv') : Keeps extra inv inv' :=
  ⟨hc, h.config, fun _ hinfo => .inl (holds_of_slot_eq h.slot hinfo)⟩

/-- A returning `can_reserve_data` creates buffers only. -/
theorem Consistent.canReserveData (hc : inv.Consistent) {v : Int} {result : Bool}
    (h : inv.canReserveData promptId v = .ok (result, inv')) :
    inv'.Consistent ∧ Grown inv inv' := by
  unfold StalenessInventory.canReserveData at h
  dsimp only at h
  split at h
  · cases h
    exact ⟨hc, .refl inv⟩
  · obtain ⟨inv1, h1, h⟩ := bind_eq_ok.mp h
    cases h
    exact hc.ensureBufferExists h1

theorem Consistent.deleteBuffer (hc : inv.Consistent)
    (h : inv.deleteBuffer bid = .ok inv') : Keeps extra inv inv' ∧
      inv'.slot = fun l => if l.1 = bid then .empty else inv.slot l := by
  obtain ⟨inv1, hok, hw1, hc1, hconfig, -, -, -, hslot⟩ := hc.wf.deleteBuffer hc.cached bid
  obtain rfl : inv1 = inv' := Except.ok.inj (hok.symm.trans h)
  refine ⟨⟨⟨hw1, hc1⟩, hconfig, fun info hinfo => .inl (holds_of_origin (fun l hl => ⟨l, ?_⟩)
    hinfo)⟩, hslot⟩
  rw [hslot] at hl ⊢
  dsimp only at hl ⊢
  split at hl
  · exact absurd rfl hl
  · rename_i hne
    rw [if_neg hne]

theorem Consistent.markBufferForDeletion (hc : inv.Consistent)
    (h : inv.markBufferForDeletion bid = .ok inv') :
    Keeps extra inv inv' ∧ inv'.slot = inv.slot := by
  obtain ⟨status, hstatus, h⟩ := bind_eq_ok.mp h
  obtain ⟨_, -, h⟩ := bind_eq_ok.mp h
  cases h
  have hb : inv.HasBuffer bid := by
    unfold getBufferStatus at hstatus
    cases hget : inv.buffers.get? bid with
    | none => rw [hget] at hstatus; cases hstatus
    | some buffer => exact ⟨buffer, hget⟩
  refine ⟨⟨⟨⟨hc.wf.sized, hc.wf.ids, hc.wf.nonneg, hc.wf.tracked, fun b hmem => ?_⟩,
    ⟨hc.cached.has, hc.cached.unique, hc.cached.exact⟩⟩, rfl, fun _ hinfo => .inl hinfo⟩, rfl⟩
  rcases Finset.mem_insert.mp hmem with rfl | hmem
  · exact hb
  · exact hc.wf.marked b hmem

/-! ### Reserving and changing a recorded request -/

/-- Rewriting an entry changes no status. -/
theorem Rewritten.consistent {loc : Int × Nat} {info info' : EntryInfo} (hc : inv.Consistent)
    (h : Rewritten inv inv' loc info info') : inv'.Consistent :=
  ⟨h.wf, hc.cached.edit hc.wf.sized h.edit fun b _ => ⟨Set.notMem_empty _, h.row b⟩⟩

/-- Rewriting one entry stores the new info only. -/
theorem Rewritten.keeps {loc : Int × Nat} {info info' : EntryInfo} (hc : inv.Consistent)
    (h : Rewritten inv inv' loc info info') : Keeps (· = info') inv inv' where
  consistent := h.consistent hc
  config := h.edit.config
  carried := fun i hi => (holds_of_update h.edit.slot hi).imp_right fun heq => by
    rw [Entry.entryInfo?_setInfo h.here] at heq
    exact (Option.some.inj heq).symm

/-- A returning `update_request_*`. -/
theorem Consistent.updateRequest (hc : inv.Consistent) {requestId : Nat}
    {update : EntryInfo → Nat → Except PyError EntryInfo}
    (hid : ∀ info idx info', update info idx = .ok info' → info'.promptId = info.promptId)
    (h : inv.updateRequest requestId update = .ok inv') :
    ∃ loc info info', Rewritten inv inv' loc info info' ∧
      info.promptId = requestId / inv.rolloutN ∧
      update info (requestId % inv.rolloutN) = .ok info' := by
  unfold StalenessInventory.updateRequest at h
  split at h
  · cases h
  · rename_i b e htracked
    obtain ⟨info, hinfo, h⟩ := bind_eq_ok.mp h
    obtain ⟨info', hupd, h⟩ := bind_eq_ok.mp h
    cases h
    have hinfo := entryInfoAt_eq_ok.mp hinfo
    obtain ⟨info0, hinfo0, hp⟩ := hc.wf.entryInfo_of_tracked htracked
    obtain rfl : info0 = info := Option.some.inj (hinfo0.symm.trans hinfo)
    exact ⟨(b, e), info0, info', hc.wf.setInfo hinfo (hid _ _ _ hupd), hp, hupd⟩

/-- The partial abort of a tracked prompt is the partial abort of its entry. -/
theorem dropRequests_eq_ok {abortRequestIdxs : List Nat} {info : EntryInfo}
    (hentry : inv.entryOf? promptId = some info) :
    inv.dropRequests promptId abortRequestIdxs = .ok inv' ↔
      ∃ loc info', info.dropRequests abortRequestIdxs = .ok info' ∧
        inv.dataTracker.get? promptId = some loc ∧
        inv' = inv.setSlot loc.1 loc.2 ((inv.slot loc).setInfo info') := by
  obtain ⟨⟨b, e⟩, htracked, hinfo⟩ := Option.bind_eq_some_iff.mp hentry
  unfold StalenessInventory.dropRequests
  rw [Dict.get_eq_ok.mpr htracked, ok_bind]
  dsimp only
  rw [entryInfoAt_eq_ok.mpr hinfo, ok_bind, bind_eq_ok]
  constructor
  · rintro ⟨info', hdrop, heq⟩
    exact ⟨(b, e), info', hdrop, htracked, (Except.ok.inj heq).symm⟩
  · rintro ⟨loc, info', hdrop, hloc, rfl⟩
    obtain rfl : (b, e) = loc := Option.some.inj (htracked.symm.trans hloc)
    exact ⟨info', hdrop, rfl⟩

/-- A returning partial abort. -/
theorem Consistent.dropRequests (hc : inv.Consistent) {abortRequestIdxs : List Nat}
    (h : inv.dropRequests promptId abortRequestIdxs = .ok inv') :
    ∃ loc info info', Rewritten inv inv' loc info info' ∧ info.promptId = promptId ∧
      info.dropRequests abortRequestIdxs = .ok info' := by
  obtain ⟨loc, htracked, -⟩ := bind_eq_ok.mp (id h)
  have htracked := Dict.get_eq_ok.mp htracked
  obtain ⟨info, hinfo, hp⟩ := hc.wf.entryInfo_of_tracked htracked
  obtain ⟨loc', info', hdrop, hloc, rfl⟩ :=
    (dropRequests_eq_ok (hc.wf.entryOf?_eq_some.mpr ⟨hp, loc, hinfo⟩)).mp h
  obtain rfl : loc = loc' := Option.some.inj (htracked.symm.trans hloc)
  exact ⟨loc, info, info', hc.wf.setInfo hinfo (EntryInfo.dropRequests_promptId hdrop), hp, hdrop⟩

/-- A returning reservation in the last of some candidate buffers. -/
theorem Consistent.reserveIn (hc : inv.Consistent) {req : RequestInfo} {ids : Finset Int}
    {r : Option (Int × Nat)} (hnew : inv.dataTracker.get? req.promptId = none)
    (h : inv.reserveIn req ids = .ok (r, inv')) :
    inv'.Consistent ∧ inv'.toInventoryConfig = inv.toInventoryConfig ∧
      ((r = none ∧ inv' = inv) ∨ ∃ loc, r = some loc ∧ inv.slot loc = .empty ∧
        inv'.slot = Function.update inv.slot loc (.reserved req.toEntryInfo)) := by
  unfold StalenessInventory.reserveIn at h
  split at h
  · cases h
    exact ⟨hc, rfl, .inl ⟨rfl, rfl⟩⟩
  · rename_i t _
    obtain ⟨buffer, hget, h⟩ := bind_eq_ok.mp h
    dsimp only at h
    obtain ⟨_, hassert, h⟩ := bind_eq_ok.mp h
    obtain ⟨inv1, hplace, h⟩ := bind_eq_ok.mp h
    obtain ⟨inv2, hupd, h⟩ := bind_eq_ok.mp h
    cases h
    have hfree : inv.slot (t, buffer.getLastNonReserved.toNat) = .empty := by
      rw [slot_of_get? (Dict.get_eq_ok.mp hget)]
      exact Entry.category_eq_empty_iff.mp (pyAssert_eq_ok.mp hassert).2
    have hr1 := hc.wf.place hfree hnew rfl hplace
    have hc1 : Cached {t} inv1 := hc.cached.rearranged hc.wf.sized hr1 (Set.empty_subset _)
      fun l hl => Function.update_of_ne (fun heq => hl (by rw [heq]; rfl)) ..
    obtain ⟨hc2, href⟩ := consistent_of_refresh_one hr1.wf hc1 hupd
    exact ⟨hc2, href.config.trans hr1.frame.config,
      .inr ⟨_, rfl, hfree, href.slot.trans hr1.slot⟩⟩

/-- A returning `reserve_data`. -/
theorem Consistent.reserveData (hc : inv.Consistent) {req : RequestInfo} {maxId : Option Int}
    {r : Option (Int × Nat)} (h : inv.reserveData req maxId = .ok (r, inv')) :
    inv'.Consistent ∧ inv'.toInventoryConfig = inv.toInventoryConfig ∧
      ReserveEffect inv inv' req r ∧ (r = none → inv.dataTracker.get? req.promptId = none) := by
  unfold StalenessInventory.reserveData at h
  split at h
  · rename_i b e htracked
    obtain ⟨info, hinfo, h⟩ := bind_eq_ok.mp h
    cases h
    have hinfo := entryInfoAt_eq_ok.mp hinfo
    obtain ⟨info0, hinfo0, hp⟩ := hc.wf.entryInfo_of_tracked htracked
    obtain rfl : info0 = info := Option.some.inj (hinfo0.symm.trans hinfo)
    have hrew := hc.wf.setInfo hinfo (EntryInfo.recordRequest_promptId info0 req)
    exact ⟨hrew.consistent hc, hrew.edit.config, .joined (b, e) info0 hinfo hp hrew.edit.slot,
      nofun⟩
  · rename_i htracked
    obtain ⟨inv1, ids, hc1, hgrown, h⟩ : ∃ inv1 ids, inv1.Consistent ∧ Grown inv inv1 ∧
        inv1.reserveIn req ids = .ok (r, inv') := by
      unfold StalenessInventory.reserveNew at h
      cases hval : inv.isValidate with
      | true =>
          simp only [hval, if_true, ok_bind] at h
          obtain ⟨ids, -, h⟩ := bind_eq_ok.mp h
          exact ⟨inv, ids, hc, .refl inv, h⟩
      | false =>
          simp only [hval, Bool.false_eq_true, if_false] at h
          obtain ⟨_, -, h⟩ := bind_eq_ok.mp h
          obtain ⟨inv1, h1, h⟩ := bind_eq_ok.mp h
          obtain ⟨ids, -, h⟩ := bind_eq_ok.mp h
          obtain ⟨hc1, hgrown⟩ := hc.ensureBufferExists h1
          exact ⟨inv1, ids, hc1, hgrown, h⟩
    obtain ⟨hc', hconfig, hcase⟩ := hc1.reserveIn (by rw [hgrown.tracker]; exact htracked) h
    refine ⟨hc', hconfig.trans hgrown.config, ?_, fun _ => htracked⟩
    rcases hcase with ⟨rfl, rfl⟩ | ⟨loc, rfl, hfree, hslot⟩
    · exact .refused hgrown
    · rw [hgrown.slot] at hfree hslot
      refine .fresh loc ?_ hfree hslot
      unfold promptCategory
      rw [htracked]
      rfl

/-- A reservation stores the entry of its request, or adds the request to its group. -/
theorem ReserveEffect.keeps {req : RequestInfo}
    {r : Option (Int × Nat)} {n : Nat} (hc : inv'.Consistent)
    (hconfig : inv'.toInventoryConfig = inv.toInventoryConfig)
    (hrec : ∀ info, inv.Holds info → info.WellRecorded n) (hreq : req.requestIdx < n)
    (h : ReserveEffect inv inv' req r) : Keeps (·.WellRecorded n) inv inv' := by
  refine ⟨hc, hconfig, fun info hinfo => ?_⟩
  cases h with
  | refused hgrown => exact .inl (holds_of_slot_eq hgrown.slot hinfo)
  | fresh loc _ _ hslot =>
      refine (holds_of_update hslot hinfo).imp_right fun heq => ?_
      obtain rfl : req.toEntryInfo = info := Option.some.inj heq
      exact EntryInfo.wellRecorded_toEntryInfo hreq
  | joined loc info0 hinfo0 _ hslot =>
      refine (holds_of_update hslot hinfo).imp_right fun heq => ?_
      rw [Entry.entryInfo?_setInfo hinfo0] at heq
      obtain rfl : info0.recordRequest req = info := Option.some.inj heq
      exact (hrec info0 ⟨loc, hinfo0⟩).recordRequest hreq

/-! ### Clearing -/

/-- One returning iteration of `clear_occupied_entries`. -/
theorem Wf.clearOccupiedEntry_returns (hw : inv.Wf)
    (h : StalenessInventory.clearOccupiedEntry (inv, changed) promptId = .ok (inv', changed')) :
    ∃ b e k, inv.dataTracker.get? promptId = some (b, e) ∧
      Cleared 0 inv inv' promptId (b, e) (b, k) ∧ (∃ slot', Rearranged inv inv' slot') ∧
      changed' = addId changed b ∧
      (∀ l, inv'.slot l ≠ .empty → ∃ e', inv.slot (l.1, e') = inv'.slot l) ∧
      (Zones.Left (fun i => inv.row b i = .occupied) → ∀ i, inv.row b i = .occupied → i ≤ k) := by
  unfold StalenessInventory.clearOccupiedEntry at h
  dsimp only at h
  split at h
  · cases h
  · rename_i b e htracked
    obtain ⟨inv1, hslot, h⟩ := bind_eq_ok.mp h
    cases h
    obtain ⟨buffer, hget, hslot'⟩ := bind_eq_ok.mp (id hslot)
    have hget := Dict.get_eq_ok.mp hget
    dsimp only at hslot'
    obtain ⟨_, hassert, -⟩ := bind_eq_ok.mp hslot'
    have he : e < buffer.getFirstNonOccupied := by
      have := pyAssert_eq_ok.mp hassert
      omega
    obtain ⟨inv2, hok, hr⟩ := hw.clearOccupiedSlot htracked hget he
    obtain rfl : inv2 = inv' := Except.ok.inj (hok.symm.trans hslot)
    -- both slots lie in the occupied prefix
    have hcat : inv.row b (buffer.getFirstNonOccupied - 1) = inv.row b e := by
      rw [row_of_get? hget, buffer.occupied_of_lt_first he,
        buffer.occupied_of_lt_first (by omega)]
    refine ⟨b, e, _, htracked, cleared_of_fill hr (hw.content_of_tracked htracked) hcat, ⟨_, hr⟩,
      rfl, origin_of_fill hr, fun hleft i hi => ?_⟩
    rw [row_of_get? hget] at hleft hi
    have := occupied_lt_first hleft hi
    omega

/-- A returning loop of `clear_occupied_entries`: the listed prompts were tracked, each is
listed once. -/
theorem Wf.clearOccupiedAll : ∀ {todo : List Nat} {changed : List Int} {inv : StalenessInventory},
    inv.Wf → Cached {b | b ∈ changed} inv →
    todo.foldlM StalenessInventory.clearOccupiedEntry (inv, changed) = .ok (inv', changed') →
    inv'.Wf ∧ Cached {b | b ∈ changed'} inv' ∧ ClearedAll inv inv' todo ∧ todo.Nodup ∧
      (∀ q ∈ todo, inv.promptCategory q ≠ none) ∧ (inv.LeftFilled → inv'.LeftFilled)
  | [], changed, _, hw, hc, h => by
      cases h
      exact ⟨hw, hc, .nil _, List.nodup_nil, by simp, id⟩
  | q :: rest, changed, inv, hw, hc, h => by
      rw [List.foldlM_cons] at h
      obtain ⟨⟨inv1, changed1⟩, h1, h⟩ := bind_eq_ok.mp h
      obtain ⟨b, e, k, htracked, hcleared, hr, rfl, horigin, hlast⟩ :=
        hw.clearOccupiedEntry_returns h1
      have hall := hcleared.clearedAll hw horigin
      obtain ⟨hw', hc', hall', hnodup, htracked', hfilled⟩ := Wf.clearOccupiedAll hcleared.wf
        (hcleared.cached hw.sized hr hc (mem_addId_self changed b)
          fun _ hb => mem_addId_of_mem _ hb) h
      have hq : q ∉ rest := fun hmem =>
        htracked' q hmem (hall.gone q (List.mem_singleton_self q))
      refine ⟨hw', hc', hall.cons hall', List.nodup_cons.mpr ⟨hq, hnodup⟩, fun r hr => ?_,
        fun hf => hfilled (hf.cleared hcleared (hlast (hf b)))⟩
      rcases List.mem_cons.mp hr with rfl | hr
      · unfold promptCategory
        rw [htracked]
        simp
      · rw [← hall.others r fun hmem => hq (List.mem_singleton.mp hmem ▸ hr)]
        exact htracked' r hr

/-- A returning `clear_occupied_entries`. -/
theorem Consistent.clearOccupiedEntries (hc : inv.Consistent) {promptIds : List Nat}
    (h : inv.clearOccupiedEntries promptIds = .ok inv') :
    inv'.Consistent ∧ ClearedAll inv inv' promptIds ∧ promptIds.Nodup ∧
      (inv.LeftFilled → inv'.LeftFilled) := by
  obtain ⟨⟨inv1, changed⟩, h1, h⟩ := bind_eq_ok.mp h
  obtain ⟨hw1, hc1, hall, hnodup, -, hfilled⟩ :=
    Wf.clearOccupiedAll hc.wf (by simpa using hc.cached) h1
  obtain ⟨hc', hr⟩ := consistent_of_refresh hw1 hc1 (fun _ hb => hb) h
  exact ⟨hc', hall.of_refresh hr, hnodup, fun hf => (hfilled hf).of_slot hr.slot⟩

/-- One returning iteration of `clear_reserved_entries` across buffers, for a tracked prompt
of any category: what is left comes from the other slots. -/
theorem Wf.clearAcross_returns (hw : inv.Wf) {promptIds : List Nat} {loc : Int × Nat}
    (hc : Cached {b | b ∈ changed} inv) (htracked : inv.dataTracker.get? promptId = some loc)
    (h : clearReservedEntry promptIds true (inv, changed) promptId = .ok (inv', changed')) :
    inv'.Wf ∧ Cached {b | b ∈ changed'} inv' ∧ inv'.toInventoryConfig = inv.toInventoryConfig ∧
      (∀ l, inv'.slot l ≠ .empty → ∃ l0, l0 ≠ loc ∧ inv.slot l0 = inv'.slot l) ∧
      OccupiedStay inv inv' loc := by
  obtain ⟨b, e⟩ := loc
  unfold clearReservedEntry at h
  simp only [htracked, if_true] at h
  obtain ⟨info, -, h⟩ := bind_eq_ok.mp h
  obtain ⟨v, -, h⟩ := bind_eq_ok.mp h
  obtain ⟨staleness, -, h⟩ := bind_eq_ok.mp h
  obtain ⟨exchange, hexchange, h⟩ := bind_eq_ok.mp h
  cases exchange with
  | none =>
      obtain ⟨inv1, hrem, h⟩ := bind_eq_ok.mp h
      cases h
      have hr := hw.removeEntry htracked hrem
      refine ⟨hr.wf, ?_, hr.frame.config, fun l hl => ⟨l, ?_, ?_⟩,
        occupiedStay_of_fill (by rw [fill_self]; exact hr) (.inl rfl)⟩
      · exact hc.rearranged hw.sized hr (fun _ hb => mem_addId_of_mem _ hb) fun l hl =>
          Function.update_of_ne (fun heq => hl (by rw [heq]; exact mem_addId_self ..)) ..
      · rintro rfl
        rw [hr.slot, Function.update_self] at hl
        exact hl rfl
      · rw [hr.slot] at hl ⊢
        rw [Function.update_apply] at hl ⊢
        split at hl
        · exact absurd rfl hl
        · rename_i hne
          rw [if_neg hne]
  | some x =>
      obtain ⟨inv1, hex, h⟩ := bind_eq_ok.mp h
      cases h
      obtain ⟨-, -, infoX, hx, -, -, hbefore⟩ := findExchange_some hexchange
      have hxloc : x ≠ (b, e) := by
        rintro rfl
        exact absurd (hbefore rfl) (lt_irrefl _)
      have hyloc : (x.1, min x.2 (Layout.suffixStart inv.numEntries (inv.row x.1))) ≠ (b, e) := by
        intro heq
        have hb : x.1 = b := congrArg Prod.fst heq
        have he : min x.2 (Layout.suffixStart inv.numEntries (inv.row x.1)) = e :=
          congrArg Prod.snd heq
        have := hbefore hb
        omega
      have hr := hw.clearWithExchange htracked hxloc (by rw [hx]; simp) hex
      have hslot : ∀ l, inv'.slot l = _ := fun l =>
        (congrFun hr.slot l).trans (fill_fill_apply inv.slot hyloc hxloc l)
      obtain ⟨infoY, hy⟩ : ∃ infoY, inv.slot
          (x.1, min x.2 (Layout.suffixStart inv.numEntries (inv.row x.1))) = .reserved infoY := by
        have hfilled : inv.slot x ≠ .empty := by
          rw [hx]
          simp
        have hlt := (hasBuffer_of_slot hw.sized hfilled).2
        rcases Nat.le_total x.2 (Layout.suffixStart inv.numEntries (inv.row x.1)) with hle | hle
        · rw [Nat.min_eq_left hle]
          exact ⟨infoX, hx⟩
        · have hcat : inv.row x.1 (Layout.suffixStart inv.numEntries (inv.row x.1)) = .reserved :=
            Layout.reserved_of_suffixStart_le le_rfl (hle.trans_lt hlt)
          rw [Nat.min_eq_right hle]
          exact Entry.category_eq_reserved_iff.mp hcat
      refine ⟨hr.wf, ?_, hr.frame.config, fun l hl => ?_,
        occupiedStay_of_exchange hr.slot hyloc hxloc hx hy⟩
      · refine hc.rearranged hw.sized hr
          (fun _ hb => mem_addId_of_mem _ (mem_addId_of_mem _ hb)) fun l hl => ?_
        rw [fill_fill_apply inv.slot hyloc hxloc]
        have hlx : l.1 ≠ x.1 := fun heq => hl (by rw [heq]; exact mem_addId_self ..)
        have hlb : l.1 ≠ b := fun heq =>
          hl (by rw [heq]; exact mem_addId_of_mem _ (mem_addId_self ..))
        rw [if_neg fun heq => hlx (by rw [heq]), if_neg fun heq => hlx (by rw [heq]),
          if_neg fun heq => hlb (by rw [heq])]
      · rw [hslot] at hl ⊢
        split
        · rename_i hl'
          rw [if_pos hl'] at hl
          exact absurd rfl hl
        · split
          · exact ⟨_, hyloc, rfl⟩
          · split
            · exact ⟨x, hxloc, rfl⟩
            · rename_i hne
              exact ⟨l, hne, rfl⟩

/-- A returning loop of `clear_reserved_entries` across buffers. -/
theorem Wf.clearAcrossAll (ps : List Nat) : ∀ {todo : List Nat} {changed : List Int}
    {inv : StalenessInventory}, inv.Wf → Cached {b | b ∈ changed} inv →
    todo.foldlM (clearReservedEntry ps true) (inv, changed) = .ok (inv', changed') →
    inv'.Wf ∧ Cached {b | b ∈ changed'} inv' ∧ inv'.toInventoryConfig = inv.toInventoryConfig ∧
      (∀ l, inv'.slot l ≠ .empty → ∃ l0, inv.slot l0 = inv'.slot l) ∧
      (∀ q ∈ todo, inv'.dataTracker.get? q = none) ∧ OccupiedBut inv inv' todo
  | [], changed, _, hw, hc, h => by
      cases h
      exact ⟨hw, hc, rfl, fun l _ => ⟨l, rfl⟩, by simp, fun l info => by simp⟩
  | q :: rest, changed, inv, hw, hc, h => by
      rw [List.foldlM_cons] at h
      obtain ⟨⟨inv1, changed1⟩, h1, h⟩ := bind_eq_ok.mp h
      obtain ⟨hw1, hc1, hconfig1, horigin1, hgone, hocc1⟩ :
          inv1.Wf ∧ Cached {b | b ∈ changed1} inv1 ∧
          inv1.toInventoryConfig = inv.toInventoryConfig ∧
          (∀ l, inv1.slot l ≠ .empty → ∃ l0, inv.slot l0 = inv1.slot l) ∧
          inv1.dataTracker.get? q = none ∧ OccupiedBut inv inv1 [q] := by
        cases htracked : inv.dataTracker.get? q with
        | none =>
            unfold clearReservedEntry at h1
            simp only [htracked] at h1
            cases h1
            exact ⟨hw, hc, rfl, fun l _ => ⟨l, rfl⟩, htracked, occupiedBut_of_untracked hw htracked⟩
        | some loc =>
            obtain ⟨hw1, hc1, hconfig1, horigin, hstay⟩ := hw.clearAcross_returns hc htracked h1
            exact ⟨hw1, hc1, hconfig1,
              fun l hl => (horigin l hl).imp fun _ h => h.2,
              untracked_of_origin hw hw1 htracked horigin,
              hstay.occupiedBut hw (hw.content_of_tracked htracked)⟩
      obtain ⟨hw', hc', hconfig, horigin, hnone, hocc⟩ := Wf.clearAcrossAll ps hw1 hc1 h
      have horigin' : ∀ l, inv'.slot l ≠ .empty → ∃ l0, inv.slot l0 = inv'.slot l := by
        intro l hl
        obtain ⟨l1, hl1⟩ := horigin l hl
        obtain ⟨l0, hl0⟩ := horigin1 l1 (by rw [hl1]; exact hl)
        exact ⟨l0, hl0.trans hl1⟩
      refine ⟨hw', hc', hconfig.trans hconfig1, horigin', fun r hr => ?_, hocc1.cons hocc⟩
      rcases List.mem_cons.mp hr with rfl | hr
      · -- the prompt has no slot after its turn, and no later turn gives it one
        cases hget : inv'.dataTracker.get? r with
        | none => rfl
        | some l =>
            have hcontent := hw'.content_of_tracked hget
            obtain ⟨l1, hl1⟩ := horigin l (slot_ne_empty_of_content hcontent)
            rw [(hw1.tracked r l1).mpr ((content_of_slot_eq hl1).trans hcontent)] at hgone
            cases hgone
      · exact hnone r hr

/-- A returning `clear_reserved_entries`, in either mode. -/
theorem Consistent.clearAny (hc : inv.Consistent) {promptIds : List Nat} {across : Bool}
    (h : inv.clearReservedEntries promptIds across = .ok inv') :
    Keeps extra inv inv' ∧ (∀ q ∈ promptIds, inv'.dataTracker.get? q = none) ∧
      OccupiedBut inv inv' promptIds := by
  unfold StalenessInventory.clearReservedEntries at h
  cases hmode : across && !inv.isValidate with
  | false =>
      have hfalse : inv.clearReservedEntries promptIds false = .ok inv' := by
        unfold StalenessInventory.clearReservedEntries
        rw [hmode] at h
        simpa using h
      obtain ⟨inv1, hok, hc', hall, hocc⟩ := hc.clearReservedEntries promptIds
      obtain rfl : inv1 = inv' := Except.ok.inj (hok.symm.trans hfalse)
      exact ⟨hall.keeps hc', fun q hq => Option.map_eq_none_iff.mp (hall.gone q hq), hocc⟩
  | true =>
      rw [hmode] at h
      obtain ⟨⟨inv1, changed⟩, h1, h⟩ := bind_eq_ok.mp h
      obtain ⟨hw1, hc1, hconfig, horigin, hnone, hocc⟩ :=
        Wf.clearAcrossAll promptIds hc.wf (by simpa using hc.cached) h1
      obtain ⟨hc', hr⟩ := consistent_of_refresh hw1 hc1 (fun _ hb => hb) h
      refine ⟨⟨hc', hr.config.trans hconfig, fun info hinfo => .inl (holds_of_origin horigin
        (holds_of_slot_eq hr.slot hinfo))⟩, fun q hq => ?_, ?_⟩
      · rw [hr.tracker]
        exact hnone q hq
      · rw [OccupiedBut, hr.slot]
        exact hocc

/-! ### Occupying -/

/-- Putting a finished group into a free slot; the buffer's cache may have been out of date. -/
theorem Wf.finishOccupy {info : EntryInfo} {r : Int × Nat × Nat} (hw : inv.Wf)
    (hc : Cached {bid} inv) (hfree : inv.slot (bid, eid) = .empty)
    (hnew : inv.dataTracker.get? info.promptId = none)
    (h : inv.finishOccupy info bid eid = .ok (r, inv')) :
    Keeps (· = info) inv inv' ∧
      (∀ q, q ≠ info.promptId → inv'.dataTracker.get? q = inv.dataTracker.get? q) ∧
      inv'.slot = Function.update inv.slot (bid, eid) (.occupied info) := by
  obtain ⟨inv1, hplace, h⟩ := bind_eq_ok.mp h
  obtain ⟨buffer, -, h⟩ := bind_eq_ok.mp h
  dsimp only at h
  obtain ⟨inv2, hupd, h⟩ := bind_eq_ok.mp h
  cases h
  have hr := hw.place hfree hnew rfl hplace
  have hedit := place_edit hw.sized hplace
  have hc1 : Cached {bid} inv1 := hc.rearranged hw.sized hr subset_rfl fun l hl =>
    Function.update_of_ne (fun heq => hl (by rw [heq]; rfl)) ..
  obtain ⟨hc', href⟩ := consistent_of_refresh_one hr.wf hc1 hupd
  have hslot := href.slot.trans hr.slot
  refine ⟨⟨hc', href.config.trans hr.frame.config, fun i hi => ?_⟩, fun q hq => ?_, hslot⟩
  · exact (holds_of_update hslot hi).imp_right fun heq => (Option.some.inj heq).symm
  · rw [href.tracker, hedit.index, Function.update_of_ne hq]

/-- Evicting the boundary reservation of a buffer frees its slot; the cache of the buffer is
left to whoever takes the slot. -/
theorem Consistent.evictReserved {pending : Finset Int} (hc : inv.Consistent)
    (hnew : inv.dataTracker.get? promptId = none)
    (h : inv.evictReserved pending bid eid = .ok (some inv')) :
    inv'.Wf ∧ Cached {bid} inv' ∧ inv'.dataTracker.get? promptId = none ∧
      inv'.toInventoryConfig = inv.toInventoryConfig ∧
      ∃ dst, inv.slot dst = .empty ∧ inv'.slot = fill inv.slot dst (bid, eid) := by
  unfold StalenessInventory.evictReserved at h
  dsimp only at h
  split at h
  · cases h
  · rename_i other _
    obtain ⟨buffer, hget, h⟩ := bind_eq_ok.mp h
    obtain ⟨_, hassert, h⟩ := bind_eq_ok.mp h
    obtain ⟨inv1, hrel, h⟩ := bind_eq_ok.mp h
    obtain ⟨inv2, hupd, h⟩ := bind_eq_ok.mp h
    cases h
    have hget := Dict.get_eq_ok.mp hget
    obtain ⟨hnonneg, hcat⟩ := pyAssert_eq_ok.mp hassert
    have hfree : inv.slot (other, buffer.getLastNonReserved.toNat) = .empty := by
      rw [slot_of_get? hget]
      exact Entry.category_eq_empty_iff.mp hcat
    have hsize : buffer.getLastNonReserved.toNat < inv.numEntries := by
      have := buffer.getLastNonReserved_lt
      have := (hc.wf.sized _ _ hget).1
      omega
    have hb : inv.HasBuffer other := ⟨buffer, hget⟩
    have hr := hc.wf.relocate hfree hb hsize hrel
    obtain ⟨q, hq, hedit⟩ := relocate_edit hc.wf.sized hb hsize hrel
    have hc1 : Cached {bid, other} inv1 :=
      hc.cached.rearranged hc.wf.sized hr (Set.empty_subset _) fun l hl => by
        rw [fill_apply, if_neg fun heq => hl (by rw [heq]; exact .inl rfl),
          if_neg fun heq => hl (by rw [heq]; exact .inr rfl)]
    have href := updateBufferStatus_refresh hupd
    have hc2 : Cached {bid} inv' := (hc1.updateBufferStatus hupd).mono fun b hb =>
      hb.1.resolve_right hb.2
    refine ⟨href.wf hr.wf, hc2, ?_, href.config.trans hr.frame.config, _, hfree,
      href.slot.trans hr.slot⟩
    -- the moved prompt is tracked, so it is another one
    have hne : promptId ≠ q := by
      rintro rfl
      rw [(hc.wf.tracked _ _).mpr hq] at hnew
      cases hnew
    rw [href.tracker, hedit.index, Function.update_of_ne hne]
    exact hnew

/-- What every returning branch does with a finished group: it takes the first slot of a buffer
that is not `OCCUPIED`, which is free or from which the reservation was evicted. -/
structure TakesFirst (inv inv' : StalenessInventory) (info : EntryInfo) (r : Int × Nat × Nat)
    (bid : Int) (buffer : StalenessBuffer) (freed : StalenessInventory) : Prop where
  get : inv.buffers.get? bid = some buffer
  free : freed = inv ∧ buffer.categoryAt buffer.getFirstNonOccupied = .empty ∨
    buffer.categoryAt buffer.getFirstNonOccupied = .reserved ∧ ∃ pending,
      inv.evictReserved pending bid buffer.getFirstNonOccupied = .ok (some freed)
  take : freed.finishOccupy info bid buffer.getFirstNonOccupied = .ok (r, inv')

section Occupying

variable {info : EntryInfo} {r : Int × Nat × Nat}

theorem takesFirst_of_occupyFirstFree {ids : Finset Int} {msg : String}
    (h : inv.occupyFirstFree info ids msg = .ok (r, inv')) :
    ∃ b buffer, TakesFirst inv inv' info r b buffer inv := by
  unfold StalenessInventory.occupyFirstFree at h
  split at h
  · cases h
  · obtain ⟨buffer, hget, h⟩ := bind_eq_ok.mp h
    dsimp only at h
    obtain ⟨_, hassert, h⟩ := bind_eq_ok.mp h
    exact ⟨_, buffer, Dict.get_eq_ok.mp hget, .inl ⟨rfl, (pyAssert_eq_ok.mp hassert).2⟩, h⟩

theorem takesFirst_of_occupyInBatch {v : Int} (h : inv.occupyInBatch info v = .ok (r, inv')) :
    ∃ b buffer, TakesFirst inv inv' info r b buffer inv := by
  unfold StalenessInventory.occupyInBatch at h
  cases hval : inv.isValidate with
  | true =>
      simp only [hval, if_true, ok_bind] at h
      exact takesFirst_of_occupyFirstFree h
  | false =>
      simp only [hval, Bool.false_eq_true, if_false] at h
      obtain ⟨staleness, -, h⟩ := bind_eq_ok.mp h
      exact takesFirst_of_occupyFirstFree h

theorem takesFirst_of_occupyRedundantLoop {pending : Finset Int} : ∀ {ids : List Int},
    inv.occupyRedundantLoop info pending ids = .ok (some (r, inv')) →
      ∃ b buffer freed, TakesFirst inv inv' info r b buffer freed
  | [], h => by cases h
  | b :: rest, h => by
      unfold StalenessInventory.occupyRedundantLoop at h
      obtain ⟨buffer, hget, h⟩ := bind_eq_ok.mp h
      have hget := Dict.get_eq_ok.mp hget
      dsimp only at h
      obtain ⟨_, -, h⟩ := bind_eq_ok.mp h
      split at h
      · rename_i hcat
        obtain ⟨result, hfin, h⟩ := bind_eq_ok.mp h
        cases h
        exact ⟨b, buffer, inv, hget, .inl ⟨rfl, hcat⟩, hfin⟩
      · obtain ⟨_, hassert, h⟩ := bind_eq_ok.mp h
        obtain ⟨evicted, hevict, h⟩ := bind_eq_ok.mp h
        cases evicted with
        | none => exact takesFirst_of_occupyRedundantLoop h
        | some freed =>
            obtain ⟨result, hfin, h⟩ := bind_eq_ok.mp h
            cases h
            exact ⟨b, buffer, freed, hget,
              .inr ⟨pyAssert_eq_ok.mp hassert, pending, hevict⟩, hfin⟩

theorem takesFirst_of_occupyRedundant {order : SetOrder Int} {v : Int}
    (h : inv.occupyRedundant order info v = .ok (r, inv')) :
    ∃ b buffer freed, TakesFirst inv inv' info r b buffer freed := by
  obtain ⟨staleness, -, h⟩ := bind_eq_ok.mp h
  dsimp only at h
  obtain ⟨_, -, h⟩ := bind_eq_ok.mp h
  obtain ⟨found, hloop, h⟩ := bind_eq_ok.mp h
  cases found with
  | some result =>
      cases h
      exact takesFirst_of_occupyRedundantLoop hloop
  | none =>
      unfold occupyOverflow at h
      dsimp only at h
      split at h
      · cases h
      · obtain ⟨buffer, hget, h⟩ := bind_eq_ok.mp h
        obtain ⟨_, hassert, h⟩ := bind_eq_ok.mp h
        exact ⟨_, buffer, inv, Dict.get_eq_ok.mp hget,
          .inl ⟨rfl, (pyAssert_eq_ok.mp hassert).2⟩, h⟩

variable {buffer : StalenessBuffer} {freed : StalenessInventory}

/-- Before the slot is taken it is free, and no finished group was moved. -/
theorem TakesFirst.before (h : TakesFirst inv inv' info r bid buffer freed) (hc : inv.Consistent)
    (hnew : inv.dataTracker.get? info.promptId = none) :
    freed.Wf ∧ Cached {bid} freed ∧ freed.slot (bid, buffer.getFirstNonOccupied) = .empty ∧
      freed.dataTracker.get? info.promptId = none ∧
      freed.toInventoryConfig = inv.toInventoryConfig ∧
      (∀ i, freed.Holds i → inv.Holds i) ∧
      ∀ b e, freed.row b e = .occupied ↔ inv.row b e = .occupied := by
  have hfirst := slot_of_get? h.get buffer.getFirstNonOccupied
  obtain ⟨rfl, hcat⟩ | ⟨hcat, pending, hevict⟩ := h.free
  · refine ⟨hc.wf, hc.cached.mono (Set.empty_subset _), ?_, hnew, rfl, fun _ hi => hi,
      fun _ _ => Iff.rfl⟩
    rw [hfirst]
    exact Entry.category_eq_empty_iff.mp hcat
  · obtain ⟨hw, hcached, hnew', hconfig, dst, hdst, hslot⟩ := hc.evictReserved hnew hevict
    obtain ⟨evicted, hres⟩ := Entry.category_eq_reserved_iff.mp hcat
    rw [← hfirst] at hres
    refine ⟨hw, hcached, by rw [hslot, fill_apply, if_pos rfl], hnew', hconfig, fun i hi => ?_,
      fun b e => ?_⟩
    · obtain ⟨l, hl⟩ := hi
      rw [hslot, fill_apply] at hl
      split at hl
      · cases hl
      · split at hl
        · exact ⟨_, hl⟩
        · exact ⟨_, hl⟩
    · rw [row_eq, row_eq, hslot, fill_apply]
      split
      · rename_i heq
        rw [heq, hres]
        simp [Entry.category]
      · split
        · rename_i heq
          rw [heq, hdst, hres]
          simp [Entry.category]
        · rfl

/-- Taking a slot leaves tracker and cache exact, adds one finished group, and keeps the
finished groups at the left. -/
theorem TakesFirst.keeps (h : TakesFirst inv inv' info r bid buffer freed) (hc : inv.Consistent)
    (hnew : inv.dataTracker.get? info.promptId = none) :
    Keeps (· = info) inv inv' ∧ (inv.LeftFilled → inv'.LeftFilled) := by
  obtain ⟨hw, hcached, hfree, hnew', hconfig, hholds, hrow⟩ := h.before hc hnew
  obtain ⟨hkeeps, -, hslot⟩ := hw.finishOccupy hcached hfree hnew' h.take
  refine ⟨⟨hkeeps.consistent, hkeeps.config.trans hconfig, fun i hi =>
    (hkeeps.carried i hi).imp_left (hholds i)⟩, fun hleft b i j hij hj => ?_⟩
  have hrow' : ∀ b e, inv'.row b e = .occupied ↔
      (b, e) = (bid, buffer.getFirstNonOccupied) ∨ inv.row b e = .occupied := by
    intro b e
    rw [← hrow b e, row_eq, row_eq, hslot, Function.update_apply]
    split
    · rename_i heq
      simp [heq, Entry.category]
    · rename_i hne
      simp [hne]
  refine (hrow' b i).mpr ?_
  obtain hj | hj := (hrow' b j).mp hj
  · cases hj
    refine .inr ?_
    rw [row_of_get? h.get]
    exact buffer.occupied_of_lt_first hij
  · exact .inr (hleft b i j hij hj)

end Occupying

/-- A returning `occupy_data_with_reserve`. -/
theorem Consistent.occupyDataWithReserve {order : SetOrder Int} {r : Int × Nat × Nat}
    (hc : inv.Consistent) (h : inv.occupyDataWithReserve order promptId = .ok (r, inv')) :
    Keeps extra inv inv' ∧ (inv.promptCategory promptId = some .reserved →
      inv.LeftFilled → inv'.LeftFilled) := by
  unfold StalenessInventory.occupyDataWithReserve at h
  split at h
  · cases h
  · rename_i b e htracked
    obtain ⟨info, hinfo, rfl⟩ := hc.wf.entryInfo_of_tracked htracked
    rw [entryInfoAt_eq_ok.mpr hinfo, ok_bind] at h
    obtain ⟨v, -, h⟩ := bind_eq_ok.mp h
    obtain ⟨_, -, h⟩ := bind_eq_ok.mp h
    obtain ⟨_, -, h⟩ := bind_eq_ok.mp h
    obtain ⟨inv1, hclear, h⟩ := bind_eq_ok.mp h
    obtain ⟨buffer, -, h⟩ := bind_eq_ok.mp h
    obtain ⟨hkeeps1, hnone, hocc⟩ : Keeps (· = info) inv inv1 ∧ _ := hc.clearAny hclear
    have hnew := hnone info.promptId (List.mem_singleton_self _)
    obtain ⟨b', buffer', freed, htakes⟩ :
        ∃ b' buffer' freed, TakesFirst inv1 inv' info r b' buffer' freed := by
      split at h
      · obtain ⟨b', buffer', htakes⟩ := takesFirst_of_occupyInBatch h
        exact ⟨b', buffer', inv1, htakes⟩
      · exact takesFirst_of_occupyRedundant h
    obtain ⟨hkeeps, hfilled⟩ := htakes.keeps hkeeps1.consistent hnew
    -- the group was stored before
    refine ⟨(hkeeps1.trans hkeeps).mono fun i hi => .inl ⟨(b, e), by rw [hi]; exact hinfo⟩,
      fun hcat hf => hfilled (hf.of_occupiedBut hc.wf hocc fun q hq => ?_)⟩
    rw [List.mem_singleton.mp hq, hcat]
    simp

/-- A returning `occupy_data_without_reserve` of an untracked prompt. -/
theorem Consistent.occupyDataWithoutReserve {info : EntryInfo} {r : Int × Nat × Nat}
    (hc : inv.Consistent) (hnew : inv.dataTracker.get? info.promptId = none)
    (h : inv.occupyDataWithoutReserve info = .ok (r, inv')) :
    Keeps (· = info) inv inv' ∧
      (∀ q, q ≠ info.promptId → inv'.dataTracker.get? q = inv.dataTracker.get? q) ∧
      (inv.LeftFilled → inv'.LeftFilled) := by
  obtain ⟨v, -, h⟩ := bind_eq_ok.mp h
  obtain ⟨staleness, -, h⟩ := bind_eq_ok.mp h
  obtain ⟨b, buffer, htakes⟩ := takesFirst_of_occupyFirstFree h
  obtain ⟨hw, hcached, hfree, hnew', -⟩ := htakes.before hc hnew
  obtain ⟨hkeeps, hothers, -⟩ := hw.finishOccupy hcached hfree hnew' htakes.take
  exact ⟨hkeeps, hothers, (htakes.keeps hc hnew).2⟩

/-- The loop of `move_occupied_entries` over groups that are untracked. -/
theorem Consistent.occupyAll : ∀ {infos : List EntryInfo} {inv : StalenessInventory},
    inv.Consistent → (infos.map EntryInfo.promptId).Nodup →
    (∀ info ∈ infos, inv.dataTracker.get? info.promptId = none) →
    infos.foldlM (StalenessInventory.occupyAgain bid) inv = .ok inv' →
    Keeps (· ∈ infos) inv inv' ∧ (inv.LeftFilled → inv'.LeftFilled)
  | [], inv, hc, _, _, h => by
      cases h
      exact ⟨.refl hc, id⟩
  | info :: rest, inv, hc, hnodup, hnew, h => by
      rw [List.foldlM_cons] at h
      obtain ⟨inv1, h1, h⟩ := bind_eq_ok.mp h
      obtain ⟨⟨⟨b, e, n⟩, inv2⟩, hocc, h1⟩ := bind_eq_ok.mp h1
      obtain ⟨_, -, h1⟩ := bind_eq_ok.mp h1
      cases h1
      obtain ⟨hnot, hnodup⟩ := List.nodup_cons.mp hnodup
      obtain ⟨hkeeps, hothers, hfilled⟩ :=
        hc.occupyDataWithoutReserve (hnew info List.mem_cons_self) hocc
      obtain ⟨hrest, hfilled'⟩ := Consistent.occupyAll hkeeps.consistent hnodup (fun i hi => by
        rw [hothers i.promptId fun heq => hnot (heq ▸ List.mem_map_of_mem hi)]
        exact hnew i (List.mem_cons_of_mem _ hi)) h
      exact ⟨(hkeeps.mono fun i hi => .inr (hi ▸ List.mem_cons_self)).trans
        (hrest.mono fun i hi => .inr (List.mem_cons_of_mem _ hi)), fun hf => hfilled' (hfilled hf)⟩

/-- A returning `move_occupied_entries`: the groups were cleared, so each is untracked when
it is occupied again. -/
theorem Consistent.moveOccupiedEntries {infos : List EntryInfo} (hc : inv.Consistent)
    (h : inv.moveOccupiedEntries infos bid = .ok inv') :
    Keeps (· ∈ infos) inv inv' ∧ (inv.LeftFilled → inv'.LeftFilled) := by
  obtain ⟨inv1, hclear, h⟩ := bind_eq_ok.mp h
  obtain ⟨hc1, hall, hnodup, hfilled⟩ := hc.clearOccupiedEntries hclear
  have hnew : ∀ info ∈ infos, inv1.dataTracker.get? info.promptId = none := fun info hinfo =>
    Option.map_eq_none_iff.mp (hall.gone _ (List.mem_map_of_mem hinfo))
  obtain ⟨hkeeps, hfilled'⟩ := hc1.occupyAll hnodup hnew h
  exact ⟨(hall.keeps hc1).trans hkeeps, fun hf => hfilled' (hfilled hf)⟩

end StalenessInventory

end Psrl
