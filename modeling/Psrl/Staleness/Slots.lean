import Psrl.Lib.Placement
import Psrl.Staleness.Inventory
import Psrl.Staleness.Layout

/-!
# Psrl.Staleness.Slots

The inventory as a map from slots to entries, and the consistency of its three parts.

Operations are described by what they do to two functions, `slot` (location to entry)
and `dataTracker.get?` (prompt to location); `Edit` records that and everything an edit
leaves alone. `Wf` says that the tracker is an exact index of the slots, `Cached` that
the status cache agrees with `get_status` outside a set of buffers still to be refreshed.
Both survive any operation that returns, whatever the layout of the buffers.
-/

namespace Psrl

open Py

namespace StalenessInventory

variable {inv inv' inv'' : StalenessInventory}
  {promptId : Nat} {loc : Int × Nat} {bid : Int} {eid : Nat} {slot' : Int × Nat → Entry}

/-! ### The view -/

def HasBuffer (inv : StalenessInventory) (bid : Int) : Prop :=
  ∃ buffer, inv.buffers.get? bid = some buffer

instance (inv : StalenessInventory) (bid : Int) : Decidable (inv.HasBuffer bid) :=
  decidable_of_iff ((inv.buffers.get? bid).isSome = true) Option.isSome_iff_exists

/-- The entry at a location. -/
def slot (inv : StalenessInventory) (loc : Int × Nat) : Entry := inv.slotAt loc.1 loc.2

/-- The categories of one buffer. -/
def row (inv : StalenessInventory) (bid : Int) (eid : Nat) : EntryCategory :=
  (inv.slot (bid, eid)).category

/-- The prompt stored at a location. -/
def content (inv : StalenessInventory) (loc : Int × Nat) : Option Nat := (inv.slot loc).promptId?

/-- All buffers have the configured size. -/
def Sized (inv : StalenessInventory) : Prop :=
  ∀ bid buffer, inv.buffers.get? bid = some buffer →
    buffer.numEntries = inv.numEntries ∧ buffer.readyNumEntries = inv.readyNumEntries

theorem slot_of_get? {buffer : StalenessBuffer}
    (h : inv.buffers.get? bid = some buffer) (eid : Nat) :
    inv.slot (bid, eid) = buffer.entryAt eid := by
  unfold slot slotAt
  simp only [h]

theorem row_of_get? {buffer : StalenessBuffer}
    (h : inv.buffers.get? bid = some buffer) : inv.row bid = buffer.categoryAt := by
  funext eid
  unfold row StalenessBuffer.categoryAt
  rw [slot_of_get? h]

theorem slot_of_not_hasBuffer (h : ¬ inv.HasBuffer loc.1) : inv.slot loc = .empty := by
  have hnone : inv.buffers.get? loc.1 = none := by
    cases hget : inv.buffers.get? loc.1 with
    | none => rfl
    | some buffer => exact absurd ⟨buffer, hget⟩ h
  unfold slot slotAt
  simp only [hnone]

/-- A slot that holds something lies in an existing buffer, within its size. -/
theorem hasBuffer_of_slot (hs : inv.Sized) (h : inv.slot loc ≠ .empty) :
    inv.HasBuffer loc.1 ∧ loc.2 < inv.numEntries := by
  have hbuf : inv.HasBuffer loc.1 := by
    by_contra hno
    exact h (slot_of_not_hasBuffer hno)
  obtain ⟨buffer, hget⟩ := hbuf
  refine ⟨⟨buffer, hget⟩, ?_⟩
  rw [← (hs _ _ hget).1]
  by_contra hle
  exact h ((slot_of_get? hget loc.2).trans (buffer.entryAt_of_le (by omega)))

/-- Nothing but slots, tracker and cache changed. -/
structure Frame (inv inv' : StalenessInventory) : Prop where
  config : inv'.toInventoryConfig = inv.toInventoryConfig
  bufferId : inv'.bufferId = inv.bufferId
  marks : inv'.readyForDeleteBufferIds = inv.readyForDeleteBufferIds
  has : ∀ bid, inv'.HasBuffer bid ↔ inv.HasBuffer bid

theorem Frame.refl (inv : StalenessInventory) : Frame inv inv :=
  ⟨rfl, rfl, rfl, fun _ => Iff.rfl⟩

theorem Frame.trans (h : Frame inv inv') (h' : Frame inv' inv'') : Frame inv inv'' :=
  ⟨h'.config.trans h.config, h'.bufferId.trans h.bufferId, h'.marks.trans h.marks,
    fun bid => (h'.has bid).trans (h.has bid)⟩

/-! ### Edits -/

/-- From `inv` to `inv'` only slots and tracker changed, to `slot'` and `index'`. -/
structure Edit (inv inv' : StalenessInventory) (slot' : Int × Nat → Entry)
    (index' : Nat → Option (Int × Nat)) : Prop extends Frame inv inv' where
  cache : inv'.bufferIdsByStatus = inv.bufferIdsByStatus
  sized : inv'.Sized
  slot : inv'.slot = slot'
  index : inv'.dataTracker.get? = index'

theorem Edit.trans {slot' slot'' : Int × Nat → Entry} {index' index'' : Nat → Option (Int × Nat)}
    (h : Edit inv inv' slot' index') (h' : Edit inv' inv'' slot'' index'') :
    Edit inv inv'' slot'' index'' where
  toFrame := h.toFrame.trans h'.toFrame
  cache := h'.cache.trans h.cache
  sized := h'.sized
  slot := h'.slot
  index := h'.index

theorem Edit.numEntries {index' : Nat → Option (Int × Nat)}
    (h : Edit inv inv' slot' index') : inv'.numEntries = inv.numEntries := by rw [h.config]

theorem hasBuffer_set_iff {bid bid' : Int} {buffer : StalenessBuffer} (hb : inv.HasBuffer bid) :
    HasBuffer { inv with buffers := inv.buffers.set bid buffer } bid' ↔ inv.HasBuffer bid' := by
  unfold HasBuffer
  simp only [Dict.get?_set]
  by_cases hid : bid' = bid
  · subst hid
    simpa [HasBuffer] using hb
  · simp [hid]

/-- Writing one slot of an existing buffer. -/
theorem edit_set {entry : Entry} {buffer : StalenessBuffer}
    (hs : inv.Sized) (hget : inv.buffers.get? bid = some buffer) (hlt : eid < inv.numEntries) :
    Edit inv { inv with buffers := inv.buffers.set bid (buffer.setEntry eid entry) }
      (Function.update inv.slot (bid, eid) entry) inv.dataTracker.get? where
  config := rfl
  bufferId := rfl
  marks := rfl
  cache := rfl
  has := fun _ => hasBuffer_set_iff ⟨buffer, hget⟩
  sized := by
    intro bid' buffer' hget'
    rw [Dict.get?_set] at hget'
    split at hget'
    · cases hget'
      exact hs bid buffer hget
    · exact hs bid' buffer' hget'
  slot := by
    have hsize : eid < buffer.numEntries := by rw [(hs _ _ hget).1]; exact hlt
    funext ⟨bid', eid'⟩
    rw [Function.update_apply]
    by_cases hid : bid' = bid
    · subst hid
      rw [slot_of_get? (Dict.get?_set_self ..), StalenessBuffer.entryAt_setEntry _ hsize,
        slot_of_get? hget]
      simp
    · have hne : (bid', eid') ≠ (bid, eid) := fun h => hid (congrArg Prod.fst h)
      rw [if_neg hne]
      unfold slot slotAt
      simp only [Dict.get?_set_of_ne _ _ hid]
  index := rfl

theorem setSlot_edit (entry : Entry) (hs : inv.Sized)
    (hb : inv.HasBuffer bid) (hlt : eid < inv.numEntries) :
    Edit inv (inv.setSlot bid eid entry) (Function.update inv.slot (bid, eid) entry)
      inv.dataTracker.get? := by
  obtain ⟨buffer, hget⟩ := hb
  unfold setSlot
  simp only [hget]
  exact edit_set hs hget hlt

theorem insertSlot_edit {entry : Entry} (hs : inv.Sized)
    (h : inv.insertSlot bid eid entry = .ok inv') :
    Edit inv inv' (Function.update inv.slot (bid, eid) entry) inv.dataTracker.get? := by
  obtain ⟨buffer, hget, h⟩ := bind_eq_ok.mp h
  obtain ⟨buffer', hins, h⟩ := bind_eq_ok.mp h
  obtain ⟨hlt, rfl⟩ := StalenessBuffer.insert_eq_ok.mp hins
  cases h
  have hget := Dict.get_eq_ok.mp hget
  exact edit_set hs hget (by rw [← (hs _ _ hget).1]; exact hlt)

theorem insertSlot_ok (entry : Entry) (hs : inv.Sized)
    (hb : inv.HasBuffer bid) (hlt : eid < inv.numEntries) :
    ∃ inv', inv.insertSlot bid eid entry = .ok inv' := by
  obtain ⟨buffer, hget⟩ := hb
  have hlt' : eid < buffer.numEntries := by rw [(hs _ _ hget).1]; exact hlt
  unfold insertSlot
  rw [Dict.get_eq_ok.mpr hget, ok_bind, StalenessBuffer.insert_eq_ok.mpr ⟨hlt', rfl⟩]
  exact ⟨_, rfl⟩

/-- `with dataTracker := …` changes the tracker and nothing else. -/
theorem Edit.withTracker {index' index'' : Nat → Option (Int × Nat)}
    (h : Edit inv inv' slot' index') {tracker : Dict Nat (Int × Nat)}
    (ht : tracker.get? = index'') :
    Edit inv { inv' with dataTracker := tracker } slot' index'' :=
  ⟨⟨h.config, h.bufferId, h.marks, h.has⟩, h.cache, h.sized, h.slot, ht⟩

theorem get?_set_eq_update (tracker : Dict Nat (Int × Nat)) (promptId : Nat) (loc : Int × Nat) :
    (tracker.set promptId loc).get? = Function.update tracker.get? promptId (some loc) := by
  funext q
  rw [Dict.get?_set, Function.update_apply]

theorem get?_erase_eq_update (tracker : Dict Nat (Int × Nat)) (promptId : Nat) :
    (tracker.erase promptId).get? = Function.update tracker.get? promptId none := by
  funext q
  rw [Dict.get?_erase, Function.update_apply]

theorem removeEntry_edit (hs : inv.Sized) (h : inv.removeEntry promptId bid eid = .ok inv') :
    Edit inv inv' (Function.update inv.slot (bid, eid) .empty)
      (Function.update inv.dataTracker.get? promptId none) := by
  obtain ⟨inv1, hins, h⟩ := bind_eq_ok.mp h
  obtain ⟨tracker, hdel, h⟩ := bind_eq_ok.mp h
  have hedit := insertSlot_edit hs hins
  obtain ⟨-, rfl⟩ := Dict.del_eq_ok.mp hdel
  cases h
  refine hedit.withTracker ?_
  rw [get?_erase_eq_update, hedit.index]

theorem removeEntry_ok (hs : inv.Sized) (hb : inv.HasBuffer bid) (hlt : eid < inv.numEntries)
    (htracked : inv.dataTracker.get? promptId = some loc) :
    ∃ inv', inv.removeEntry promptId bid eid = .ok inv' := by
  obtain ⟨inv1, hins⟩ := insertSlot_ok .empty hs hb hlt
  have hdel : inv1.dataTracker.del promptId = .ok (inv1.dataTracker.erase promptId) :=
    Dict.del_eq_ok.mpr ⟨⟨loc, by rw [(insertSlot_edit hs hins).index]; exact htracked⟩, rfl⟩
  unfold removeEntry
  rw [hins, ok_bind, hdel]
  exact ⟨_, rfl⟩

theorem place_edit {entry : Entry} (hs : inv.Sized)
    (h : inv.place promptId bid eid entry = .ok inv') :
    Edit inv inv' (Function.update inv.slot (bid, eid) entry)
      (Function.update inv.dataTracker.get? promptId (some (bid, eid))) := by
  obtain ⟨inv1, hins, h⟩ := bind_eq_ok.mp h
  have hedit := insertSlot_edit hs hins
  cases h
  refine hedit.withTracker ?_
  rw [get?_set_eq_update, hedit.index]

theorem place_ok (entry : Entry) (hs : inv.Sized)
    (hb : inv.HasBuffer bid) (hlt : eid < inv.numEntries) :
    ∃ inv', inv.place promptId bid eid entry = .ok inv' := by
  obtain ⟨inv1, hins⟩ := insertSlot_ok entry hs hb hlt
  unfold place
  rw [hins, ok_bind]
  exact ⟨_, rfl⟩

/-- The prompt of the source slot follows its entry. -/
theorem relocate_edit {src dst : Int × Nat} (hs : inv.Sized) (hb : inv.HasBuffer dst.1)
    (hlt : dst.2 < inv.numEntries) (h : inv.relocate src dst = .ok inv') :
    ∃ promptId, inv.content src = some promptId ∧
      Edit inv inv' (Function.update (Function.update inv.slot dst (inv.slot src)) src .empty)
        (Function.update inv.dataTracker.get? promptId (some dst)) := by
  obtain ⟨inv1, hins, h⟩ := bind_eq_ok.mp h
  have hset := setSlot_edit (inv.slotAt src.1 src.2) hs hb hlt
  have hedit := insertSlot_edit hset.sized hins
  rw [hset.slot, hset.index] at hedit
  cases hp : (inv.slotAt src.1 src.2).promptId? with
  | none => simp only [hp] at h; cases h
  | some promptId =>
      simp only [hp] at h
      cases h
      refine ⟨promptId, hp, (hset.trans hedit).withTracker ?_⟩
      rw [get?_set_eq_update, hedit.index]

theorem relocate_ok {src dst : Int × Nat} (hs : inv.Sized)
    (hb : inv.HasBuffer dst.1) (hlt : dst.2 < inv.numEntries)
    (hsrc : inv.content src = some promptId) :
    ∃ inv', inv.relocate src dst = .ok inv' := by
  have hset := setSlot_edit (inv.slotAt src.1 src.2) hs hb hlt
  have hne : inv.slot src ≠ .empty := by
    intro hempty
    unfold content at hsrc
    rw [hempty] at hsrc
    cases hsrc
  obtain ⟨hbsrc, hltsrc⟩ := hasBuffer_of_slot hs hne
  obtain ⟨inv1, hins⟩ := insertSlot_ok .empty hset.sized ((hset.has src.1).mpr hbsrc)
    (by rw [hset.numEntries]; exact hltsrc)
  have hp : (inv.slotAt src.1 src.2).promptId? = some promptId := hsrc
  unfold relocate
  simp only [hins, ok_bind, hp]
  exact ⟨_, rfl⟩

/-! ### Well-formedness -/

/-- The tracker is an exact index of the slots, buffer ids are handed out in order, and
only existing buffers are marked for deletion. -/
structure Wf (inv : StalenessInventory) : Prop where
  sized : inv.Sized
  ids : ∀ bid, inv.HasBuffer bid → 0 ≤ bid ∧ bid < inv.bufferId
  nonneg : 0 ≤ inv.bufferId
  tracked : Placement.Exact inv.content inv.dataTracker.get?
  marked : ∀ bid ∈ inv.readyForDeleteBufferIds, inv.HasBuffer bid

/-- Outside `dirty` the cache holds exactly the statuses `get_status` returns. -/
structure Cached (dirty : Set Int) (inv : StalenessInventory) : Prop where
  has : ∀ bid status, bid ∈ inv.bufferIdsByStatus status → inv.HasBuffer bid
  unique : ∀ bid status status', bid ∈ inv.bufferIdsByStatus status →
    bid ∈ inv.bufferIdsByStatus status' → status = status'
  exact : ∀ bid, bid ∉ dirty → ∀ buffer, inv.buffers.get? bid = some buffer →
    ∀ status, bid ∈ inv.bufferIdsByStatus status ↔ buffer.getStatus = .ok status

theorem Wf.edit {index' : Nat → Option (Int × Nat)} (hw : inv.Wf) (h : Edit inv inv' slot' index')
    (hexact : Placement.Exact (fun loc => (slot' loc).promptId?) index') : inv'.Wf where
  sized := h.sized
  ids := fun bid hb => by rw [h.bufferId]; exact hw.ids bid ((h.has bid).mp hb)
  nonneg := by rw [h.bufferId]; exact hw.nonneg
  tracked := by
    unfold content
    rw [h.slot, h.index]
    exact hexact
  marked := fun bid hb => (h.has bid).mpr (hw.marked bid (by rw [← h.marks]; exact hb))

/-- The tracked location of a prompt holds it. -/
theorem Wf.content_of_tracked (hw : inv.Wf)
    (h : inv.dataTracker.get? promptId = some loc) : inv.content loc = some promptId :=
  (hw.tracked promptId loc).mp h

theorem slot_ne_empty_of_content (h : inv.content loc = some promptId) : inv.slot loc ≠ .empty := by
  intro hempty
  unfold content at h
  rw [hempty] at h
  cases h

theorem Wf.hasBuffer_of_tracked (hw : inv.Wf) (h : inv.dataTracker.get? promptId = some loc) :
    inv.HasBuffer loc.1 ∧ loc.2 < inv.numEntries :=
  hasBuffer_of_slot hw.sized (slot_ne_empty_of_content (hw.content_of_tracked h))

/-- Slots and tracker changed together: the slots are now `slot'`, the tracker is still an
exact index of them. -/
def Rearranged (inv inv' : StalenessInventory) (slot' : Int × Nat → Entry) : Prop :=
  inv'.Wf ∧ ∃ index', Edit inv inv' slot' index'

theorem Rearranged.trans {slot' slot'' : Int × Nat → Entry} (h : Rearranged inv inv' slot')
    (h' : Rearranged inv' inv'' slot'') : Rearranged inv inv'' slot'' := by
  obtain ⟨-, index', hedit⟩ := h
  obtain ⟨hw, index'', hedit'⟩ := h'
  exact ⟨hw, index'', hedit.trans hedit'⟩

theorem Rearranged.frame (h : Rearranged inv inv' slot') : Frame inv inv' := by
  obtain ⟨-, _, hedit⟩ := h
  exact hedit.toFrame

theorem Rearranged.wf (h : Rearranged inv inv' slot') : inv'.Wf := h.1

theorem Rearranged.slot (h : Rearranged inv inv' slot') : inv'.slot = slot' := by
  obtain ⟨-, _, hedit⟩ := h
  exact hedit.slot

theorem Wf.removeEntry (hw : inv.Wf) (htracked : inv.dataTracker.get? promptId = some loc)
    (h : inv.removeEntry promptId loc.1 loc.2 = .ok inv') :
    Rearranged inv inv' (Function.update inv.slot loc .empty) := by
  have hedit := removeEntry_edit hw.sized h
  refine ⟨hw.edit hedit (hw.tracked.remove (hw.content_of_tracked htracked) (fun m => ?_)
    fun j => Function.update_apply ..), _, hedit⟩
  rw [Function.update_apply]
  split <;> rfl

theorem Wf.place (hw : inv.Wf) {entry : Entry}
    (hfree : inv.slot (bid, eid) = .empty) (hnew : inv.dataTracker.get? promptId = none)
    (hentry : entry.promptId? = some promptId)
    (h : inv.place promptId bid eid entry = .ok inv') :
    Rearranged inv inv' (Function.update inv.slot (bid, eid) entry) := by
  have hedit := place_edit hw.sized h
  refine ⟨hw.edit hedit (hw.tracked.insert (l := (bid, eid)) (k := promptId) ?_ hnew
    (fun m => ?_) fun j => Function.update_apply ..), _, hedit⟩
  · unfold content
    rw [hfree]
    rfl
  · rw [Function.update_apply]
    split
    · exact hentry
    · rfl

/-- The entry of `src` moves to `dst`. -/
def fill (slots : Int × Nat → Entry) (dst src : Int × Nat) : Int × Nat → Entry :=
  Function.update (Function.update slots dst (slots src)) src .empty

theorem fill_apply (slots : Int × Nat → Entry) (dst src loc : Int × Nat) :
    fill slots dst src loc =
      if loc = src then .empty else if loc = dst then slots src else slots loc := by
  unfold fill
  rw [Function.update_apply, Function.update_apply]

theorem Wf.relocate (hw : inv.Wf) {src dst : Int × Nat} (hfree : inv.slot dst = .empty)
    (hb : inv.HasBuffer dst.1) (hlt : dst.2 < inv.numEntries)
    (h : inv.relocate src dst = .ok inv') : Rearranged inv inv' (fill inv.slot dst src) := by
  obtain ⟨promptId, hsrc, hedit⟩ := relocate_edit hw.sized hb hlt h
  refine ⟨hw.edit hedit (hw.tracked.move hsrc (l := dst) ?_ (fun m => ?_)
    fun j => Function.update_apply ..), _, hedit⟩
  · unfold content
    rw [hfree]
    rfl
  · rw [Function.update_apply, Function.update_apply]
    split
    · rfl
    · split
      · exact hsrc
      · rfl

/-- The entry at `loc` was rewritten from `info` to `info'`, an entry of the same prompt. -/
structure Rewritten (inv inv' : StalenessInventory) (loc : Int × Nat) (info info' : EntryInfo) :
    Prop where
  wf : inv'.Wf
  edit : Edit inv inv' (Function.update inv.slot loc ((inv.slot loc).setInfo info'))
    inv.dataTracker.get?
  here : (inv.slot loc).entryInfo? = some info
  prompt : info'.promptId = info.promptId

/-- Rewriting the info of a slot without changing its prompt. -/
theorem Wf.setInfo (hw : inv.Wf) {info info' : EntryInfo}
    (hinfo : (inv.slot loc).entryInfo? = some info) (hid : info'.promptId = info.promptId) :
    Rewritten inv (inv.setSlot loc.1 loc.2 ((inv.slot loc).setInfo info')) loc info info' := by
  have hne : inv.slot loc ≠ .empty := by
    intro hempty
    rw [hempty] at hinfo
    cases hinfo
  obtain ⟨hb, hlt⟩ := hasBuffer_of_slot hw.sized hne
  have hedit := setSlot_edit ((inv.slot loc).setInfo info') hw.sized hb hlt
  refine ⟨hw.edit hedit (hw.tracked.congr (fun m => ?_) fun _ => rfl), hedit, hinfo, hid⟩
  rw [Function.update_apply]
  split
  · rename_i hm
    subst hm
    exact Entry.promptId?_setInfo hinfo hid
  · rfl

/-- A reservation after the rewriting is the rewritten one or an old one in its slot. -/
theorem Rewritten.reserved {loc l : Int × Nat} {info info' i : EntryInfo}
    (h : Rewritten inv inv' loc info info') (hl : inv'.slot l = .reserved i) :
    l = loc ∧ inv.slot loc = .reserved info ∧ i = info' ∨ inv.slot l = .reserved i := by
  rw [h.edit.slot, Function.update_apply] at hl
  split at hl
  · rename_i hloc
    have hhere := h.here
    cases hentry : inv.slot loc with
    | empty => rw [hentry] at hl; cases hl
    | occupied j => rw [hentry] at hl; cases hl
    | reserved j =>
        rw [hentry] at hl hhere
        cases hl
        cases hhere
        exact .inl ⟨hloc, rfl, rfl⟩
  · exact .inr hl

theorem Rewritten.category {info info' : EntryInfo}
    (h : Rewritten inv inv' loc info info') (l : Int × Nat) :
    (inv'.slot l).category = (inv.slot l).category := by
  rw [h.edit.slot, Function.update_apply]
  split
  · rename_i hl
    rw [Entry.category_setInfo, hl]
  · rfl

theorem Rewritten.row {info info' : EntryInfo}
    (h : Rewritten inv inv' loc info info') (b : Int) : inv'.row b = inv.row b :=
  funext fun e => h.category (b, e)

/-- Category of the slot the tracker gives for a prompt. -/
def promptCategory (inv : StalenessInventory) (promptId : Nat) : Option EntryCategory :=
  (inv.dataTracker.get? promptId).map fun loc => (inv.slot loc).category

theorem Wf.promptCategory_of_slot (hw : inv.Wf) (h : inv.content loc = some promptId) :
    inv.promptCategory promptId = some (inv.slot loc).category := by
  unfold promptCategory
  rw [(hw.tracked promptId loc).mpr h]
  rfl

theorem Wf.promptCategory_eq_none (hw : inv.Wf) :
    inv.promptCategory promptId = none ↔ ∀ loc, inv.content loc ≠ some promptId := by
  unfold promptCategory
  rw [Option.map_eq_none_iff]
  constructor
  · intro h loc hloc
    rw [(hw.tracked promptId loc).mpr hloc] at h
    cases h
  · intro h
    cases hget : inv.dataTracker.get? promptId with
    | none => rfl
    | some loc => exact absurd (hw.content_of_tracked hget) (h loc)

/-- The location and the entry of a tracked prompt. -/
theorem Wf.of_promptCategory (hw : inv.Wf) {c : EntryCategory}
    (h : inv.promptCategory promptId = some c) :
    ∃ loc, inv.dataTracker.get? promptId = some loc ∧ inv.content loc = some promptId ∧
      (inv.slot loc).category = c := by
  unfold promptCategory at h
  obtain ⟨loc, hloc, hc⟩ := Option.map_eq_some_iff.mp h
  exact ⟨loc, hloc, hw.content_of_tracked hloc, hc⟩

/-! ### The status cache -/

theorem cachedStatus?_eq_some (hc : ∀ bid s t, bid ∈ inv.bufferIdsByStatus s →
    bid ∈ inv.bufferIdsByStatus t → s = t) {status : BufferStatus} :
    inv.cachedStatus? bid = some status ↔ bid ∈ inv.bufferIdsByStatus status := by
  unfold cachedStatus?
  constructor
  · intro h
    simpa using List.find?_some h
  · intro h
    cases hfind : BufferStatus.all.find? (fun s => decide (bid ∈ inv.bufferIdsByStatus s)) with
    | none =>
        have := List.find?_eq_none.mp hfind status (BufferStatus.mem_all status)
        exact absurd h (by simpa using this)
    | some s =>
        have hs : bid ∈ inv.bufferIdsByStatus s := by simpa using List.find?_some hfind
        rw [hc bid s status hs h]

theorem mem_dropCached (hc : ∀ bid s t, bid ∈ inv.bufferIdsByStatus s →
    bid ∈ inv.bufferIdsByStatus t → s = t) {bid bid' : Int} {status : BufferStatus} :
    bid' ∈ inv.dropCached bid status ↔ bid' ∈ inv.bufferIdsByStatus status ∧ bid' ≠ bid := by
  unfold dropCached
  cases hstatus : inv.cachedStatus? bid with
  | none =>
      have hnot : ∀ s, bid ∉ inv.bufferIdsByStatus s := fun s hs => by
        rw [(cachedStatus?_eq_some hc).mpr hs] at hstatus
        cases hstatus
      exact ⟨fun h => ⟨h, fun heq => hnot status (heq ▸ h)⟩, And.left⟩
  | some s =>
      have hs := (cachedStatus?_eq_some hc).mp hstatus
      dsimp only
      rw [Function.update_apply]
      split
      · rename_i heq
        subst heq
        rw [Finset.mem_erase, and_comm]
      · rename_i hne
        exact ⟨fun h => ⟨h, fun heq => hne (hc bid status s (heq ▸ h) hs)⟩, And.left⟩

/-- Only the cache changed. -/
structure Refresh (inv inv' : StalenessInventory) : Prop where
  config : inv'.toInventoryConfig = inv.toInventoryConfig
  bufferId : inv'.bufferId = inv.bufferId
  marks : inv'.readyForDeleteBufferIds = inv.readyForDeleteBufferIds
  buffers : inv'.buffers = inv.buffers
  tracker : inv'.dataTracker = inv.dataTracker

section

variable (h : Refresh inv inv')

include h

theorem Refresh.slot : inv'.slot = inv.slot := by
  funext loc
  unfold StalenessInventory.slot slotAt
  rw [h.buffers]

theorem Refresh.has (bid : Int) : inv'.HasBuffer bid ↔ inv.HasBuffer bid := by
  unfold HasBuffer
  rw [h.buffers]

theorem Refresh.frame : Frame inv inv' :=
  ⟨h.config, h.bufferId, h.marks, h.has⟩

theorem Refresh.promptCategory (q : Nat) : inv'.promptCategory q = inv.promptCategory q := by
  unfold StalenessInventory.promptCategory
  rw [h.slot, h.tracker]

theorem Refresh.sized (hs : inv.Sized) : inv'.Sized := by
  intro bid buffer hget
  rw [h.buffers] at hget
  rw [h.config]
  exact hs bid buffer hget

theorem Refresh.wf (hw : inv.Wf) : inv'.Wf where
  sized := h.sized hw.sized
  ids := fun bid hb => by rw [h.bufferId]; exact hw.ids bid ((h.has bid).mp hb)
  nonneg := by rw [h.bufferId]; exact hw.nonneg
  tracked := by
    unfold content
    rw [h.slot, h.tracker]
    exact hw.tracked
  marked := fun bid hb => (h.has bid).mpr (hw.marked bid (by rw [← h.marks]; exact hb))

theorem Refresh.trans (h' : Refresh inv' inv'') : Refresh inv inv'' :=
  ⟨h'.config.trans h.config, h'.bufferId.trans h.bufferId, h'.marks.trans h.marks,
    h'.buffers.trans h.buffers, h'.tracker.trans h.tracker⟩

end

theorem updateBufferStatus_refresh (h : inv.updateBufferStatus bid = .ok inv') :
    Refresh inv inv' := by
  unfold updateBufferStatus at h
  split at h
  · cases h
    exact ⟨rfl, rfl, rfl, rfl, rfl⟩
  · obtain ⟨s, -, h⟩ := bind_eq_ok.mp h
    cases h
    exact ⟨rfl, rfl, rfl, rfl, rfl⟩

/-- Refreshing a buffer makes its cache entry right. -/
theorem Cached.updateBufferStatus {dirty : Set Int} (hc : Cached dirty inv)
    (h : inv.updateBufferStatus bid = .ok inv') : Cached (dirty \ {bid}) inv' := by
  have hr := updateBufferStatus_refresh h
  unfold StalenessInventory.updateBufferStatus at h
  split at h
  · rename_i hget
    cases h
    refine ⟨hc.has, hc.unique, fun b hb buffer hbuf => ?_⟩
    refine hc.exact b (fun hd => hb ⟨hd, ?_⟩) buffer hbuf
    rintro rfl
    rw [hget] at hbuf
    cases hbuf
  · rename_i buffer hget
    obtain ⟨s, hstatus, h⟩ := bind_eq_ok.mp h
    cases h
    -- the new cache: `bid` under its new status only, the others as before
    have hmem : ∀ b t, b ∈ Function.update (inv.dropCached bid) s
        (insert bid (inv.dropCached bid s)) t ↔
        (b = bid ∧ t = s) ∨ (b ∈ inv.bufferIdsByStatus t ∧ b ≠ bid) := by
      intro b t
      rw [Function.update_apply]
      split
      · rename_i ht
        subst ht
        rw [Finset.mem_insert, mem_dropCached hc.unique]
        simp
      · rename_i ht
        rw [mem_dropCached hc.unique]
        simp [ht]
    refine ⟨fun b t hb => ?_, fun b t t' hb hb' => ?_, fun b hb buffer' hbuf t => ?_⟩
    · rcases (hmem b t).mp hb with ⟨rfl, -⟩ | ⟨hb, -⟩
      · exact ⟨buffer, hget⟩
      · exact hc.has b t hb
    · rcases (hmem b t).mp hb with ⟨rfl, rfl⟩ | ⟨hb, hne⟩
      · rcases (hmem b t').mp hb' with ⟨-, rfl⟩ | ⟨-, hne⟩
        · rfl
        · exact absurd rfl hne
      · rcases (hmem b t').mp hb' with ⟨rfl, -⟩ | ⟨hb', -⟩
        · exact absurd rfl hne
        · exact hc.unique b t t' hb hb'
    · refine (hmem b t).trans ?_
      by_cases hbid : b = bid
      · subst hbid
        have hbuf : inv.buffers.get? b = some buffer' := hbuf
        rw [hget] at hbuf
        cases hbuf
        rw [hstatus]
        simp [eq_comm]
      · simp only [hbid, false_and, ne_eq, not_false_eq_true, and_true, false_or]
        exact hc.exact b (fun hd => hb ⟨hd, hbid⟩) buffer' hbuf t

/-- An edit only endangers the cache of the buffers whose categories it changes. -/
theorem Cached.edit {dirty dirty' : Set Int}
    {index' : Nat → Option (Int × Nat)} (hs : inv.Sized) (hc : Cached dirty inv)
    (h : Edit inv inv' slot' index')
    (hrow : ∀ bid, bid ∉ dirty' → bid ∉ dirty ∧ inv'.row bid = inv.row bid) :
    Cached dirty' inv' where
  has := fun bid status hb => (h.has bid).mpr (hc.has bid status (by rw [← h.cache]; exact hb))
  unique := by
    rw [h.cache]
    exact hc.unique
  exact := by
    intro bid hb buffer' hget' status
    obtain ⟨hclean, heq⟩ := hrow bid hb
    obtain ⟨buffer, hget⟩ := (h.has bid).mp ⟨buffer', hget'⟩
    have hcat : buffer'.categoryAt = buffer.categoryAt := by
      rw [← row_of_get? hget', ← row_of_get? hget, heq]
    have hsize := hs _ _ hget
    have hsize' := h.sized _ _ hget'
    rw [h.config] at hsize'
    rw [h.cache, hc.exact bid hclean buffer hget status, StalenessBuffer.getStatus_congr
      (hsize'.1.trans hsize.1.symm) (hsize'.2.trans hsize.2.symm) hcat]

/-- Refreshing a list of buffers makes all their cache entries right. -/
theorem Cached.updateBufferStatuses {dirty : Set Int} {ids : List Int} (hc : Cached dirty inv)
    (h : inv.updateBufferStatuses ids = .ok inv') :
    Cached {bid | bid ∈ dirty ∧ bid ∉ ids} inv' ∧ Refresh inv inv' := by
  induction ids generalizing inv dirty with
  | nil =>
      cases h
      exact ⟨by simpa using hc, ⟨rfl, rfl, rfl, rfl, rfl⟩⟩
  | cons bid ids ih =>
      unfold StalenessInventory.updateBufferStatuses at h
      rw [List.foldlM_cons, bind_eq_ok] at h
      obtain ⟨inv1, h1, h⟩ := h
      obtain ⟨hc', hr⟩ := ih (hc.updateBufferStatus h1) h
      refine ⟨?_, (updateBufferStatus_refresh h1).trans hr⟩
      have heq : {b | b ∈ dirty ∧ b ∉ bid :: ids} = {b | b ∈ dirty \ {bid} ∧ b ∉ ids} := by
        ext b
        simp [and_assoc]
      rw [heq]
      exact hc'

theorem updateBufferStatus_ok
    (h : ∀ buffer, inv.buffers.get? bid = some buffer → ∃ s, buffer.getStatus = .ok s) :
    ∃ inv', inv.updateBufferStatus bid = .ok inv' := by
  unfold updateBufferStatus
  cases hget : inv.buffers.get? bid with
  | none => exact ⟨inv, rfl⟩
  | some buffer =>
      obtain ⟨s, hs⟩ := h buffer hget
      simp only [hs, ok_bind]
      exact ⟨_, rfl⟩

theorem updateBufferStatuses_ok {ids : List Int}
    (h : ∀ bid ∈ ids, ∀ buffer, inv.buffers.get? bid = some buffer →
      ∃ s, buffer.getStatus = .ok s) :
    ∃ inv', inv.updateBufferStatuses ids = .ok inv' := by
  obtain ⟨inv', hok, -⟩ := foldlM_ok (f := updateBufferStatus)
    (P := fun i => i.buffers = inv.buffers) (l := ids) (b := inv) rfl fun i bid hbid hi => by
      obtain ⟨i', hi'⟩ : ∃ i', i.updateBufferStatus bid = .ok i' :=
        updateBufferStatus_ok fun buffer hget => h bid hbid buffer (hi ▸ hget)
      exact ⟨i', hi', (updateBufferStatus_refresh hi').buffers.trans hi⟩
  exact ⟨inv', hok⟩

end StalenessInventory

end Psrl
