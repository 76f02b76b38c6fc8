import Psrl.Manager.Versions

/-!
# Psrl.Manager.AbortScope

Which requests and which entries an abort reaches.

An abort of some requests should reach further requests only through a group it gives up:
all recorded requests of that group (`groupClosure`). The code collects the survivors of the
group by their indices inside the group and adds these to a set of global ids
(`markedIds`), so it agrees only where the two numberings do (`AbortsGroups`).

An abort should never touch finished data. It clears the entry of every group it gives up,
whatever the category of the entry, so it keeps the finished groups exactly when it gives up
none of them (`FinishedKept`).
-/

namespace Psrl

open Py

namespace StalenessInventory

variable {inv inv1 inv' : StalenessInventory}

/-! ### Finished groups -/

/-- The `OCCUPIED` slots of a buffer. -/
def occupiedSlots (inv : StalenessInventory) (bid : Int) : Finset Nat :=
  (Finset.range inv.numEntries).filter fun eid => inv.row bid eid = .occupied

/-- Every finished group is still in its slot: the slots, the number of them in each buffer,
the ready buffers and the tracker agree on that. -/
structure FinishedKept (inv inv' : StalenessInventory) : Prop where
  slots : ∀ bid eid, inv.row bid eid = .occupied →
    inv'.row bid eid = .occupied ∧ inv'.content (bid, eid) = inv.content (bid, eid)
  count : ∀ bid, (inv'.occupiedSlots bid).card = (inv.occupiedSlots bid).card
  ready : inv'.readyBufferIds = inv.readyBufferIds
  tracker : ∀ p, inv.promptCategory p = some .occupied →
    inv'.dataTracker.get? p = inv.dataTracker.get? p

/-- Whatever the layout, a buffer is ready if the first slot that is not `OCCUPIED` is the
first one after the batch. -/
theorem Consistent.mem_readyBufferIds (hc : inv.Consistent) {bid : Int} :
    bid ∈ inv.readyBufferIds ↔ ∃ buffer, inv.buffers.get? bid = some buffer ∧
      buffer.getFirstNonOccupied = buffer.readyNumEntries := by
  unfold readyBufferIds
  rw [Finset.mem_union]
  constructor
  · intro h
    obtain ⟨buffer, hget⟩ : inv.HasBuffer bid := h.elim (hc.cached.has bid _) (hc.cached.has bid _)
    have hexact := hc.cached.exact bid (Set.notMem_empty bid) buffer hget
    refine ⟨buffer, hget, ?_⟩
    rcases h with h | h
    · exact (buffer.getStatus_ready_iff ((hexact _).mp h)).mp (.inl rfl)
    · exact (buffer.getStatus_ready_iff ((hexact _).mp h)).mp (.inr rfl)
  · rintro ⟨buffer, hget, hfirst⟩
    have hexact := hc.cached.exact bid (Set.notMem_empty bid) buffer hget
    obtain ⟨s, hs⟩ : ∃ s, buffer.getStatus = .ok s := by
      unfold StalenessBuffer.getStatus
      rw [if_pos hfirst]
      split
      · exact ⟨_, rfl⟩
      · exact ⟨_, rfl⟩
    rcases (buffer.getStatus_ready_iff hs).mpr hfirst with rfl | rfl
    · exact .inl ((hexact _).mpr hs)
    · exact .inr ((hexact _).mpr hs)

/-- Inventories with the same buffers and the same `OCCUPIED` slots have the same ready
buffers. -/
theorem readyBufferIds_congr (hc : inv.Consistent) (hc' : inv'.Consistent)
    (hframe : Frame inv inv')
    (hocc : ∀ bid eid, inv'.row bid eid = .occupied ↔ inv.row bid eid = .occupied) :
    inv'.readyBufferIds = inv.readyBufferIds := by
  have hfirst : ∀ bid buffer buffer', inv.buffers.get? bid = some buffer →
      inv'.buffers.get? bid = some buffer' →
      buffer'.getFirstNonOccupied = buffer.getFirstNonOccupied ∧
        buffer'.readyNumEntries = buffer.readyNumEntries := by
    intro bid buffer buffer' hget hget'
    have hcat : ∀ i, buffer'.categoryAt i = .occupied ↔ buffer.categoryAt i = .occupied := by
      intro i
      rw [← row_of_get? hget, ← row_of_get? hget']
      exact hocc bid i
    refine ⟨StalenessBuffer.getFirstNonOccupied_eq
      (fun i hi => (hcat i).mpr (buffer.occupied_of_lt_first hi))
      (fun h => buffer.not_occupied_first ((hcat _).mp h)), ?_⟩
    rw [(hc'.wf.sized _ _ hget').2, (hc.wf.sized _ _ hget).2, hframe.config]
  ext bid
  rw [hc.mem_readyBufferIds, hc'.mem_readyBufferIds]
  constructor
  · rintro ⟨buffer', hget', h⟩
    obtain ⟨buffer, hget⟩ := (hframe.has bid).mp ⟨buffer', hget'⟩
    obtain ⟨h1, h2⟩ := hfirst bid buffer buffer' hget hget'
    exact ⟨buffer, hget, by rw [← h1, ← h2]; exact h⟩
  · rintro ⟨buffer, hget, h⟩
    obtain ⟨buffer', hget'⟩ := (hframe.has bid).mpr ⟨buffer, hget⟩
    obtain ⟨h1, h2⟩ := hfirst bid buffer buffer' hget hget'
    exact ⟨buffer', hget', by rw [h1, h2]; exact h⟩

/-- If the `OCCUPIED` slots are the same and hold the same prompts, the finished groups are
kept. -/
theorem finishedKept_of_slots (hc : inv.Consistent) (hc' : inv'.Consistent)
    (hframe : Frame inv inv')
    (hocc : ∀ bid eid, inv'.row bid eid = .occupied ↔ inv.row bid eid = .occupied)
    (hcontent : ∀ bid eid, inv.row bid eid = .occupied →
      inv'.content (bid, eid) = inv.content (bid, eid)) : FinishedKept inv inv' where
  slots := fun bid eid h => ⟨(hocc bid eid).mpr h, hcontent bid eid h⟩
  count := fun bid => by
    unfold occupiedSlots
    rw [hframe.config]
    simp only [hocc]
  ready := readyBufferIds_congr hc hc' hframe hocc
  tracker := fun p hp => by
    obtain ⟨⟨b, e⟩, htracked, hhere, hcat⟩ := hc.wf.of_promptCategory hp
    rw [htracked]
    exact (hc'.wf.tracked p (b, e)).mpr ((hcontent b e hcat).trans hhere)

theorem Trimmed.content (hc : inv.Consistent) (h : Trimmed inv inv') (l : Int × Nat) :
    inv'.content l = inv.content l := by
  refine Option.ext fun p => ?_
  rw [← hc.wf.tracked p l, ← h.consistent.wf.tracked p l, h.index]

/-- Clearing some prompts keeps the finished groups exactly if none of them is finished. -/
theorem finishedKept_iff {ps : List Nat} (hc : inv.Consistent) (hc' : inv'.Consistent)
    (htrim : Trimmed inv inv1) (hall : ClearedAll inv1 inv' ps) (hocc : OccupiedBut inv1 inv' ps) :
    FinishedKept inv inv' ↔ ∀ p ∈ ps, inv.promptCategory p ≠ some .occupied := by
  constructor
  · intro hkept p hp hcat
    obtain ⟨l, htracked, -⟩ := hc.wf.of_promptCategory hcat
    have hgone := Option.map_eq_none_iff.mp (hall.gone p hp)
    rw [hkept.tracker p hcat, htracked] at hgone
    cases hgone
  · intro hnone
    -- an `OCCUPIED` slot of the trimmed inventory holds no cleared prompt
    have hstay : ∀ l info, inv'.slot l = .occupied info ↔ inv1.slot l = .occupied info := by
      intro l info
      rw [hocc l info, and_iff_left_iff_imp]
      intro hl hp
      have hhere : inv1.content l = some info.promptId := by
        unfold content
        rw [hl]
        rfl
      have hcat := htrim.consistent.wf.promptCategory_of_slot hhere
      rw [htrim.promptCategory, hl] at hcat
      exact hnone _ hp hcat
    refine finishedKept_of_slots hc hc' (htrim.frame.trans hall.frame) (fun b e => ?_)
      fun b e hrow => ?_
    · rw [row_eq, row_eq, ← htrim.category, Entry.category_eq_occupied_iff,
        Entry.category_eq_occupied_iff]
      exact exists_congr fun info => hstay (b, e) info
    · rw [row_eq, ← htrim.category] at hrow
      obtain ⟨info, hinfo⟩ := Entry.category_eq_occupied_iff.mp hrow
      rw [← htrim.content hc]
      unfold content
      rw [(hstay _ _).mpr hinfo, hinfo]

end StalenessInventory

namespace PSManager

open StalenessInventory

variable {m m' : PSManager} {ids : Finset Nat}

/-! ### The requests of given up groups -/

/-- The requests to abort together with all recorded requests of the groups that are given
up. -/
def groupClosure (m : PSManager) (ids : Finset Nat) : Finset Nat :=
  ids ∪ (m.givenUp true ids).biUnion fun p =>
    (m.recorded p).image fun i => p * m.rolloutN + i

/-- An index inside a group and a global id mean the same request only for prompt `0`.
Aborting is right if every kept group records its requests in a list, and for every
surviving request of a group that is given up: the request itself belongs to prompt `0` or
needs no abortion, and the request whose global id is its index needs none either, or is to
be aborted anyway. -/
def AbortsGroups (m : PSManager) (ids : Finset Nat) : Prop :=
  (∀ p ∈ ids.image (· / m.rolloutN), m.Droppable true ids p) ∧
  ∀ p ∈ m.givenUp true ids, ∀ i ∈ m.survivors ids p,
    (m.Abortable (p * m.rolloutN + i) → p = 0) ∧
    (m.Abortable i → i ∈ ids ∨ (0 ∈ m.givenUp true ids ∧ i ∈ m.recorded 0))

instance (m : PSManager) (ids : Finset Nat) : Decidable (m.AbortsGroups ids) :=
  inferInstanceAs (Decidable (_ ∧ _))

theorem mem_groupClosure {id : Nat} : id ∈ m.groupClosure ids ↔
    id ∈ ids ∨ ∃ p ∈ m.givenUp true ids, ∃ i ∈ m.recorded p, p * m.rolloutN + i = id := by
  unfold groupClosure
  simp only [Finset.mem_union, Finset.mem_biUnion, Finset.mem_image]

theorem mem_survivors {p i : Nat} :
    i ∈ m.survivors ids p ↔ i ∈ m.recorded p ∧ p * m.rolloutN + i ∉ ids := by
  unfold survivors
  rw [Finset.mem_filter]

theorem Sound.recorded_lt (hm : m.Sound) {p i : Nat} (h : i ∈ m.recorded p) : i < m.rolloutN := by
  unfold PSManager.recorded at h
  split at h
  · rename_i info hentry
    exact (hm.recorded info (hm.inventory.wf.entryOf?_eq_some.mp hentry).2).indices i
      (List.mem_toFinset.mp h)
  · exact absurd h (Finset.notMem_empty i)

/-- A global id below the group size belongs to prompt `0`. -/
theorem prompt_zero_of_lt {n p i : Nat} (h : p * n + i < n) : p = 0 := by
  rcases Nat.eq_zero_or_pos p with hp | hp
  · exact hp
  · have := Nat.le_mul_of_pos_left n hp
    omega

/-- The marked ids are the right ones exactly where the two numberings agree. -/
theorem Sound.marked_iff (hm : m.Sound) :
    (∀ id, m.Abortable id → (id ∈ m.groupClosure ids ↔ id ∈ m.markedIds true ids)) ↔
      ∀ p ∈ m.givenUp true ids, ∀ i ∈ m.survivors ids p,
        (m.Abortable (p * m.rolloutN + i) → p = 0) ∧
        (m.Abortable i → i ∈ ids ∨ (0 ∈ m.givenUp true ids ∧ i ∈ m.recorded 0)) := by
  simp only [mem_groupClosure, mem_markedIds]
  constructor
  · intro h p hp i hi
    obtain ⟨hrec, hnot⟩ := mem_survivors.mp hi
    constructor
    · intro habort
      rcases (h _ habort).mp (.inr ⟨p, hp, i, hrec, rfl⟩) with hid | ⟨q, -, hq⟩
      · exact absurd hid hnot
      · exact prompt_zero_of_lt (hm.recorded_lt (mem_survivors.mp hq).1)
    · intro habort
      rcases (h _ habort).mpr (.inr ⟨p, hp, hi⟩) with hid | ⟨q, hq, j, hj, heq⟩
      · exact .inl hid
      · obtain rfl : q = 0 := prompt_zero_of_lt (heq ▸ hm.recorded_lt hrec)
        obtain rfl : j = i := by simpa using heq
        exact .inr ⟨hq, hj⟩
  · intro h id habort
    constructor
    · rintro (hid | ⟨p, hp, i, hi, rfl⟩)
      · exact .inl hid
      · by_cases hid : p * m.rolloutN + i ∈ ids
        · exact .inl hid
        · have hsurv := mem_survivors.mpr ⟨hi, hid⟩
          obtain rfl := (h p hp i hsurv).1 habort
          exact .inr ⟨0, hp, by simpa using hsurv⟩
    · rintro (hid | ⟨p, hp, hsurv⟩)
      · exact .inl hid
      · refine ((h p hp id hsurv).2 habort).imp_right fun ⟨h0, hrec⟩ => ⟨0, h0, id, hrec, ?_⟩
        simp

/-- **Scope of an abort.** In every state of a run, `abort_requests(ids, abort_group=True)`
returns and aborts exactly the tracked requests among `ids` and the recorded requests of the
groups whose entry it clears, if and only if the state meets `AbortsGroups`. -/
theorem abort_scope_iff {config : PSManagerConfig} (hn : 0 < config.trackerConfig.rolloutN)
    (h : Run.Reachable exec Allowed (new config) m) (order : SetOrder Nat)
    (requestIds : List Nat) :
    (∃ commands m', m.abortRequests order requestIds true = .ok (commands, m') ∧
      RequestStatusTracker.Aborted (m.groupClosure requestIds.toFinset)
        m.toRequestStatusTracker m'.toRequestStatusTracker ∧
      ∀ p, m.stalenessInventory.promptCategory p ≠ none →
        (m'.stalenessInventory.promptCategory p = none ↔
          p ∈ m.givenUp true requestIds.toFinset)) ↔
      m.AbortsGroups requestIds.toFinset := by
  have hm := sound_of_reachable hn h
  obtain ⟨hok, heffect⟩ := hm.abortRequests order requestIds true
  unfold AbortsGroups
  rw [← hok, ← hm.marked_iff]
  constructor
  · rintro ⟨commands, m', habort, haborted, -⟩
    exact ⟨⟨_, habort⟩, (heffect _ _ habort).aborted.iff_of_aborted.mp haborted⟩
  · rintro ⟨⟨⟨commands, m'⟩, habort⟩, hsame⟩
    have he := heffect _ _ habort
    refine ⟨commands, m', habort, he.aborted.iff_of_aborted.mpr hsame, fun p hp => ?_⟩
    obtain ⟨inv, ps, htrim, hps, hall, -⟩ := he.cleared
    rw [← hps]
    constructor
    · intro hnone
      by_contra hnot
      exact hp (by rw [← htrim.promptCategory, ← hall.others p hnot]; exact hnone)
    · exact hall.gone p

/-- Groups of two requests, batches of two groups, staleness one, no redundancy. -/
def pairs : PSManagerConfig where
  rolloutN := 2
  valRolloutN := 1
  stalenessBufferEntries := 2
  staleness := 1
  redundantRollout := none

/-- Requests are added and all of them reserved at version `0`. -/
def reserveAll (ids : List Nat) : List Action :=
  [.addRequest (ids.map fun id => { requestId := id }),
    .reserveRolloutInstanceRequests
      (ids.map fun id => ⟨invalidRolloutInstanceId, id, 0⟩) false false]

/-- Aborting a request of prompt `0` gives up the group and reaches its other request. -/
theorem abort_scope_iff_prompt_zero : ∃ m, Run.Reachable exec Allowed (new pairs) m ∧
    ∃ commands m', m.abortRequests .ascendingNat [0] true = .ok (commands, m') ∧
      RequestStatusTracker.Aborted (m.groupClosure [0].toFinset)
        m.toRequestStatusTracker m'.toRequestStatusTracker ∧
      ∀ p, m.stalenessInventory.promptCategory p ≠ none →
        (m'.stalenessInventory.promptCategory p = none ↔ p ∈ m.givenUp true [0].toFinset) := by
  obtain ⟨m, hreach, hm⟩ : ∃ m, Run.Reachable exec Allowed (new pairs) m ∧
      decide (m.AbortsGroups [0].toFinset) = true :=
    Run.exists_reachable_of_perform (l := reserveAll [0, 1, 2, 3]) (by decide +kernel)
  exact ⟨m, hreach, (abort_scope_iff (by decide) hreach .ascendingNat [0]).mpr
    (of_decide_eq_true hm)⟩

/-- Aborting request `2` gives up the group of prompt `1`. Its request `3` stays unmarked,
while request `1`, which belongs to the untouched prompt `0`, is marked. -/
theorem abort_scope_other_group : ∃ m, Run.Reachable exec Allowed (new pairs) m ∧
    ∃ commands m', m.abortRequests .ascendingNat [2] true = .ok (commands, m') ∧
      m.givenUp true [2].toFinset = {1} ∧
      (3 ∈ m.groupClosure [2].toFinset ∧ m'.Tracks 3 ∧ 3 ∉ m'.abortRequestIds) ∧
      (1 ∉ m.groupClosure [2].toFinset ∧ 1 ∈ m'.abortRequestIds) ∧
      ¬ RequestStatusTracker.Aborted (m.groupClosure [2].toFinset)
        m.toRequestStatusTracker m'.toRequestStatusTracker := by
  obtain ⟨m, hreach, hm⟩ : ∃ m, Run.Reachable exec Allowed (new pairs) m ∧
      (match m.abortRequests .ascendingNat [2] true with
        | .ok (_, m') => decide (m.givenUp true [2].toFinset = {1} ∧
            (3 ∈ m.groupClosure [2].toFinset ∧ m'.Tracks 3 ∧ 3 ∉ m'.abortRequestIds) ∧
            (1 ∉ m.groupClosure [2].toFinset ∧ 1 ∈ m'.abortRequestIds) ∧
            1 ∉ m.abortRequestIds)
        | .error _ => false) = true :=
    Run.exists_reachable_of_perform (l := reserveAll [0, 1, 2, 3]) (by decide +kernel)
  cases hresult : m.abortRequests .ascendingNat [2] true with
  | error e =>
      rw [hresult] at hm
      cases hm
  | ok result =>
      obtain ⟨commands, m'⟩ := result
      rw [hresult] at hm
      obtain ⟨hgiven, h3, h1, hfresh⟩ := of_decide_eq_true hm
      refine ⟨m, hreach, commands, m', hresult, hgiven, h3, h1, fun haborted => ?_⟩
      rcases ((haborted.marks 1).mp h1.2).1 with hold | ⟨hid, -⟩
      · exact hfresh hold
      · exact h1.1 hid

/-! ### Finished groups survive -/

/-- The ways an abort starts: a request list, the reservations of a buffer, or the versions
that are due when a buffer becomes ready. -/
inductive AbortCall
  | requests (requestIds : List Nat) (abortGroup : Bool)
  | reserved (bid : Int)
  | ready (bid : Int)

def AbortCall.run (m : PSManager) (order : SetOrder Nat) : AbortCall → Except PyError PSManager
  | .requests requestIds abortGroup => do
      let (_, m) ← m.abortRequests order requestIds abortGroup
      .ok m
  | .reserved bid => do
      let (_, m) ← m.abortReservedRequests order bid
      .ok m
  | .ready bid => do
      let (_, m) ← m.stalenessAbort order bid
      .ok m

/-- The abort gives up no finished group. -/
def SparesFinished (m : PSManager) : AbortCall → Prop
  | .requests requestIds abortGroup => ∀ p ∈ m.givenUp abortGroup requestIds.toFinset,
      m.stalenessInventory.promptCategory p ≠ some .occupied
  | .reserved _ => True
  | .ready bid => ∀ p ∈ m.givenUp true (m.staleRequests bid),
      m.stalenessInventory.promptCategory p ≠ some .occupied

instance (m : PSManager) (c : AbortCall) : Decidable (m.SparesFinished c) :=
  match c with
  | .requests requestIds abortGroup => inferInstanceAs (Decidable
      (∀ p ∈ m.givenUp abortGroup requestIds.toFinset, _))
  | .reserved _ => inferInstanceAs (Decidable True)
  | .ready bid => inferInstanceAs (Decidable (∀ p ∈ m.givenUp true (m.staleRequests bid), _))

theorem AbortEffect.finishedKept_iff {abortGroup : Bool} (hm : m.Sound)
    (h : AbortEffect abortGroup ids m m') :
    FinishedKept m.stalenessInventory m'.stalenessInventory ↔
      ∀ p ∈ m.givenUp abortGroup ids, m.stalenessInventory.promptCategory p ≠ some .occupied := by
  obtain ⟨inv, ps, htrim, hps, hall, hocc⟩ := h.cleared
  rw [StalenessInventory.finishedKept_iff hm.inventory h.sound.inventory htrim hall hocc]
  simp only [hps]

/-- The prompts `abort_reserved_requests` aborts are reserved. -/
theorem Sound.reservedPrompts (hm : m.Sound) {bid : Int} {buffer : StalenessBuffer}
    (hget : m.stalenessInventory.buffers.get? bid = some buffer) {p : Nat}
    (hp : p ∈ buffer.getReservedEntryIds.filterMap fun eid => (buffer.entryAt eid).promptId?) :
    m.stalenessInventory.promptCategory p = some .reserved := by
  obtain ⟨eid, hmem, hid⟩ := List.mem_filterMap.mp hp
  have hcat : buffer.categoryAt eid = .reserved := by
    simpa using (List.mem_filter.mp hmem).2
  have hslot := slot_of_get? hget eid
  have hcontent : m.stalenessInventory.content (bid, eid) = some p := by
    unfold content
    rw [hslot]
    exact hid
  rw [hm.inventory.wf.promptCategory_of_slot hcontent, hslot]
  exact congrArg some hcat

/-- Aborting the reservations of a buffer gives up no finished group. -/
theorem Sound.reserved_spares (hm : m.Sound) {bid : Int} {buffer : StalenessBuffer}
    (hget : m.stalenessInventory.buffers.get? bid = some buffer) {p : Nat}
    (hp : p ∈ m.givenUp true ((buffer.getReservedEntryIds.filterMap fun eid =>
      (buffer.entryAt eid).promptId?).flatMap fun q =>
        (List.range m.rolloutN).map fun i => q * m.rolloutN + i).toFinset) :
    m.stalenessInventory.promptCategory p ≠ some .occupied := by
  -- every prompt that is hit is one of the reserved ones
  obtain ⟨id, hid, rfl⟩ := Finset.mem_image.mp (mem_givenUp.mp hp).1
  obtain ⟨q, hq, hid⟩ := List.mem_flatMap.mp (List.mem_toFinset.mp hid)
  obtain ⟨i, hi, rfl⟩ := List.mem_map.mp hid
  rw [(div_mod_of_request (List.mem_range.mp hi)).1, hm.reservedPrompts hget hq]
  simp

/-- **Finished data survives aborts.** In every state of a run, an abort that returns leaves
every finished group in its slot, with all counts, ready buffers and tracker entries, if and
only if it gives up no finished group. Aborting the reservations of a buffer never does. -/
theorem abort_keeps_finished_iff {config : PSManagerConfig}
    (hn : 0 < config.trackerConfig.rolloutN)
    (h : Run.Reachable exec Allowed (new config) m) (order : SetOrder Nat) (c : AbortCall)
    (hrun : c.run m order = .ok m') :
    FinishedKept m.stalenessInventory m'.stalenessInventory ↔ m.SparesFinished c := by
  have hm := sound_of_reachable hn h
  cases c with
  | requests requestIds abortGroup =>
      obtain ⟨⟨commands, m1⟩, habort, hrun⟩ := bind_eq_ok.mp hrun
      cases hrun
      exact ((hm.abortRequests order requestIds abortGroup).2 _ _ habort).finishedKept_iff hm
  | reserved bid =>
      obtain ⟨⟨_, m1⟩, hres, hrun⟩ := bind_eq_ok.mp hrun
      cases hrun
      obtain ⟨buffer, hget, hres⟩ := bind_eq_ok.mp hres
      obtain ⟨⟨commands, m2⟩, habort, hres⟩ := bind_eq_ok.mp hres
      cases hres
      have heffect := (hm.abortRequests order _ true).2 _ _ habort
      exact iff_of_true ((heffect.finishedKept_iff hm).mpr fun p hp =>
        hm.reserved_spares (Dict.get_eq_ok.mp hget) hp) trivial
  | ready bid =>
      obtain ⟨⟨ids, m1⟩, hstale, hrun⟩ := bind_eq_ok.mp hrun
      cases hrun
      obtain ⟨-, m2, hm2, hcase⟩ := stalenessAbort_cases hstale
      have hinv : m2.stalenessInventory = m.stalenessInventory := by rw [hm2]
      show _ ↔ ∀ p ∈ m.givenUp true (m.staleRequests bid), _
      rcases hcase with ⟨hnone, rfl⟩ | ⟨commands, habort⟩
      · rw [hinv, hnone]
        refine iff_of_true (finishedKept_of_slots hm.inventory hm.inventory (.refl _)
          (fun _ _ => Iff.rfl) fun _ _ _ => rfl) fun p hp => ?_
        exact absurd (mem_givenUp.mp hp).1 (by simp)
      · have hsound : m2.Sound := by
          rw [hm2]
          exact (hm.withTracker (t := { m.toRequestStatusTracker with
            runningMinVersion := m2.runningMinVersion })
            ⟨hm.tracker.congr rfl (fun _ => Iff.rfl) rfl, rfl⟩).sound.congr rfl rfl
        have heffect := (hsound.abortRequests order _ true).2 _ _ habort
        have hids : (order.toList (m.staleRequests bid)).toFinset = m.staleRequests bid := by
          ext id
          rw [List.mem_toFinset, order.mem_toList]
        have hgiven : m2.givenUp true (m.staleRequests bid) =
            m.givenUp true (m.staleRequests bid) := by
          rw [hm2]
          rfl
        rw [hids] at heffect
        rw [← hinv, heffect.finishedKept_iff hsound, hgiven, hinv]

/-- Three requests for a group, of which two suffice; one group makes a batch. -/
def redundantTriples : PSManagerConfig where
  rolloutN := 2
  valRolloutN := 1
  stalenessBufferEntries := 1
  staleness := 0
  redundantRollout := some
    { redundantRolloutN := 3, algRolloutN := 2, redundantGlobalBatchSize := 1,
      algGlobalBatchSize := 1 }

/-- A group of three is reserved and occupied with its first two requests. -/
def occupyTwoOfThree : List Action :=
  reserveAll [0, 1, 2] ++
    [.updateRequestStatus [⟨0, some .completed, -1, invalidRolloutInstanceId⟩,
      ⟨1, some .completed, -1, invalidRolloutInstanceId⟩] false,
    .occupyRolloutInstanceRequest .ascending 0 (some [0, 1]) false]

/-- Aborting the late third request of the finished group drops it from the entry only. -/
theorem abort_keeps_finished_iff_third : ∃ m m',
    Run.Reachable exec Allowed (new redundantTriples) m ∧
    m.stalenessInventory.promptCategory 0 = some .occupied ∧
    AbortCall.run m .ascendingNat (.requests [2] true) = .ok m' ∧
    FinishedKept m.stalenessInventory m'.stalenessInventory := by
  obtain ⟨m, hreach, hm⟩ : ∃ m, Run.Reachable exec Allowed (new redundantTriples) m ∧
      (match AbortCall.run m .ascendingNat (.requests [2] true) with
        | .ok _ => decide (m.stalenessInventory.promptCategory 0 = some .occupied ∧
            m.SparesFinished (.requests [2] true))
        | .error _ => false) = true :=
    Run.exists_reachable_of_perform (l := occupyTwoOfThree) (by decide +kernel)
  cases hresult : AbortCall.run m .ascendingNat (.requests [2] true) with
  | error e =>
      rw [hresult] at hm
      cases hm
  | ok m' =>
      rw [hresult] at hm
      obtain ⟨hocc, hspares⟩ := of_decide_eq_true hm
      exact ⟨m, m', hreach, hocc, hresult,
        (abort_keeps_finished_iff (by decide) hreach .ascendingNat _ hresult).mpr hspares⟩

/-- When the third request fails late, its siblings are aborted: the finished group falls
below the required size and loses its slot, and its buffer is no longer ready. -/
theorem abort_clears_finished_group : ∃ m m',
    Run.Reachable exec Allowed (new redundantTriples) m ∧
    AbortCall.run m .ascendingNat (.requests [0, 1] true) = .ok m' ∧
    (m.stalenessInventory.promptCategory 0 = some .occupied ∧
      m'.stalenessInventory.promptCategory 0 = none) ∧
    (0 ∈ m.stalenessInventory.readyBufferIds ∧ 0 ∉ m'.stalenessInventory.readyBufferIds) ∧
    ¬ FinishedKept m.stalenessInventory m'.stalenessInventory := by
  obtain ⟨m, hreach, hm⟩ : ∃ m, Run.Reachable exec Allowed (new redundantTriples) m ∧
      (match AbortCall.run m .ascendingNat (.requests [0, 1] true) with
        | .ok m' => decide ((m.stalenessInventory.promptCategory 0 = some .occupied ∧
            m'.stalenessInventory.promptCategory 0 = none) ∧
            0 ∈ m.stalenessInventory.readyBufferIds ∧ 0 ∉ m'.stalenessInventory.readyBufferIds)
        | .error _ => false) = true :=
    Run.exists_reachable_of_perform (l := occupyTwoOfThree) (by decide +kernel)
  cases hresult : AbortCall.run m .ascendingNat (.requests [0, 1] true) with
  | error e =>
      rw [hresult] at hm
      cases hm
  | ok m' =>
      rw [hresult] at hm
      obtain ⟨hcats, hready⟩ := of_decide_eq_true hm
      refine ⟨m, m', hreach, hresult, hcats, hready, fun hkept => hready.2 ?_⟩
      rw [hkept.ready]
      exact hready.1

end PSManager

end Psrl
