import Psrl.Staleness.Runs

/-!
# Psrl.Staleness.RedundantRuns

Runs of a training inventory with redundant slots.

A buffer with more slots than its batch needs keeps reservations behind a complete batch.
Occupying such a reservation can go wrong in two ways. `occupy_data_with_reserve` may find
no place for the group, or evict a reservation into a buffer that is too early for it
(`PlacementOk` excludes both). And the slot the group leaves behind in a complete buffer
is not refilled, so that an `EMPTY` hole opens inside the reserved suffix (`LeavesNoHole`
excludes it). The first defect concerns whether the call returns, the second the layout;
each has its own protocol of use below.
-/

namespace Psrl

open Py

namespace StalenessInventory

open Layout

variable {inv inv' : StalenessInventory} {holesOk : Prop} {staleness : Nat} {promptId : Nat}

/-! ### What may go wrong when a reservation is occupied -/

/-- The prompt is `RESERVED` at `loc`, with minimum version `modelVersion`. -/
structure ReservedAt (inv : StalenessInventory) (promptId : Nat) (loc : Int × Nat)
    (info : EntryInfo) (modelVersion : Int) : Prop where
  tracked : inv.dataTracker.get? promptId = some loc
  slot : inv.slot loc = .reserved info
  version : info.getEntryVersion = .ok modelVersion

/-- The prompt is reserved inside the batch, or a buffer of its window can take it without
evicting a reservation from its own window. -/
def PlacementOk (inv : StalenessInventory) (promptId : Nat) : Prop :=
  ∀ loc info v, inv.ReservedAt promptId loc info v → inv.readyNumEntries ≤ loc.2 →
    inv.RedundantOk (inv.staleness.getD 0) promptId loc v

/-- If the batch of the prompt's buffer is complete and no reservation can move into its
slot, then no reservation precedes it in the buffer. -/
def LeavesNoHole (inv : StalenessInventory) (promptId : Nat) : Prop :=
  ∀ loc info v, inv.ReservedAt promptId loc info v →
    BatchDone inv.readyNumEntries (inv.row loc.1) →
    (∀ x, ¬ Exchangeable inv (inv.staleness.getD 0) promptId loc v x) →
    ∀ i, inv.row loc.1 i = .reserved → loc.2 ≤ i

theorem ReservedAt.promptId_eq {loc : Int × Nat} {info : EntryInfo} {v : Int} (hw : inv.Wf)
    (h : inv.ReservedAt promptId loc info v) : info.promptId = promptId := by
  have hcontent := hw.content_of_tracked h.tracked
  unfold content at hcontent
  rw [h.slot] at hcontent
  exact Option.some.inj hcontent

theorem Good.reservedAt (hg : Good holesOk staleness inv)
    (h : inv.promptCategory promptId = some .reserved) :
    ∃ loc info v, inv.ReservedAt promptId loc info v := by
  obtain ⟨b, e, info, v, hslot, rfl, hv, -⟩ := hg.of_reserved h
  refine ⟨(b, e), info, v, (hg.wf.tracked _ _).mpr ?_, hslot, hv⟩
  unfold content
  rw [hslot]
  rfl

/-- The prompt has a slot inside the batch. -/
def InBatch (inv : StalenessInventory) (promptId : Nat) : Prop :=
  ∃ loc ∈ inv.dataTracker.get? promptId, loc.2 < inv.readyNumEntries

instance (inv : StalenessInventory) (promptId : Nat) : Decidable (inv.InBatch promptId) :=
  inferInstanceAs (Decidable (∃ loc ∈ inv.dataTracker.get? promptId, _))

/-- A group reserved inside the batch meets both conditions. -/
theorem InBatch.ok (h : inv.InBatch promptId) :
    inv.PlacementOk promptId ∧ inv.LeavesNoHole promptId := by
  obtain ⟨loc, htracked, hlt⟩ := h
  refine ⟨fun l info v h hle => ?_, fun l info v h hdone => ?_⟩
  · obtain rfl : loc = l := Option.some.inj (htracked.symm.trans h.tracked)
    omega
  · obtain rfl : loc = l := Option.some.inj (htracked.symm.trans h.tracked)
    have hocc := hdone loc.2 hlt
    rw [row_eq, h.slot] at hocc
    cases hocc

/-- `occupy_data_with_reserve` under the two conditions; the second only matters where
holes do. -/
theorem Good.occupy (order : SetOrder Int) (hg : Good holesOk staleness inv) {loc : Int × Nat}
    {info : EntryInfo} {v : Int} (h : inv.ReservedAt promptId loc info v)
    (hplace : inv.PlacementOk promptId) (hhole : ¬ holesOk → inv.LeavesNoHole promptId)
    (htarget : ∃ c, v ≤ c ∧ c ≤ v + staleness ∧ inv.HasBuffer c ∧
      ¬ BatchDone inv.readyNumEntries (inv.row c)) :
    ∃ b e n inv', inv.occupyDataWithReserve order promptId = .ok ((b, e, n), inv') ∧
      Good holesOk staleness inv' ∧ v ≤ b ∧ b ≤ v + staleness ∧
      OccupyEffect inv inv' info (b, e) := by
  obtain rfl := h.promptId_eq hg.wf
  have hstale : inv.staleness.getD 0 = staleness := by rw [hg.training.stale]; rfl
  refine hg.occupyDataWithReserve order h.slot h.version htarget (fun hn hdone hnone => ?_)
    fun hle => ?_
  · exact hhole hn loc info v h hdone (by rw [hstale]; exact hnone)
  · have := hplace loc info v h hle
    rwa [hstale] at this

/-- A returning occupation under the two conditions keeps the inventory good. -/
theorem Good.occupy_step {order : SetOrder Int} (hg : Good holesOk staleness inv)
    (hres : inv.promptCategory promptId = some .reserved) (hplace : inv.PlacementOk promptId)
    (hhole : ¬ holesOk → inv.LeavesNoHole promptId)
    (hexec : inv.exec (.occupy order promptId) = .ok inv') : Good holesOk staleness inv' := by
  obtain ⟨loc, info, v, h⟩ := hg.reservedAt hres
  obtain ⟨⟨r, inv1⟩, hok, heq⟩ := bind_eq_ok.mp hexec
  cases heq
  have hp := h.promptId_eq hg.wf
  have hstale : inv.staleness.getD 0 = staleness := by rw [hg.training.stale]; rfl
  have htarget := hg.target_of_occupy h.slot h.version (fun hn hdone hnone =>
    hhole hn loc info v h hdone (by rw [hstale, ← hp]; exact hnone)) (by rw [hp]; exact hok)
  obtain ⟨b, e, n, inv2, hok2, hg2, -⟩ := hg.occupy order h hplace hhole htarget
  obtain rfl : inv2 = inv' := by rw [hok] at hok2; cases hok2; rfl
  exact hg2

theorem Good.reserve_step (hg : Good holesOk staleness inv) {req : RequestInfo}
    (hexec : inv.exec (.reserve req) = .ok inv') : Good holesOk staleness inv' := by
  obtain ⟨⟨r, inv1⟩, hok, heq⟩ := bind_eq_ok.mp hexec
  cases heq
  rcases hg.guardedReserve req with ⟨r1, inv1, hok1, hg1, -⟩ | ⟨-, err, herr⟩
  · obtain rfl : inv1 = inv' := by rw [hok] at hok1; cases hok1; rfl
    exact hg1
  · rw [hok] at herr
    cases herr

/-! ### Occupying returns -/

/-- Guarded reservations, occupations, clearing of reservations within their buffer, and
deletion of complete buffers; `condition` further restricts which prompts are occupied. -/
def UseWithRedundancy (condition : StalenessInventory → Nat → Prop) (inv : StalenessInventory) :
    Action → Prop
  | .reserve _ => True
  | .occupy _ promptId =>
      inv.promptCategory promptId = some .reserved ∧ condition inv promptId
  | .clearReserved promptIds across => across = false ∧
      ∀ p ∈ promptIds, inv.promptCategory p ≠ some .occupied
  | .markForDeletion bid => bid ∈ inv.readyBufferIds
  | .delete bid => bid ∈ inv.readyBufferIds
  | _ => False

instance (condition : StalenessInventory → Nat → Prop) [∀ inv p, Decidable (condition inv p)]
    (inv : StalenessInventory) : (a : Action) → Decidable (inv.UseWithRedundancy condition a)
  | .reserve _ => inferInstanceAs (Decidable True)
  | .occupy _ _ => inferInstanceAs (Decidable (_ ∧ _))
  | .clearReserved _ _ => inferInstanceAs (Decidable (_ ∧ _))
  | .markForDeletion bid => inferInstanceAs (Decidable (bid ∈ inv.readyBufferIds))
  | .delete bid => inferInstanceAs (Decidable (bid ∈ inv.readyBufferIds))
  | .ensureBufferExists _ => inferInstanceAs (Decidable False)
  | .updateVersionTag _ _ => inferInstanceAs (Decidable False)
  | .clearOccupied _ => inferInstanceAs (Decidable False)

theorem Good.redundant_step (hg : Good True staleness inv) {a : Action}
    (ha : inv.UseWithRedundancy PlacementOk a) (hexec : inv.exec a = .ok inv') :
    Good True staleness inv' := by
  cases a with
  | reserve req => exact hg.reserve_step hexec
  | occupy order p => exact hg.occupy_step ha.1 ha.2 (fun h => absurd trivial h) hexec
  | clearReserved promptIds across =>
      obtain ⟨rfl, hres⟩ := ha
      obtain ⟨inv1, hok, hg1, -⟩ := hg.clearReservedEntries hres
      obtain rfl : inv1 = inv' := Except.ok.inj (hok.symm.trans hexec)
      exact hg1
  | markForDeletion bid =>
      obtain ⟨hb, hdone⟩ := hg.mem_ready.mp ha
      obtain ⟨inv1, hok, hg1, -⟩ := hg.markBufferForDeletion hb hdone
      obtain rfl : inv1 = inv' := Except.ok.inj (hok.symm.trans hexec)
      exact hg1
  | delete bid =>
      obtain ⟨inv1, hok, hg1, -⟩ := hg.deleteBuffer bid
      obtain rfl : inv1 = inv' := Except.ok.inj (hok.symm.trans hexec)
      exact hg1
  | ensureBufferExists maxId => exact absurd ha id
  | updateVersionTag requestId new => exact absurd ha id
  | clearOccupied promptIds => exact absurd ha id

/-- A tracked prompt that keeps its category sits in exactly one slot. -/
theorem OccupyEffect.tracked_once {info : EntryInfo} {loc : Int × Nat}
    (h : OccupyEffect inv inv' info loc) (hw' : inv'.Wf) {q : Nat} (hq : q ≠ info.promptId)
    (htracked : ∃ l, inv.dataTracker.get? q = some l) :
    ∃ l', inv'.dataTracker.get? q = some l' ∧ ∀ l, inv'.content l = some q ↔ l = l' := by
  obtain ⟨l0, hl0⟩ := htracked
  have hcat : inv'.promptCategory q = some (inv.slot l0).category := by
    rw [h.others q hq]
    unfold promptCategory
    rw [hl0]
    rfl
  obtain ⟨l', hl', hcontent, -⟩ := hw'.of_promptCategory hcat
  refine ⟨l', hl', fun l => ⟨fun hl => hw'.tracked.unique hl hcontent, ?_⟩⟩
  rintro rfl
  exact hcontent

/-- **Occupying with redundant slots.** In every run whose occupations meet `PlacementOk`, a
`RESERVED` prompt that meets it and has a buffer in its window that is not ready can be
occupied: the call returns, the group ends up in its window, and every other tracked
prompt is still tracked in exactly one slot. -/
theorem redundant_run_occupies (staleness numEntries readyNumEntries rolloutN : Nat)
    (hpos : 1 ≤ readyNumEntries) (hlt : readyNumEntries < numEntries) {inv : StalenessInventory}
    (hrun : Run.Reachable exec (UseWithRedundancy PlacementOk)
      (new (trainingConfig staleness numEntries readyNumEntries rolloutN)) inv)
    (order : SetOrder Int) {promptId : Nat} {loc : Int × Nat} {info : EntryInfo} {v : Int}
    (hres : inv.ReservedAt promptId loc info v)
    (htarget : ∃ c ∈ inv.getBuffersNotReady, v ≤ c ∧ c ≤ v + staleness)
    (hplace : inv.PlacementOk promptId) :
    ∃ b e n inv', inv.occupyDataWithReserve order promptId = .ok ((b, e, n), inv') ∧
      v ≤ b ∧ b ≤ v + staleness ∧ inv'.dataTracker.get? promptId = some (b, e) ∧
      inv'.slot (b, e) = .occupied info ∧
      ∀ q, q ≠ promptId → (∃ l, inv.dataTracker.get? q = some l) →
        ∃ l', inv'.dataTracker.get? q = some l' ∧ ∀ l, inv'.content l = some q ↔ l = l' := by
  have hg : Good True staleness inv := hrun.invariant
    (good_new True ⟨rfl, rfl, hpos, hlt.le⟩) fun _ _ _ hs ha hexec => hs.redundant_step ha hexec
  obtain ⟨c, hc, hlow, hhigh⟩ := htarget
  obtain ⟨b, e, n, inv', hok, hg', hl, hh, heffect⟩ := hg.occupy order hres hplace
    (fun h => absurd trivial h) ⟨c, hlow, hhigh, hg.mem_notReady.mp hc⟩
  have hp := hres.promptId_eq hg.wf
  refine ⟨b, e, n, inv', hok, hl, hh, ?_, heffect.placed, fun q hq =>
    heffect.tracked_once hg'.wf (by rw [hp]; exact hq)⟩
  refine (hg'.wf.tracked _ _).mpr ?_
  unfold content
  rw [heffect.placed, ← hp]
  rfl

/-- Prompt `promptId` in its only request, at version `modelVersion`. -/
def singleRequest (promptId : Nat) (modelVersion : Int) : RequestInfo where
  rolloutInstanceId := ("gen", 0)
  promptId := promptId
  requestIdx := 0
  modelVersion := modelVersion

/-- Prompt 0 waits in the redundant slot of buffer 1 while the batch of that buffer is
open and its slot free: the redundant branch takes it. -/
theorem redundant_run_occupies_overflow :
    ∃ inv, Run.Reachable exec (UseWithRedundancy PlacementOk) (new (trainingConfig 1 2 1 1)) inv ∧
      inv.dataTracker.get? 0 = some (1, 1) ∧
      ∃ b e n inv', inv.occupyDataWithReserve .ascending 0 = .ok ((b, e, n), inv') ∧
        0 ≤ b ∧ b ≤ 1 := by
  obtain ⟨inv, hrun, hp⟩ : ∃ inv,
      Run.Reachable exec (UseWithRedundancy InBatch) (new (trainingConfig 1 2 1 1)) inv ∧
        decide (inv.dataTracker.get? 0 = some (1, 1) ∧
          inv.slot (1, 1) = .reserved (singleRequest 0 0).toEntryInfo ∧
          inv.row 1 0 = .empty ∧ inv.HasBuffer 1 ∧ 1 ∈ inv.getBuffersNotReady ∧
          inv.toInventoryConfig = trainingConfig 1 2 1 1 ∧
          BatchDone 1 (inv.row 0)) = true :=
    Run.exists_reachable_of_perform (l := [.reserve (singleRequest 0 0),
      .reserve (singleRequest 1 0), .occupy .ascending 1]) (by decide +kernel)
  obtain ⟨htracked, hslot, hfree, hb, hopen, hconfig, hdone⟩ := of_decide_eq_true hp
  have hrun : Run.Reachable exec (UseWithRedundancy PlacementOk)
      (new (trainingConfig 1 2 1 1)) inv := hrun.mono fun s a ha => by
    cases a with
    | occupy order p => exact ⟨ha.1, (InBatch.ok ha.2).1⟩
    | _ => exact ha
  have hempty : HasEmpty inv.numEntries (inv.row 1) := ⟨0, by rw [hconfig]; decide, hfree⟩
  have hplace : inv.PlacementOk 0 := by
    intro loc info v h _
    obtain rfl : loc = (1, 1) := Option.some.inj (h.tracked.symm.trans htracked)
    obtain rfl : (singleRequest 0 0).toEntryInfo = info := by
      have := hslot.symm.trans h.slot
      cases this
      rfl
    obtain rfl : v = 0 := by
      have := h.version
      cases this
      rfl
    have hstale : inv.staleness.getD 0 = 1 := by rw [hconfig]; rfl
    have hnotDone : ¬ BatchDone inv.readyNumEntries (inv.row 1) := by
      rw [hconfig]
      intro hd
      have := hd 0 (by decide)
      rw [hfree] at this
      cases this
    rw [hstale]
    refine ⟨⟨1, by omega, by omega, hb, hnotDone, .inl ⟨hb, .inl hempty⟩⟩,
      fun c hlow hhigh _ hopen hroom => ?_⟩
    -- buffer 0 is complete and buffer 1 has room, so nothing would be evicted
    obtain rfl | rfl : c = 0 ∨ c = 1 := by omega
    · rw [hconfig] at hopen
      exact absurd hdone hopen
    · exact absurd ⟨hb, .inl hempty⟩ hroom
  obtain ⟨b, e, n, inv', hok, hl, hh, -⟩ := redundant_run_occupies 1 2 1 1 (by decide) (by decide)
    hrun .ascending (v := 0) ⟨htracked, hslot, rfl⟩ ⟨1, hopen, by decide, by decide⟩ hplace
  exact ⟨inv, hrun, htracked, b, e, n, inv', hok, hl, by omega⟩

/-- Prompt 4 is `RESERVED` in the redundant slot of the complete buffer 2. Buffer 1 of its
window is not ready, but full, and no buffer before it has room for an eviction: the
last resort takes the minimum of an empty list. -/
theorem redundant_run_stuck :
    ∃ inv, Run.Reachable exec (UseWithRedundancy fun _ _ => True)
        (new (trainingConfig 1 2 1 1)) inv ∧
      (∃ loc info, inv.ReservedAt 4 loc info 1) ∧
      (∃ c ∈ inv.getBuffersNotReady, (1 : Int) ≤ c ∧ c ≤ 1 + 1) ∧
      inv.occupyDataWithReserve .ascending 4 =
        .error (.valueError "min() arg is an empty sequence") := by
  obtain ⟨inv, hrun, hp⟩ : ∃ inv, Run.Reachable exec (UseWithRedundancy fun _ _ => True)
      (new (trainingConfig 1 2 1 1)) inv ∧
        decide (inv.dataTracker.get? 4 = some (2, 1) ∧
          inv.slot (2, 1) = .reserved (singleRequest 4 1).toEntryInfo ∧
          1 ∈ inv.getBuffersNotReady ∧
          raised (inv.occupyDataWithReserve .ascending 4) =
            some (.valueError "min() arg is an empty sequence")) = true :=
    Run.exists_reachable_of_perform (l := [.reserve (singleRequest 0 0),
      .reserve (singleRequest 1 0), .reserve (singleRequest 2 0), .reserve (singleRequest 3 0),
      .reserve (singleRequest 4 1), .reserve (singleRequest 5 1), .occupy .ascending 5])
      (by decide +kernel)
  obtain ⟨htracked, hslot, hopen, hraised⟩ := of_decide_eq_true hp
  exact ⟨inv, hrun, ⟨_, _, htracked, hslot, rfl⟩, ⟨1, hopen, by decide, by decide⟩,
    raised_eq_some.mp hraised⟩

/-! ### The layout -/

/-- Guarded reservations, occupations and clearing in all modes; `occupyOk` further
restricts which prompts are occupied and `acrossOk` which are cleared across buffers. -/
def UseWithClearing (occupyOk : StalenessInventory → Nat → Prop)
    (acrossOk : StalenessInventory → List Nat → Prop) (inv : StalenessInventory) : Action → Prop
  | .reserve _ => True
  | .occupy _ promptId =>
      inv.promptCategory promptId = some .reserved ∧ occupyOk inv promptId
  | .clearReserved promptIds across =>
      (∀ p ∈ promptIds, inv.promptCategory p ≠ some .occupied) ∧
        (across = true → acrossOk inv promptIds)
  | .clearOccupied promptIds => promptIds.Nodup ∧
      ∀ p ∈ promptIds, inv.promptCategory p = some .occupied
  | _ => False

instance (occupyOk : StalenessInventory → Nat → Prop)
    (acrossOk : StalenessInventory → List Nat → Prop) [∀ inv p, Decidable (occupyOk inv p)]
    [∀ inv ps, Decidable (acrossOk inv ps)] (inv : StalenessInventory) :
    (a : Action) → Decidable (inv.UseWithClearing occupyOk acrossOk a)
  | .reserve _ => inferInstanceAs (Decidable True)
  | .occupy _ _ => inferInstanceAs (Decidable (_ ∧ _))
  | .clearReserved _ _ => inferInstanceAs (Decidable (_ ∧ (_ → _)))
  | .clearOccupied _ => inferInstanceAs (Decidable (_ ∧ _))
  | .markForDeletion _ => inferInstanceAs (Decidable False)
  | .delete _ => inferInstanceAs (Decidable False)
  | .ensureBufferExists _ => inferInstanceAs (Decidable False)
  | .updateVersionTag _ _ => inferInstanceAs (Decidable False)

/-- The occupations that keep the layout. -/
def OccupyKeepsLayout (inv : StalenessInventory) (promptId : Nat) : Prop :=
  inv.PlacementOk promptId ∧ inv.LeavesNoHole promptId

/-- The clearings across buffers that keep the layout: of one prompt, as all callers do it, that
leaves no hole. Of several prompts none is exchanged for another, so a hole may open between
reservations of an open batch. -/
def ClearKeepsLayout (inv : StalenessInventory) (promptIds : List Nat) : Prop :=
  ∃ p, promptIds = [p] ∧ inv.LeavesNoHole p

/-- Clearing one reservation across buffers. -/
theorem Good.clearAcross_step (hg : Good False staleness inv)
    (hres : inv.promptCategory promptId ≠ some .occupied) (hhole : inv.LeavesNoHole promptId) :
    ∃ inv', inv.clearReservedEntries [promptId] true = .ok inv' ∧ Good False staleness inv' := by
  cases hcat : inv.promptCategory promptId with
  | none =>
      -- an untracked prompt is skipped
      have hnone : inv.dataTracker.get? promptId = none := Option.map_eq_none_iff.mp hcat
      refine ⟨inv, ?_, hg⟩
      unfold StalenessInventory.clearReservedEntries clearReservedEntry
      simp only [List.foldlM_cons, List.foldlM_nil, hnone, ok_bind, pure_eq_ok]
      rfl
  | some c =>
      have hc : inv.promptCategory promptId = some .reserved := by
        obtain ⟨loc, -, hcontent, rfl⟩ := hg.wf.of_promptCategory hcat
        rw [hcat] at hres ⊢
        cases hentry : inv.slot loc with
        | empty => exact absurd hentry (slot_ne_empty_of_content hcontent)
        | occupied info => rw [hentry] at hres; exact absurd rfl hres
        | reserved info => rfl
      obtain ⟨loc, info, v, h⟩ := hg.reservedAt hc
      obtain rfl := h.promptId_eq hg.wf
      have hstale : inv.staleness.getD 0 = staleness := by rw [hg.training.stale]; rfl
      obtain ⟨inv', hole, hok, hg', -⟩ := hg.clearAcross h.slot h.version fun _ hdone hnone =>
        hhole loc info v h hdone (by rw [hstale]; exact hnone)
      exact ⟨inv', hok, hg'⟩

theorem Good.clearing_step (hg : Good False staleness inv) {a : Action}
    (ha : inv.UseWithClearing OccupyKeepsLayout ClearKeepsLayout a)
    (hexec : inv.exec a = .ok inv') : Good False staleness inv' := by
  cases a with
  | reserve req => exact hg.reserve_step hexec
  | occupy order p => exact hg.occupy_step ha.1 ha.2.1 (fun _ => ha.2.2) hexec
  | clearReserved promptIds across =>
      obtain ⟨hres, hacross⟩ := ha
      cases across with
      | false =>
          obtain ⟨inv1, hok, hg1, -⟩ := hg.clearReservedEntries hres
          obtain rfl : inv1 = inv' := Except.ok.inj (hok.symm.trans hexec)
          exact hg1
      | true =>
          obtain ⟨p, rfl, hhole⟩ := hacross rfl
          obtain ⟨inv1, hok, hg1⟩ := hg.clearAcross_step (hres p (List.mem_singleton_self p)) hhole
          obtain rfl : inv1 = inv' := Except.ok.inj (hok.symm.trans hexec)
          exact hg1
  | clearOccupied promptIds =>
      obtain ⟨inv1, hok, hg1, -⟩ := hg.clearOccupiedEntries ha.1 ha.2
      obtain rfl : inv1 = inv' := Except.ok.inj (hok.symm.trans hexec)
      exact hg1
  | markForDeletion bid => exact absurd ha id
  | delete bid => exact absurd ha id
  | ensureBufferExists maxId => exact absurd ha id
  | updateVersionTag requestId new => exact absurd ha id

/-- **The layout with redundant slots.** In every run whose occupations and clearings across
buffers keep the layout, every buffer reads `OCCUPIED* EMPTY* RESERVED*`, and the minimum
version of a `RESERVED` entry lies in the window of its buffer. -/
theorem redundant_run_laidOut (staleness numEntries readyNumEntries rolloutN : Nat)
    (hpos : 1 ≤ readyNumEntries) (hlt : readyNumEntries < numEntries) {inv : StalenessInventory}
    (hrun : Run.Reachable exec (UseWithClearing OccupyKeepsLayout ClearKeepsLayout)
      (new (trainingConfig staleness numEntries readyNumEntries rolloutN)) inv) :
    (∀ bid buffer, inv.buffers.get? bid = some buffer → buffer.LaidOut) ∧
    ∀ bid eid info, inv.slot (bid, eid) = .reserved info →
      ∃ v, info.getEntryVersion = .ok v ∧ bid - staleness ≤ v ∧ v ≤ bid := by
  have hg : Good False staleness inv := hrun.invariant
    (good_new False ⟨rfl, rfl, hpos, hlt.le⟩) fun _ _ _ hs ha hexec => hs.clearing_step ha hexec
  exact ⟨fun _ _ hget => hg.laidOut hget,
    fun bid eid info hinfo => (hg.orderly.window bid eid info hinfo).version⟩

theorem redundant_run_laidOut_two_groups :
    ∃ inv, Run.Reachable exec (UseWithClearing OccupyKeepsLayout ClearKeepsLayout)
        (new (trainingConfig 1 3 1 1)) inv ∧
      inv.promptCategory 0 = some .reserved ∧ inv.promptCategory 2 = some .occupied ∧
      ∀ bid buffer, inv.buffers.get? bid = some buffer → buffer.LaidOut := by
  obtain ⟨inv, hrun, hp⟩ : ∃ inv, Run.Reachable exec
      (UseWithClearing InBatch fun _ _ => False) (new (trainingConfig 1 3 1 1)) inv ∧
        decide (inv.promptCategory 0 = some .reserved ∧
          inv.promptCategory 2 = some .occupied) = true :=
    Run.exists_reachable_of_perform (l := [.reserve (singleRequest 0 0),
      .reserve (singleRequest 1 0), .reserve (singleRequest 2 0), .occupy .ascending 2,
      .clearReserved [1] false]) (by decide +kernel)
  obtain ⟨h0, h2⟩ := of_decide_eq_true hp
  have hrun : Run.Reachable exec (UseWithClearing OccupyKeepsLayout ClearKeepsLayout)
      (new (trainingConfig 1 3 1 1)) inv := hrun.mono fun s a ha => by
    cases a with
    | occupy order p => exact ⟨ha.1, InBatch.ok ha.2⟩
    | clearReserved ps across => exact ⟨ha.1, fun h => absurd (ha.2 h) id⟩
    | _ => exact ha
  exact ⟨inv, hrun, h0, h2, (redundant_run_laidOut 1 3 1 1 (by decide) (by decide) hrun).1⟩

/-- Prompt 3 leaves slot 2 of the complete buffer 2, in which prompt 4 still waits in
slot 1: the buffer reads `OCCUPIED RESERVED EMPTY`. -/
theorem redundant_run_hole :
    ∃ inv, Run.Reachable exec (UseWithClearing (fun _ _ => True) fun _ _ => True)
        (new (trainingConfig 1 3 1 1)) inv ∧
      ∃ buffer, inv.buffers.get? 2 = some buffer ∧
        buffer.entries.map Entry.category = [.occupied, .reserved, .empty] ∧
        ¬ buffer.LaidOut := by
  obtain ⟨inv, hrun, hp⟩ : ∃ inv, Run.Reachable exec
      (UseWithClearing (fun _ _ => True) fun _ _ => True) (new (trainingConfig 1 3 1 1)) inv ∧
        decide (∃ buffer ∈ inv.buffers.get? 2,
          buffer.entries.map Entry.category = [.occupied, .reserved, .empty] ∧
            ¬ buffer.LaidOut) = true :=
    Run.exists_reachable_of_perform (l := [.reserve (singleRequest 0 0),
      .reserve (singleRequest 1 0), .reserve (singleRequest 2 0), .reserve (singleRequest 3 1),
      .reserve (singleRequest 4 1), .reserve (singleRequest 5 1), .occupy .ascending 5,
      .occupy .ascending 3]) (by decide +kernel)
  obtain ⟨buffer, hget, h⟩ := of_decide_eq_true hp
  exact ⟨inv, hrun, buffer, hget, h⟩

end StalenessInventory

end Psrl
