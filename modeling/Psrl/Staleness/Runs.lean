import Psrl.Lib.Run
import Psrl.Staleness.Consistent
import Psrl.Staleness.Redundant

/-!
# Psrl.Staleness.Runs

Runs of a training inventory without redundant slots.

`Action` lists the calls a run is made of and `exec` performs one of them. Which calls a
run may make is a protocol of use, a predicate on the inventory and the call. The one of
this module, `UseWithoutRedundancy`, is that of the parameter server: reservations are
guarded, a version is only raised, and only to a version that every open buffer may still
train on. Every step of such a run returns, and the inventory stays laid out and exactly
tracked.
-/

namespace Psrl

open Py

namespace StalenessInventory

open Layout

variable {inv inv' : StalenessInventory} {holesOk : Prop} {staleness : Nat}

/-- The calls a run is made of. -/
inductive Action
  | ensureBufferExists (maxStalenessBufferId : Int)
  | reserve (req : RequestInfo)
  | updateVersionTag (requestId : Nat) (newVersionTag : Int)
  | clearReserved (promptIds : List Nat) (moveAcrossBuffer : Bool)
  | clearOccupied (promptIds : List Nat)
  | markForDeletion (bid : Int)
  | delete (bid : Int)
  | occupy (order : SetOrder Int) (promptId : Nat)

/-- Perform one call. -/
def exec (inv : StalenessInventory) : Action → Except PyError StalenessInventory
  | .ensureBufferExists maxId => inv.ensureBufferExists (some maxId)
  | .reserve req => do
    let (_, inv) ← inv.guardedReserve req
    .ok inv
  | .updateVersionTag requestId new => inv.updateRequestVersionTag requestId new
  | .clearReserved promptIds across => inv.clearReservedEntries promptIds across
  | .clearOccupied promptIds => inv.clearOccupiedEntries promptIds
  | .markForDeletion bid => inv.markBufferForDeletion bid
  | .delete bid => inv.deleteBuffer bid
  | .occupy order promptId => do
    let (_, inv) ← inv.occupyDataWithReserve order promptId
    .ok inv

/-- The entry of a prompt that is still `RESERVED`. -/
def reservedInfo? (inv : StalenessInventory) (promptId : Nat) : Option EntryInfo :=
  match (inv.dataTracker.get? promptId).map inv.slot with
  | some (.reserved info) => some info
  | _ => none

theorem reservedInfo?_eq_some {promptId : Nat} {info : EntryInfo} :
    inv.reservedInfo? promptId = some info ↔
      ∃ loc, inv.dataTracker.get? promptId = some loc ∧ inv.slot loc = .reserved info := by
  unfold reservedInfo?
  cases inv.dataTracker.get? promptId with
  | none => simp
  | some loc => cases hslot : inv.slot loc <;> simp [hslot]

/-- A `RESERVED` prompt has an entry with a version, in the window of its buffer. -/
theorem Good.of_reserved (hg : Good holesOk staleness inv) {promptId : Nat}
    (h : inv.promptCategory promptId = some .reserved) :
    ∃ b e info v, inv.slot (b, e) = .reserved info ∧ info.promptId = promptId ∧
      info.getEntryVersion = .ok v ∧ v ≤ b ∧ b ≤ v + staleness ∧ e < inv.numEntries ∧
      inv.HasBuffer b := by
  obtain ⟨⟨b, e⟩, htracked, hcontent, hcat⟩ := hg.wf.of_promptCategory h
  obtain ⟨info, hinfo⟩ := Entry.category_eq_reserved_iff.mp hcat
  obtain ⟨v, hv, hlow, hhigh⟩ := (hg.orderly.window b e info hinfo).version
  obtain ⟨hb, he⟩ := hg.wf.hasBuffer_of_tracked htracked
  refine ⟨b, e, info, v, hinfo, ?_, hv, hhigh, by omega, he, hb⟩
  unfold content at hcontent
  rw [hinfo] at hcontent
  exact Option.some.inj hcontent

/-- A new training inventory is good. -/
theorem good_new (holesOk : Prop) {config : InventoryConfig} (ht : config.Training staleness) :
    Good holesOk staleness (new config) := by
  have hconfig : config.normalize = config := by
    unfold InventoryConfig.normalize
    rw [ht.train]
    rfl
  obtain ⟨hw, hc⟩ := consistent_new config
  refine ⟨?_, hw, hc, ⟨fun b => ?_, fun b e info h => by cases h⟩⟩
  · rw [show (new config).toInventoryConfig = config from hconfig]
    exact ht
  · rw [show (new config).row b = fun _ => .empty from rfl]
    exact shaped_empty

theorem Good.laidOut (hg : Good False staleness inv) {bid : Int} {buffer : StalenessBuffer}
    (hget : inv.buffers.get? bid = some buffer) : buffer.LaidOut := by
  obtain ⟨hnum, hready⟩ := hg.wf.sized _ _ hget
  have hshape := hg.orderly.shaped bid
  rw [row_of_get? hget, ← hnum, ← hready] at hshape
  exact StalenessBuffer.laidOut_of_right hshape (hshape.right fun h => h.1)

theorem Wf.tracked_iff (hw : inv.Wf) {promptId : Nat} {bid : Int} {eid : Nat} :
    inv.dataTracker.get? promptId = some (bid, eid) ↔
      ∃ buffer, inv.buffers.get? bid = some buffer ∧
        (buffer.entryAt eid).promptId? = some promptId := by
  rw [hw.tracked promptId (bid, eid)]
  unfold content slot slotAt
  cases inv.buffers.get? bid with
  | none => simp [Entry.promptId?, Entry.entryInfo?]
  | some buffer => simp

/-- The configuration of a training inventory. -/
def trainingConfig (staleness numEntries readyNumEntries rolloutN : Nat) : InventoryConfig where
  staleness := some staleness
  numEntries := numEntries
  readyNumEntries := readyNumEntries
  rolloutN := rolloutN

/-! ### Every reservation has a version for each recorded request -/

/-- The versions of every reservation cover its requests, so a version can be changed. -/
def Versioned (inv : StalenessInventory) : Prop :=
  ∀ l info, inv.slot l = .reserved info → info.VersionsCover

/-- An operation that only moves or drops reservations keeps them covered. -/
theorem Versioned.of_origin (h : inv.Versioned)
    (horigin : ∀ l info, inv'.slot l = .reserved info → ∃ l0, inv.slot l0 = .reserved info) :
    inv'.Versioned := by
  intro l info hl
  obtain ⟨l0, hl0⟩ := horigin l info hl
  exact h l0 info hl0

theorem Versioned.of_clearedAll (h : inv.Versioned) {promptIds : List Nat}
    (hall : ClearedAll inv inv' promptIds) : inv'.Versioned := by
  refine h.of_origin fun l info hl => ?_
  obtain ⟨e, he⟩ := hall.origin l (by rw [hl]; simp)
  exact ⟨(l.1, e), he.trans hl⟩

/-- An operation that rewrites one slot keeps them covered if it does so in that slot. -/
theorem Versioned.of_update (h : inv.Versioned) {loc : Int × Nat} {entry : Entry}
    (hslot : inv'.slot = Function.update inv.slot loc entry)
    (hentry : ∀ info, entry = .reserved info → info.VersionsCover) : inv'.Versioned := by
  intro l info hl
  rw [hslot, Function.update_apply] at hl
  split at hl
  · exact hentry info hl
  · exact h l info hl

theorem Versioned.reserve (h : inv.Versioned) {req : RequestInfo} {r : Option (Int × Nat)}
    (heffect : ReserveEffect inv inv' req r) : inv'.Versioned := by
  cases heffect with
  | refused hgrown => exact h.of_origin fun l info hl => ⟨l, by rw [← hgrown.slot]; exact hl⟩
  | fresh loc _ _ hslot =>
      refine h.of_update hslot fun info hinfo => ?_
      cases hinfo
      exact EntryInfo.versionsCover_toEntryInfo req
  | joined loc info hinfo _ hslot =>
      refine h.of_update hslot fun info' hinfo' => ?_
      cases hentry : inv.slot loc with
      | empty => rw [hentry] at hinfo; cases hinfo
      | occupied i => rw [hentry] at hinfo'; cases hinfo'
      | reserved i =>
          rw [hentry] at hinfo hinfo'
          cases hinfo
          cases hinfo'
          exact (h loc info hentry).recordRequest req

/-! ### The protocol without redundant slots -/

/-- The version that a `RESERVED` entry has at the position of the request is raised. It need not be
the version of that request: `model_version` may be out of step with `request_idx`. -/
def RaisesVersion (inv : StalenessInventory) (requestId : Nat) (newVersionTag : Int) : Prop :=
  ∀ info ∈ inv.reservedInfo? (requestId / inv.rolloutN),
    ∃ old, info.recordedVersion (requestId % inv.rolloutN) = some old ∧ old ≤ newVersionTag

/-- The request is recorded in a `RESERVED` entry. -/
def RecordsReserved (inv : StalenessInventory) (requestId : Nat) : Prop :=
  ∃ info ∈ inv.reservedInfo? (requestId / inv.rolloutN),
    requestId % inv.rolloutN ∈ info.getAllRequestRelativeIds

/-- The protocol of use of a training inventory without redundant slots. -/
def UseWithoutRedundancy (inv : StalenessInventory) : Action → Prop
  | .ensureBufferExists _ => True
  | .reserve req => 1 ≤ req.modelVersion + (inv.staleness.getD 0 : Nat) ∧
      inv.promptCategory req.promptId ≠ some .occupied
  | .updateVersionTag requestId new => (inv.RecordsReserved requestId ∧
      ∀ bid ∈ inv.getBuffersNotReady, new ≤ bid) ∧ inv.RaisesVersion requestId new
  | .clearReserved promptIds across => across = false ∧
      ∀ p ∈ promptIds, inv.promptCategory p = some .reserved
  | .clearOccupied promptIds => promptIds.Nodup ∧
      ∀ p ∈ promptIds, inv.promptCategory p = some .occupied
  | .markForDeletion bid => bid ∈ inv.readyBufferIds
  | .delete bid => bid ∈ inv.readyBufferIds
  | .occupy _ promptId => inv.promptCategory promptId = some .reserved

instance (inv : StalenessInventory) (requestId : Nat) (new : Int) :
    Decidable (inv.RaisesVersion requestId new) := by
  unfold RaisesVersion
  infer_instance

instance (inv : StalenessInventory) (requestId : Nat) :
    Decidable (inv.RecordsReserved requestId) := by
  unfold RecordsReserved
  infer_instance

instance (inv : StalenessInventory) : (a : Action) → Decidable (inv.UseWithoutRedundancy a)
  | .ensureBufferExists _ => inferInstanceAs (Decidable True)
  | .reserve _ => inferInstanceAs (Decidable (_ ∧ _))
  | .updateVersionTag _ _ => inferInstanceAs (Decidable (_ ∧ _))
  | .clearReserved _ _ => inferInstanceAs (Decidable (_ ∧ _))
  | .clearOccupied _ => inferInstanceAs (Decidable (_ ∧ _))
  | .markForDeletion bid => inferInstanceAs (Decidable (bid ∈ inv.readyBufferIds))
  | .delete bid => inferInstanceAs (Decidable (bid ∈ inv.readyBufferIds))
  | .occupy _ p => inferInstanceAs (Decidable (inv.promptCategory p = some .reserved))

/-- The invariant of a run without redundant slots. -/
structure PlainRun (staleness : Nat) (inv : StalenessInventory) : Prop where
  good : Good False staleness inv
  plain : inv.numEntries = inv.readyNumEntries
  versioned : inv.Versioned

theorem PlainRun.congr (h : PlainRun staleness inv) (hg : Good False staleness inv')
    (hconfig : inv'.toInventoryConfig = inv.toInventoryConfig) (hv : inv'.Versioned) :
    PlainRun staleness inv' :=
  ⟨hg, by rw [hconfig]; exact h.plain, hv⟩

/-- Without redundant slots the buffer of a reservation is open. -/
theorem PlainRun.open_of_reserved (h : PlainRun staleness inv) {b : Int} {e : Nat}
    {info : EntryInfo} (hslot : inv.slot (b, e) = .reserved info) (he : e < inv.numEntries) :
    ¬ BatchDone inv.readyNumEntries (inv.row b) := by
  intro hdone
  have hocc := hdone e (by rw [← h.plain]; exact he)
  rw [row_eq, hslot] at hocc
  cases hocc

theorem PlainRun.raise (h : PlainRun staleness inv) {requestId : Nat} {new : Int}
    (hrecorded : inv.RecordsReserved requestId) (hnew : ∀ bid ∈ inv.getBuffersNotReady, new ≤ bid)
    (hraise : inv.RaisesVersion requestId new) :
    ∃ inv', inv.updateRequestVersionTag requestId new = .ok inv' ∧ PlainRun staleness inv' := by
  obtain ⟨info, hinfo, hrec⟩ := hrecorded
  obtain ⟨old, hold, hle⟩ := hraise info hinfo
  obtain ⟨⟨b, e⟩, htracked, hloc⟩ := reservedInfo?_eq_some.mp hinfo
  obtain ⟨hb, he⟩ := h.good.wf.hasBuffer_of_tracked htracked
  -- the entry's own buffer is not ready, so the new version does not overtake it
  have hbuf : new ≤ b := hnew b (h.good.mem_notReady.mpr ⟨hb, h.open_of_reserved hloc he⟩)
  obtain ⟨inv', info', hok, hg', hconfig, hupd, hslot⟩ := h.good.updateRequestVersionTag
    htracked hloc (h.versioned _ _ hloc) hrec hold hle hbuf
  refine ⟨inv', hok, h.congr hg' hconfig (h.versioned.of_update hslot fun i hi => ?_)⟩
  cases hi
  exact (h.versioned _ _ hloc).updateModelVersion hupd

/-- A reserved group finishes in a buffer of the window of its version. -/
theorem PlainRun.occupy (h : PlainRun staleness inv) (order : SetOrder Int) {promptId : Nat}
    (hres : inv.promptCategory promptId = some .reserved) :
    ∃ l info v loc n inv', inv.slot l = .reserved info ∧ info.getEntryVersion = .ok v ∧
      loc.1 ≤ v + staleness ∧
      inv.occupyDataWithReserve order promptId = .ok ((loc.1, loc.2, n), inv') ∧
      OccupyEffect inv inv' info loc ∧ PlainRun staleness inv' := by
  obtain ⟨b, e, info, v, hloc, rfl, hv, hlow, hhigh, he, hb⟩ := h.good.of_reserved hres
  have hopen := h.open_of_reserved hloc he
  obtain ⟨b', e', n, inv', hok, hg', -, hle, heffect⟩ := h.good.occupyDataWithReserve order hloc hv
    ⟨b, hlow, hhigh, hb, hopen⟩ (fun _ hdone => absurd hdone hopen)
    (fun hle => absurd hle (by have := h.plain; omega))
  refine ⟨(b, e), info, v, (b', e'), n, inv', hloc, hv, hle, hok, heffect,
    h.congr hg' heffect.frame.config (h.versioned.of_origin fun l i hl => ?_)⟩
  exact (heffect.reserved l i hl).2

/-- Every call of the protocol returns and keeps the invariant. -/
theorem PlainRun.step (h : PlainRun staleness inv) (a : Action)
    (ha : inv.UseWithoutRedundancy a) :
    ∃ inv', inv.exec a = .ok inv' ∧ PlainRun staleness inv' := by
  cases a with
  | ensureBufferExists maxId =>
      obtain ⟨inv', hok, hg', hgrown, -⟩ := h.good.ensureBufferExists maxId
      exact ⟨inv', hok, h.congr hg' hgrown.config
        (h.versioned.of_origin fun l info hl => ⟨l, by rw [← hgrown.slot]; exact hl⟩)⟩
  | reserve req =>
      rcases h.good.guardedReserve req with ⟨r, inv', hok, hg', hconfig, heffect⟩ | ⟨hzero, -⟩
      · refine ⟨inv', ?_, h.congr hg' hconfig (h.versioned.reserve heffect)⟩
        unfold exec
        simp only [hok, ok_bind]
      · have hpos : 1 ≤ req.modelVersion + (inv.staleness.getD 0 : Nat) := ha.1
        rw [h.good.training.stale, Option.getD_some] at hpos
        omega
  | updateVersionTag requestId new => exact h.raise ha.1.1 ha.1.2 ha.2
  | clearReserved promptIds across =>
      obtain ⟨rfl, hres⟩ := ha
      obtain ⟨inv', hok, hg', hall, -⟩ := h.good.clearReservedEntries
        fun p (hp : p ∈ promptIds) => by rw [hres p hp]; simp
      exact ⟨inv', hok, h.congr hg' hall.frame.config (h.versioned.of_clearedAll hall)⟩
  | clearOccupied promptIds =>
      obtain ⟨inv', hok, hg', hall⟩ := h.good.clearOccupiedEntries ha.1 ha.2
      exact ⟨inv', hok, h.congr hg' hall.frame.config (h.versioned.of_clearedAll hall)⟩
  | markForDeletion bid =>
      obtain ⟨hb, hdone⟩ := h.good.mem_ready.mp ha
      obtain ⟨inv', hok, hg', hconfig, hslot⟩ := h.good.markBufferForDeletion hb hdone
      exact ⟨inv', hok, h.congr hg' hconfig
        (h.versioned.of_origin fun l info hl => ⟨l, by rw [← hslot]; exact hl⟩)⟩
  | delete bid =>
      obtain ⟨inv', hok, hg', hconfig, hslot⟩ := h.good.deleteBuffer bid
      refine ⟨inv', hok, h.congr hg' hconfig (h.versioned.of_origin fun l info hl => ⟨l, ?_⟩)⟩
      rw [hslot] at hl
      dsimp only at hl
      split at hl
      · cases hl
      · exact hl
  | occupy order promptId =>
      obtain ⟨_, _, _, _, _, inv', -, -, -, hok, -, h'⟩ := h.occupy order ha
      refine ⟨inv', ?_, h'⟩
      unfold exec
      simp only [hok, ok_bind]

/-- **Runs without redundant slots.** In every run that keeps to the protocol no call
raises, every buffer reads `OCCUPIED* EMPTY* RESERVED*`, and the tracker maps a prompt to a
slot exactly when that slot holds the prompt. -/
theorem plain_run_safe (staleness numEntries rolloutN : Nat) (hn : 1 ≤ numEntries)
    {inv : StalenessInventory}
    (h : Run.Reachable exec UseWithoutRedundancy
      (new (trainingConfig staleness numEntries numEntries rolloutN)) inv) :
    (∀ a, inv.UseWithoutRedundancy a → ∃ inv', inv.exec a = .ok inv') ∧
    (∀ bid buffer, inv.buffers.get? bid = some buffer → buffer.LaidOut) ∧
    ∀ promptId bid eid, inv.dataTracker.get? promptId = some (bid, eid) ↔
      ∃ buffer, inv.buffers.get? bid = some buffer ∧
        (buffer.entryAt eid).promptId? = some promptId := by
  have hinit : PlainRun staleness
      (new (trainingConfig staleness numEntries numEntries rolloutN)) :=
    ⟨good_new False ⟨rfl, rfl, hn, le_rfl⟩, rfl, fun _ _ hl => by cases hl⟩
  obtain ⟨hrun, hsafe⟩ := h.safe hinit fun _ a hs ha => hs.step a ha
  exact ⟨hsafe, fun _ _ hget => hrun.good.laidOut hget,
    fun _ _ _ => hrun.good.wf.tracked_iff⟩

/-- A run in which two groups of two requests share the buffers of two versions. -/
def plainRunActions : List Action :=
  [.reserve ⟨("gen", 0), 0, 0, 0, 1, false⟩, .reserve ⟨("gen", 0), 1, 0, 0, 1, false⟩,
   .reserve ⟨("gen", 0), 0, 1, 0, 1, false⟩, .occupy .ascending 1,
   .updateVersionTag 1 0, .reserve ⟨("gen", 0), 2, 0, 1, 1, false⟩]

theorem plain_run_safe_two_versions :
    ∃ inv, Run.Reachable exec UseWithoutRedundancy (new (trainingConfig 1 2 2 2)) inv ∧
      inv.promptCategory 0 = some .reserved ∧ inv.promptCategory 1 = some .occupied ∧
      (∃ inv', inv.exec (.occupy .ascending 0) = .ok inv') ∧
      ∀ bid buffer, inv.buffers.get? bid = some buffer → buffer.LaidOut := by
  obtain ⟨inv, hrun, hp⟩ : ∃ inv,
      Run.Reachable exec UseWithoutRedundancy (new (trainingConfig 1 2 2 2)) inv ∧
        decide (inv.promptCategory 0 = some .reserved ∧
          inv.promptCategory 1 = some .occupied) = true :=
    Run.exists_reachable_of_perform (l := plainRunActions) (by decide +kernel)
  obtain ⟨h0, h1⟩ := of_decide_eq_true hp
  obtain ⟨hsafe, hlaid, -⟩ := plain_run_safe 1 2 2 (by decide) hrun
  exact ⟨inv, hrun, h0, h1, hsafe _ h0, hlaid⟩

/-- The version last reserved or set for a request by a list of calls. -/
def lastVersion (rolloutN requestId : Nat) (calls : List Action) : Option Int :=
  calls.foldl (fun last call => match call with
    | .reserve req =>
        if req.promptId * rolloutN + req.requestIdx = requestId then some req.modelVersion else last
    | .updateVersionTag id new => if id = requestId then some new else last
    | _ => last) none

/-- The second request of prompt 0 joins at version 0, but after the raise of the third one
`model_version` reads `[2, 2, 3, 2]`. So the group may be moved as far as buffer 5. -/
def misledRunActions : List Action :=
  [.reserve ⟨("gen", 0), 3, 0, 0, 1, false⟩, .occupy .ascending 3,
   .reserve ⟨("gen", 0), 4, 0, 0, 1, false⟩, .occupy .ascending 4,
   .reserve ⟨("gen", 0), 5, 0, 0, 1, false⟩, .occupy .ascending 5,
   .reserve ⟨("gen", 0), 1, 0, 2, 1, false⟩, .reserve ⟨("gen", 0), 2, 0, 2, 1, false⟩,
   .reserve ⟨("gen", 0), 0, 0, 2, 1, false⟩, .reserve ⟨("gen", 0), 0, 1, 0, 1, false⟩,
   .reserve ⟨("gen", 0), 0, 2, 2, 1, false⟩, .updateVersionTag 2 3,
   .occupy .ascending 1, .occupy .ascending 2]

/-- The version of the second request is raised from 0 to 1, and its group cannot be occupied. -/
theorem plain_run_misled : lastVersion 3 1 misledRunActions = some 0 ∧
    ∃ inv inv', Run.perform exec UseWithoutRedundancy (new (trainingConfig 3 1 1 3))
        misledRunActions = some inv ∧
      inv.RecordsReserved 1 ∧ (∀ bid ∈ inv.getBuffersNotReady, 1 ≤ bid) ∧
      inv.exec (.updateVersionTag 1 1) = .ok inv' ∧ inv'.promptCategory 0 = some .reserved ∧
      inv'.exec (.occupy .ascending 0) =
        .error (.assertionError "No occupation target found. Prompt ID: 0.") := by
  refine ⟨by decide, ?_⟩
  have hrun : ((Run.perform exec UseWithoutRedundancy (new (trainingConfig 3 1 1 3))
      misledRunActions).map fun inv => decide (inv.RecordsReserved 1 ∧
        (∀ bid ∈ inv.getBuffersNotReady, 1 ≤ bid) ∧ (∃ inv' ∈
          (inv.exec (.updateVersionTag 1 1)).toOption, inv'.promptCategory 0 = some .reserved ∧
          raised (inv'.exec (.occupy .ascending 0)) =
            some (.assertionError "No occupation target found. Prompt ID: 0.")))) = some true := by
    decide +kernel
  obtain ⟨inv, hinv, hp⟩ := Option.map_eq_some_iff.mp hrun
  obtain ⟨hrecorded, hopen, inv', hok, hreserved, hraised⟩ := of_decide_eq_true hp
  exact ⟨inv, inv', hinv, hrecorded, hopen, toOption_eq_some_iff.mp hok, hreserved,
    raised_eq_some.mp hraised⟩

end StalenessInventory

end Psrl
