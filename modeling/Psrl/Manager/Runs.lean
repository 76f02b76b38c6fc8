import Psrl.Lib.Run
import Psrl.Manager.Abort

/-!
# Psrl.Manager.Runs

Every sequence of calls the manager receives.

The calls come from several components that know of each other only through the manager, so
a run may take them in any order and with any arguments. `Sound` survives every call that
returns: the tracker and the training inventory stay exact, and the requests recorded for a
group stay inside it.
-/

namespace Psrl

open Py

namespace PSManager

open StalenessInventory

variable {m m' : PSManager}

/-- A call of the manager that may change its state. -/
inductive Action
  | registerRolloutInstance (ids : List RolloutInstanceId)
  | addRequest (reqs : List NewRequest)
  | updateRequestStatus (updates : List StatusUpdate) (isValidate : Bool)
  | removeRequest (requestIds : List Nat)
  | checkAbortedRequests (requestIds : List Nat) (remove : Bool)
  | setValStalenessInventoryCapacity (readyNumEntries : Nat) (numEntries : Option Nat)
  | ensureTrainBufferExists (bid : Int)
  | ensureValidateBufferExists
  | canReserveRequest (requests : List (Nat × Bool)) (modelVersions : List Int)
      (withoutNewReserveEntry : Bool)
  | getReserveIndicator (requestId : Nat) (modelVersions : List Int) (isValidate : Bool)
  | reserveRolloutInstanceRequests (rs : List Reservation) (guaranteeNotAborted isValidate : Bool)
  | updateRequestVersionTag (requestId : Nat) (newVersionTag : Int) (isValidate : Bool)
  | updateRequestInstanceId (requestId : Nat) (newInstanceId : RolloutInstanceId)
      (isValidate : Bool)
  | updateRequestNTrajectory (requestId nTrajectory : Nat) (isValidate : Bool)
  | moveOccupiedEntries (entryInfos : List EntryInfo) (bid : Int) (isValidate : Bool)
  | clearOccupiedEntries (promptIds : List Nat) (isValidate : Bool)
  | clearReservedEntries (promptIds : List Nat) (moveAcrossBuffer isValidate : Bool)
  | occupyRolloutInstanceRequest (bufferOrder : SetOrder Int) (promptId : Nat)
      (requestIds : Option (List Nat)) (isValidate : Bool)
  | abortRequests (order : SetOrder Nat) (requestIds : List Nat) (abortGroup : Bool)
  | abortReservedRequests (order : SetOrder Nat) (bid : Int)
  | handleReadyBuffer (order : SetOrder Nat) (bufferOrder : SetOrder Int) (bid : Int)
  | maybeDeleteBuffer (bid : Int) (isValidate : Bool)
  | pushModelStateDict (versionTag : Int)
  | initModelVersionForResume (version : Int)

/-- The state after a call; what it returns to its caller is dropped. -/
def exec (m : PSManager) : Action → Except PyError PSManager
  | .registerRolloutInstance ids => .ok (m.registerRolloutInstance ids)
  | .addRequest reqs =>
      .ok { m with toRequestStatusTracker := m.toRequestStatusTracker.addRequest reqs }
  | .updateRequestStatus updates isValidate => do
      let (_, t) ← m.toRequestStatusTracker.updateRequestStatus updates isValidate
      .ok { m with toRequestStatusTracker := t }
  | .removeRequest requestIds =>
      .ok { m with toRequestStatusTracker := m.toRequestStatusTracker.removeRequest requestIds }
  | .checkAbortedRequests requestIds remove => do
      let (_, t) ← m.toRequestStatusTracker.checkAbortedRequests requestIds remove
      .ok { m with toRequestStatusTracker := t }
  | .setValStalenessInventoryCapacity readyNumEntries numEntries =>
      m.setValStalenessInventoryCapacity readyNumEntries numEntries
  | .ensureTrainBufferExists bid => m.ensureTrainBufferExists bid
  | .ensureValidateBufferExists => m.ensureValidateBufferExists
  | .canReserveRequest requests modelVersions without => do
      let (_, m) ← m.canReserveRequest requests modelVersions without
      .ok m
  | .getReserveIndicator requestId modelVersions isValidate => do
      let (_, m) ← m.getReserveIndicator requestId modelVersions isValidate
      .ok m
  | .reserveRolloutInstanceRequests rs guaranteeNotAborted isValidate => do
      let (_, m) ← m.reserveRolloutInstanceRequests rs guaranteeNotAborted isValidate
      .ok m
  | .updateRequestVersionTag requestId new isValidate =>
      m.updateRequestVersionTag requestId new isValidate
  | .updateRequestInstanceId requestId new isValidate =>
      m.updateRequestInstanceId requestId new isValidate
  | .updateRequestNTrajectory requestId new isValidate =>
      m.updateRequestNTrajectory requestId new isValidate
  | .moveOccupiedEntries infos bid isValidate => m.moveOccupiedEntries infos bid isValidate
  | .clearOccupiedEntries promptIds isValidate => m.clearOccupiedEntries promptIds isValidate
  | .clearReservedEntries promptIds across isValidate =>
      m.clearReservedEntries promptIds across isValidate
  | .occupyRolloutInstanceRequest bufferOrder promptId requestIds isValidate => do
      let (_, m) ← m.occupyRolloutInstanceRequest bufferOrder promptId requestIds isValidate
      .ok m
  | .abortRequests order requestIds abortGroup => do
      let (_, m) ← m.abortRequests order requestIds abortGroup
      .ok m
  | .abortReservedRequests order bid => do
      let (_, m) ← m.abortReservedRequests order bid
      .ok m
  | .handleReadyBuffer order bufferOrder bid => do
      let (_, m) ← m.handleReadyBuffer order bufferOrder bid
      .ok m
  | .maybeDeleteBuffer bid isValidate => m.maybeDeleteBuffer bid isValidate
  | .pushModelStateDict versionTag => m.pushModelStateDict versionTag
  | .initModelVersionForResume version => .ok (m.initModelVersionForResume version)

/-- Entries that are moved were recorded by the manager: they are well recorded groups. -/
def Allowed (m : PSManager) : Action → Prop
  | .moveOccupiedEntries infos _ false => ∀ info ∈ infos, info.WellRecorded m.rolloutN
  | _ => True

instance (m : PSManager) (a : Action) : Decidable (m.Allowed a) :=
  match a with
  | .moveOccupiedEntries infos _ false =>
      inferInstanceAs (Decidable (∀ info ∈ infos, info.WellRecorded m.rolloutN))
  | .moveOccupiedEntries _ _ true | .registerRolloutInstance _ | .addRequest _
  | .updateRequestStatus .. | .removeRequest _ | .checkAbortedRequests ..
  | .setValStalenessInventoryCapacity .. | .ensureTrainBufferExists _ | .ensureValidateBufferExists
  | .canReserveRequest .. | .getReserveIndicator .. | .reserveRolloutInstanceRequests ..
  | .updateRequestVersionTag .. | .updateRequestInstanceId .. | .updateRequestNTrajectory ..
  | .clearOccupiedEntries .. | .clearReservedEntries .. | .occupyRolloutInstanceRequest ..
  | .abortRequests .. | .abortReservedRequests .. | .handleReadyBuffer .. | .maybeDeleteBuffer ..
  | .pushModelStateDict _ | .initModelVersionForResume _ => .isTrue trivial

/-! ### Soundness of single calls -/

theorem sound_new (config : PSManagerConfig) (hn : 0 < config.trackerConfig.rolloutN) :
    (new config).Sound where
  positive := hn
  tracker := RequestStatusTracker.sound_new _
  inventory := consistent_new _
  groupSize := rfl
  recorded := by
    rintro info ⟨l, hl⟩
    cases hl

/-- What every call leaves alone. -/
structure Stable (m m' : PSManager) : Prop where
  sound : m'.Sound
  config : m'.toTrackerConfig = m.toTrackerConfig
  staleness : m'.staleness = m.staleness
  inventoryConfig :
    m'.stalenessInventory.toInventoryConfig = m.stalenessInventory.toInventoryConfig
  aborted : m.maxAbortedVersion ≤ m'.maxAbortedVersion

/-- What a call leaves alone that neither pushes nor aborts a version. -/
structure Routine (m m' : PSManager) : Prop extends Stable m m' where
  modelVersion : m'.modelVersion = m.modelVersion
  pending : m'.checkAbortVersions = m.checkAbortVersions
  maxAborted : m'.maxAbortedVersion = m.maxAbortedVersion

theorem Stable.trans {m'' : PSManager} (h : Stable m m') (h' : Stable m' m'') : Stable m m'' :=
  ⟨h'.sound, h'.config.trans h.config, h'.staleness.trans h.staleness,
    h'.inventoryConfig.trans h.inventoryConfig, h.aborted.trans h'.aborted⟩

theorem Routine.trans {m'' : PSManager} (h : Routine m m') (h' : Routine m' m'') :
    Routine m m'' :=
  ⟨h.toStable.trans h'.toStable, h'.modelVersion.trans h.modelVersion,
    h'.pending.trans h.pending, h'.maxAborted.trans h.maxAborted⟩

section

variable {isValidate : Bool} {requestId : Nat} (hm : m.Sound)

include hm

theorem Sound.routine_refl : Routine m m :=
  ⟨⟨hm, rfl, rfl, rfl, le_rfl⟩, rfl, rfl, rfl⟩

/-- Only the tracker changed. -/
theorem Sound.withTracker {t : RequestStatusTracker}
    (h : RequestStatusTracker.Kept m.toRequestStatusTracker t) :
    Routine m { m with toRequestStatusTracker := t } := by
  have hn : t.rolloutN = m.rolloutN := by rw [h.config]
  exact ⟨⟨⟨by rw [hn]; exact hm.positive, h.sound, hm.inventory, by rw [hn]; exact hm.groupSize,
    fun info hinfo => by rw [hn]; exact hm.recorded info hinfo⟩, h.config, rfl, rfl, le_rfl⟩,
    rfl, rfl, rfl⟩

/-- Only the training inventory changed. -/
theorem Sound.withInventory {inv : StalenessInventory}
    (h : Keeps (·.WellRecorded m.rolloutN) m.stalenessInventory inv) :
    Routine m { m with stalenessInventory := inv } := by
  have hsound : Sound { m with stalenessInventory := inv } :=
    ⟨hm.positive, hm.tracker, h.consistent, by dsimp only; rw [h.config]; exact hm.groupSize,
      fun info hinfo => (h.carried info hinfo).elim (hm.recorded info) id⟩
  exact ⟨⟨hsound, rfl, rfl, h.config, le_rfl⟩, rfl, rfl, rfl⟩

/-- Neither of them changed. -/
theorem Sound.congr (htracker : m'.toRequestStatusTracker = m.toRequestStatusTracker)
    (hinv : m'.stalenessInventory = m.stalenessInventory) : m'.Sound where
  positive := by rw [htracker]; exact hm.positive
  tracker := by rw [htracker]; exact hm.tracker
  inventory := by rw [hinv]; exact hm.inventory
  groupSize := by rw [htracker, hinv]; exact hm.groupSize
  recorded := by rw [htracker, hinv]; exact hm.recorded

/-- An inventory was replaced; the validation inventory does not matter. -/
theorem Sound.setInventory {inv : StalenessInventory}
    (h : isValidate = false → Keeps (·.WellRecorded m.rolloutN) m.stalenessInventory inv) :
    Routine m (m.setInventory isValidate inv) := by
  cases isValidate with
  | true => exact ⟨⟨hm.congr rfl rfl, rfl, rfl, rfl, le_rfl⟩, rfl, rfl, rfl⟩
  | false => exact hm.withInventory (h rfl)

theorem Sound.onInventory {f : StalenessInventory → Except PyError StalenessInventory}
    (hf : ∀ inv, isValidate = false → f m.stalenessInventory = .ok inv →
      Keeps (·.WellRecorded m.rolloutN) m.stalenessInventory inv)
    (h : m.onInventory isValidate f = .ok m') : Routine m m' := by
  obtain ⟨inv, hinv, h⟩ := bind_eq_ok.mp h
  cases h
  refine hm.setInventory fun hval => hf inv hval ?_
  rw [hval] at hinv
  exact hinv

/-- A changed entry of a group keeps the group's requests well recorded. -/
theorem Sound.updateRequest {update : EntryInfo → Nat → Except PyError EntryInfo}
    (hid : ∀ info idx info', update info idx = .ok info' → info'.promptId = info.promptId)
    (hrec : ∀ info idx info', info.WellRecorded m.rolloutN → update info idx = .ok info' →
      info'.WellRecorded m.rolloutN)
    (h : m.onInventory isValidate (fun inv => inv.updateRequest requestId update) = .ok m') :
    Routine m m' := by
  refine hm.onInventory (fun inv _ hupd => ?_) h
  obtain ⟨loc, info, info', hrew, -, hupd⟩ := hm.inventory.updateRequest hid hupd
  exact (hrew.keeps hm.inventory).mono fun i hi =>
    .inr (hi ▸ hrec _ _ _ (hm.recorded info ⟨loc, hrew.here⟩) hupd)

theorem Sound.updateRequestVersionTag {new : Int}
    (h : m.updateRequestVersionTag requestId new isValidate = .ok m') : Routine m m' := by
  refine hm.updateRequest (fun info idx info' hupd => ?_)
    (fun info idx info' hrec hupd => hrec.updateModelVersion hupd) h
  obtain ⟨mv, -, rfl⟩ := EntryInfo.updateModelVersion_eq_ok.mp hupd
  rfl

theorem Sound.updateRequestInstanceId {new : RolloutInstanceId}
    (h : m.updateRequestInstanceId requestId new isValidate = .ok m') : Routine m m' := by
  refine hm.updateRequest (fun info idx info' hupd => ?_)
    (fun info idx info' hrec hupd => hrec.updateRolloutInstanceId hupd) h
  obtain ⟨_, -, hupd⟩ := bind_eq_ok.mp hupd
  cases hupd
  rfl

theorem Sound.updateRequestNTrajectory {new : Nat}
    (h : m.updateRequestNTrajectory requestId new isValidate = .ok m') : Routine m m' := by
  obtain ⟨t, ht, h⟩ := bind_eq_ok.mp h
  have hm1 := hm.withTracker (hm.tracker.updateRequestNTrajectory ht)
  refine hm1.trans (hm1.sound.updateRequest (fun info idx info' hupd => ?_)
    (fun info idx info' hrec hupd => hrec.updateNTrajectory hupd) h)
  obtain ⟨_, -, hupd⟩ := bind_eq_ok.mp hupd
  cases hupd
  rfl

end

/-- Deleting buffers loses entries at most. -/
theorem keeps_deleteBuffers {extra : EntryInfo → Prop} {inv inv' : StalenessInventory}
    {bids : List Int} (hc : inv.Consistent)
    (h : bids.foldlM StalenessInventory.deleteBuffer inv = .ok inv') : Keeps extra inv inv' :=
  foldlM_invariant (P := fun i => Keeps extra inv i) h (.refl hc)
    fun _ _ _ _ hkeeps hdel => hkeeps.trans (hkeeps.consistent.deleteBuffer hdel).1

theorem Sound.maybeDeleteBuffer (hm : m.Sound) {bid : Int} {isValidate : Bool}
    (h : m.maybeDeleteBuffer bid isValidate = .ok m') : Routine m m' := by
  unfold PSManager.maybeDeleteBuffer at h
  split at h
  · exact hm.onInventory (fun _ hval => by cases hval) h
  · dsimp only at h
    split at h
    · exact hm.onInventory (fun inv _ hdel => keeps_deleteBuffers hm.inventory hdel) h
    · cases h
      exact hm.routine_refl

/-- A push sets the version and changes nothing else but buffers. -/
theorem Sound.pushModelStateDict (hm : m.Sound) {versionTag : Int}
    (h : m.pushModelStateDict versionTag = .ok m') :
    Routine { m with modelVersion := versionTag } m' := by
  have hm1 : Sound { m with modelVersion := versionTag } := hm.congr rfl rfl
  unfold PSManager.pushModelStateDict at h
  dsimp only at h
  split at h
  · exact hm1.maybeDeleteBuffer h
  · cases h
    exact hm1.routine_refl

/-! ### Reserving and occupying -/

theorem Sound.canReserveData (hm : m.Sound) {isValidate : Bool} {promptId : Nat} {v : Int}
    {result : Bool} {inv : StalenessInventory}
    (h : (m.inventory isValidate).canReserveData promptId v = .ok (result, inv)) :
    Routine m (m.setInventory isValidate inv) := by
  refine hm.setInventory fun hval => ?_
  rw [hval] at h
  obtain ⟨hc', hgrown⟩ := hm.inventory.canReserveData h
  exact hgrown.keeps hc'

/-- The state after a question about a reservation: buffers were created at most. -/
def Asked (isValidate : Bool) (m m' : PSManager) : Prop :=
  m' = m ∨ ∃ promptId v result inv,
    (m.inventory isValidate).canReserveData promptId v = .ok (result, inv) ∧
      m' = m.setInventory isValidate inv

theorem Sound.asked (hm : m.Sound) {isValidate : Bool} (h : Asked isValidate m m') :
    Routine m m' := by
  rcases h with rfl | ⟨promptId, v, result, inv, hcan, rfl⟩
  · exact hm.routine_refl
  · exact hm.canReserveData hcan

theorem canReserveOne_asked {requestId : Nat} {v : Int} {without isValidate result : Bool}
    (h : m.canReserveOne requestId v without isValidate = .ok (result, m')) :
    Asked isValidate m m' := by
  obtain ⟨_, -, h⟩ := bind_eq_ok.mp h
  obtain ⟨_, -, h⟩ := bind_eq_ok.mp h
  split at h
  · cases h
    exact .inl rfl
  · dsimp only at h
    split at h
    · cases h
      exact .inl rfl
    · obtain ⟨⟨_, inv⟩, hcan, h⟩ := bind_eq_ok.mp h
      cases h
      exact .inr ⟨_, _, _, _, hcan, rfl⟩

theorem reserveIndicator_asked {requestId : Nat} {v : Int} {isValidate : Bool}
    {indicator : ReserveIndicator}
    (h : m.reserveIndicator requestId v isValidate = .ok (indicator, m')) :
    Asked isValidate m m' := by
  obtain ⟨_, -, h⟩ := bind_eq_ok.mp h
  obtain ⟨_, -, h⟩ := bind_eq_ok.mp h
  generalize requestId / (if isValidate then _ else _) = promptId at h
  dsimp only at h
  split at h
  · cases h
    exact .inl rfl
  · split at h
    · cases h
      exact .inl rfl
    · obtain ⟨⟨can, inv⟩, hcan, h⟩ := bind_eq_ok.mp h
      dsimp only at h
      split at h
      · split at h
        · cases h
          exact .inr ⟨_, _, _, _, hcan, rfl⟩
        · cases h
      · cases h
        exact .inr ⟨_, _, _, _, hcan, rfl⟩

/-- A property that every question keeps holds after all of them. -/
theorem canReserveRequest_induction {P : PSManager → Prop} {requests : List (Nat × Bool)}
    {modelVersions : List Int} {without : Bool} {results : List Bool}
    (h : m.canReserveRequest requests modelVersions without = .ok (results, m')) (hm : P m)
    (hstep : ∀ m1 m2 isValidate, P m1 → Asked isValidate m1 m2 → P m2) : P m' := by
  refine foldlM_invariant (P := fun s : List Bool × PSManager => P s.2) h hm
    fun state c state' _ hs hturn => ?_
  obtain ⟨⟨requestId, isValidate⟩, v⟩ := c
  obtain ⟨⟨result, m1⟩, h1, hturn⟩ := bind_eq_ok.mp hturn
  cases hturn
  exact hstep _ _ _ hs (canReserveOne_asked h1)

theorem getReserveIndicator_induction {P : PSManager → Prop} {requestId : Nat}
    {modelVersions : List Int} {isValidate : Bool} {results : List ReserveIndicator}
    (h : m.getReserveIndicator requestId modelVersions isValidate = .ok (results, m')) (hm : P m)
    (hstep : ∀ m1 m2, P m1 → Asked isValidate m1 m2 → P m2) : P m' := by
  refine foldlM_invariant (P := fun s : List ReserveIndicator × PSManager => P s.2) h hm
    fun state v state' _ hs hturn => ?_
  obtain ⟨⟨result, m1⟩, h1, hturn⟩ := bind_eq_ok.mp hturn
  cases hturn
  exact hstep _ _ hs (reserveIndicator_asked h1)

theorem Sound.checkReservable (hm : m.Sound) {guaranteeNotAborted aborted : Bool}
    {requestId : Nat} {t : RequestStatusTracker}
    (h : m.checkReservable guaranteeNotAborted requestId = .ok (aborted, t)) :
    RequestStatusTracker.Kept m.toRequestStatusTracker t := by
  unfold PSManager.checkReservable at h
  split at h
  · obtain ⟨_, -, h⟩ := bind_eq_ok.mp h
    cases h
    exact ⟨hm.tracker, rfl⟩
  · exact hm.tracker.checkAbortedRequest h

theorem Sound.reserveOne (hm : m.Sound) {guaranteeNotAborted isValidate : Bool} {r : Reservation}
    {slot : Option (Int × Nat)}
    (h : m.reserveOne guaranteeNotAborted isValidate r = .ok (slot, m')) : Routine m m' := by
  obtain ⟨_, -, h⟩ := bind_eq_ok.mp h
  obtain ⟨⟨aborted, t⟩, hcheck, h⟩ := bind_eq_ok.mp h
  have hm1 := hm.withTracker (hm.checkReservable hcheck)
  dsimp only at h
  split at h
  · cases h
    exact hm1
  · obtain ⟨_, -, h⟩ := bind_eq_ok.mp h
    obtain ⟨⟨found, inv⟩, hres, h⟩ := bind_eq_ok.mp h
    dsimp only at h
    split at h
    · cases h
    · cases h
      refine hm1.trans (hm1.sound.setInventory fun hval => ?_)
      subst hval
      obtain ⟨hc', hconfig, heffect, -⟩ := hm1.sound.inventory.reserveData hres
      exact heffect.keeps hc' hconfig hm1.sound.recorded (Nat.mod_lt _ hm1.sound.positive)

theorem Sound.reserveRolloutInstanceRequests (hm : m.Sound) {rs : List Reservation}
    {guaranteeNotAborted isValidate : Bool} {slots : List (Option (Int × Nat))}
    (h : m.reserveRolloutInstanceRequests rs guaranteeNotAborted isValidate = .ok (slots, m')) :
    Routine m m' := by
  obtain ⟨_, -, h⟩ := bind_eq_ok.mp h
  refine foldlM_invariant (P := fun s : List (Option (Int × Nat)) × PSManager => Routine m s.2) h
    hm.routine_refl fun state r state' _ hs hstep => ?_
  obtain ⟨⟨slot, m1⟩, h1, hstep⟩ := bind_eq_ok.mp hstep
  cases hstep
  exact hs.trans (hs.sound.reserveOne h1)

theorem Sound.occupyRolloutInstanceRequest (hm : m.Sound) {bufferOrder : SetOrder Int}
    {promptId : Nat} {requestIds : Option (List Nat)} {isValidate : Bool}
    {result : Option (Int × Nat × EntryInfo)}
    (h : m.occupyRolloutInstanceRequest bufferOrder promptId requestIds isValidate =
      .ok (result, m')) : Routine m m' := by
  obtain ⟨⟨flags, t⟩, hcheck, h⟩ := bind_eq_ok.mp h
  dsimp only at h
  obtain ⟨t', hremove, h⟩ := bind_eq_ok.mp h
  have hkept := hm.tracker.checkAbortedRequests hcheck
  have hm1 := hm.withTracker (hkept.trans (hkept.sound.removeTrainReadyRequest hremove))
  split at h
  · obtain ⟨_, -, h⟩ := bind_eq_ok.mp h
    cases h
    exact hm1
  · obtain ⟨⟨⟨bid, eid, occupyNum⟩, inv⟩, hocc, h⟩ := bind_eq_ok.mp h
    obtain ⟨info, -, h⟩ := bind_eq_ok.mp h
    cases h
    refine hm1.trans (hm1.sound.setInventory fun hval => ?_)
    subst hval
    exact (hm1.sound.inventory.occupyDataWithReserve hocc).1

/-! ### Aborting -/

theorem AbortEffect.routine {abortGroup : Bool} {ids : Finset Nat}
    (h : AbortEffect abortGroup ids m m') : Routine m m' := by
  obtain ⟨inv, ps, htrim, -, hall, -⟩ := h.cleared
  have hconfig := hall.frame.config.trans htrim.frame.config
  exact ⟨⟨h.sound, h.aborted.config, by rw [h.rest], hconfig, by rw [h.rest]⟩,
    by rw [h.rest], by rw [h.rest], by rw [h.rest]⟩

theorem Sound.abortReservedRequests (hm : m.Sound) {order : SetOrder Nat} {bid : Int}
    {result : Nat × List Nat} (h : m.abortReservedRequests order bid = .ok (result, m')) :
    Routine m m' := by
  obtain ⟨buffer, -, h⟩ := bind_eq_ok.mp h
  obtain ⟨⟨commands, m1⟩, habort, h⟩ := bind_eq_ok.mp h
  cases h
  exact ((hm.abortRequests order _ true).2 _ _ habort).routine

theorem Sound.abortVersion (hm : m.Sound) {ids ids' : Finset Nat} {version : Int}
    (h : abortVersion (ids, m) version = .ok (ids', m')) : Stable m m' := by
  obtain ⟨⟨found, t⟩, hget, h⟩ := bind_eq_ok.mp h
  cases h
  have hm1 : Sound { m with maxAbortedVersion := max m.maxAbortedVersion version } :=
    hm.congr rfl rfl
  have hstable : Stable m { m with maxAbortedVersion := max m.maxAbortedVersion version } :=
    ⟨hm1, rfl, rfl, rfl, le_max_left ..⟩
  obtain ⟨-, rfl⟩ := RequestStatusTracker.getRequestsOfAbortVersion_eq hget
  refine hstable.trans (Routine.toStable ?_)
  exact hm1.withTracker ⟨hm1.tracker.congr rfl (fun _ => Iff.rfl) rfl, rfl⟩

theorem Sound.stalenessAbort (hm : m.Sound) {order : SetOrder Nat} {bid : Int}
    {ids : Finset Nat} (h : m.stalenessAbort order bid = .ok (ids, m')) : Stable m m' := by
  unfold PSManager.stalenessAbort at h
  dsimp only at h
  obtain ⟨⟨found, m1⟩, hfold, h⟩ := bind_eq_ok.mp h
  have hm1 : Stable m m1 := by
    refine foldlM_invariant (P := fun s : Finset Nat × PSManager => Stable m s.2) hfold
      ⟨hm.congr rfl rfl, rfl, rfl, rfl, le_rfl⟩ fun state v state' _ hs hstep => ?_
    exact hs.trans (hs.sound.abortVersion hstep)
  dsimp only at h
  split at h
  · obtain ⟨⟨commands, m2⟩, habort, h⟩ := bind_eq_ok.mp h
    cases h
    exact hm1.trans ((hm1.sound.abortRequests order _ true).2 _ _ habort).routine.toStable
  · cases h
    exact hm1

theorem keeps_releaseReadyBuffer {extra : EntryInfo → Prop} {inv inv' : StalenessInventory}
    {modelVersion bid : Int} (hc : inv.Consistent)
    (h : releaseReadyBuffer modelVersion inv bid = .ok inv') : Keeps extra inv inv' := by
  obtain ⟨buffer, -, h⟩ := bind_eq_ok.mp h
  split at h
  · split at h
    · exact (hc.deleteBuffer h).1
    · exact (hc.markBufferForDeletion h).1
  · cases h
    exact .refl hc

/-- Releasing the ready buffers loses entries at most. -/
theorem Sound.releaseReadyBuffers (hm : m.Sound) {bids : List Int} {inv : StalenessInventory}
    (h : bids.foldlM (releaseReadyBuffer m.modelVersion) m.stalenessInventory = .ok inv) :
    Routine m { m with stalenessInventory := inv } :=
  hm.withInventory (foldlM_invariant (P := fun i => Keeps _ m.stalenessInventory i)
    h (.refl hm.inventory) fun _ _ _ _ hkeeps hstep =>
      hkeeps.trans (keeps_releaseReadyBuffer hkeeps.consistent hstep))

theorem Sound.handleReadyBuffer (hm : m.Sound) {order : SetOrder Nat} {bufferOrder : SetOrder Int}
    {bid : Int} {ids : Finset Nat}
    (h : m.handleReadyBuffer order bufferOrder bid = .ok (ids, m')) : Stable m m' := by
  unfold PSManager.handleReadyBuffer at h
  dsimp only at h
  obtain ⟨⟨found, m1⟩, habort, h⟩ := bind_eq_ok.mp h
  obtain ⟨inv, hrelease, h⟩ := bind_eq_ok.mp h
  cases h
  have hm1 := hm.stalenessAbort habort
  exact hm1.trans (hm1.sound.releaseReadyBuffers hrelease).toStable

/-! ### Runs -/

/-- The calls that neither push nor abort versions. -/
def IsRoutine : Action → Prop
  | .handleReadyBuffer .. | .pushModelStateDict _ | .initModelVersionForResume _ => False
  | _ => True

theorem Sound.routine_exec (hm : m.Sound) {a : Action} (hroutine : IsRoutine a)
    (hallowed : m.Allowed a) (h : m.exec a = .ok m') : Routine m m' := by
  cases a with
  | registerRolloutInstance ids =>
      cases h
      exact ⟨⟨hm.congr rfl rfl, rfl, rfl, rfl, le_rfl⟩, rfl, rfl, rfl⟩
  | addRequest reqs =>
      cases h
      exact hm.withTracker ⟨hm.tracker.addRequest reqs, RequestStatusTracker.addRequest_config ..⟩
  | updateRequestStatus updates isValidate =>
      obtain ⟨⟨_, t⟩, hupd, h⟩ := bind_eq_ok.mp h
      cases h
      exact hm.withTracker (hm.tracker.updateRequestStatus hupd)
  | removeRequest requestIds =>
      cases h
      exact hm.withTracker (hm.tracker.kept_removeRequest requestIds)
  | checkAbortedRequests requestIds remove =>
      obtain ⟨⟨_, t⟩, hcheck, h⟩ := bind_eq_ok.mp h
      cases h
      exact hm.withTracker (hm.tracker.checkAbortedRequests hcheck)
  | setValStalenessInventoryCapacity ready num =>
      have h : m.setValStalenessInventoryCapacity ready num = .ok m' := h
      unfold PSManager.setValStalenessInventoryCapacity at h
      exact hm.onInventory (fun _ hval => by cases hval) h
  | ensureTrainBufferExists bid =>
      have h : m.ensureTrainBufferExists bid = .ok m' := h
      unfold PSManager.ensureTrainBufferExists at h
      refine hm.onInventory (fun inv _ hens => ?_) h
      obtain ⟨hc', hgrown⟩ := hm.inventory.ensureBufferExists hens
      exact hgrown.keeps hc'
  | ensureValidateBufferExists =>
      have h : m.ensureValidateBufferExists = .ok m' := h
      unfold PSManager.ensureValidateBufferExists at h
      exact hm.onInventory (fun _ hval => by cases hval) h
  | canReserveRequest requests modelVersions without =>
      obtain ⟨⟨_, m1⟩, hcan, h⟩ := bind_eq_ok.mp h
      cases h
      exact canReserveRequest_induction hcan hm.routine_refl
        fun _ _ _ hs hask => hs.trans (hs.sound.asked hask)
  | getReserveIndicator requestId modelVersions isValidate =>
      obtain ⟨⟨_, m1⟩, hget, h⟩ := bind_eq_ok.mp h
      cases h
      exact getReserveIndicator_induction hget hm.routine_refl
        fun _ _ hs hask => hs.trans (hs.sound.asked hask)
  | reserveRolloutInstanceRequests rs guaranteeNotAborted isValidate =>
      obtain ⟨⟨_, m1⟩, hres, h⟩ := bind_eq_ok.mp h
      cases h
      exact hm.reserveRolloutInstanceRequests hres
  | updateRequestVersionTag requestId new isValidate => exact hm.updateRequestVersionTag h
  | updateRequestInstanceId requestId new isValidate => exact hm.updateRequestInstanceId h
  | updateRequestNTrajectory requestId new isValidate => exact hm.updateRequestNTrajectory h
  | moveOccupiedEntries infos bid isValidate =>
      have h : m.moveOccupiedEntries infos bid isValidate = .ok m' := h
      unfold PSManager.moveOccupiedEntries at h
      refine hm.onInventory (fun inv hval hmove => ?_) h
      subst hval
      exact (hm.inventory.moveOccupiedEntries hmove).1.mono fun info hinfo =>
        .inr (hallowed info hinfo)
  | clearOccupiedEntries promptIds isValidate =>
      have h : m.clearOccupiedEntries promptIds isValidate = .ok m' := h
      unfold PSManager.clearOccupiedEntries at h
      refine hm.onInventory (fun inv _ hclear => ?_) h
      obtain ⟨hc', hall, -⟩ := hm.inventory.clearOccupiedEntries hclear
      exact hall.keeps hc'
  | clearReservedEntries promptIds across isValidate =>
      have h : m.clearReservedEntries promptIds across isValidate = .ok m' := h
      unfold PSManager.clearReservedEntries at h
      exact hm.onInventory (fun inv _ hclear => (hm.inventory.clearAny hclear).1) h
  | occupyRolloutInstanceRequest bufferOrder promptId requestIds isValidate =>
      obtain ⟨⟨_, m1⟩, hocc, h⟩ := bind_eq_ok.mp h
      cases h
      exact hm.occupyRolloutInstanceRequest hocc
  | abortRequests order requestIds abortGroup =>
      obtain ⟨⟨commands, m1⟩, habort, h⟩ := bind_eq_ok.mp h
      cases h
      exact ((hm.abortRequests order requestIds abortGroup).2 _ _ habort).routine
  | abortReservedRequests order bid =>
      obtain ⟨⟨_, m1⟩, habort, h⟩ := bind_eq_ok.mp h
      cases h
      exact hm.abortReservedRequests habort
  | handleReadyBuffer order bufferOrder bid => cases hroutine
  | maybeDeleteBuffer bid isValidate => exact hm.maybeDeleteBuffer h
  | pushModelStateDict versionTag => cases hroutine
  | initModelVersionForResume version => cases hroutine

/-- Every returning call keeps the manager sound and lowers no aborted version. -/
theorem Sound.exec (hm : m.Sound) {a : Action} (hallowed : m.Allowed a)
    (h : m.exec a = .ok m') : Stable m m' := by
  have hrest : IsRoutine a → Stable m m' := fun hr => (hm.routine_exec hr hallowed h).toStable
  cases a with
  | handleReadyBuffer order bufferOrder bid =>
      obtain ⟨⟨_, m1⟩, hready, h⟩ := bind_eq_ok.mp h
      cases h
      exact hm.handleReadyBuffer hready
  | pushModelStateDict versionTag =>
      have hpush := (hm.pushModelStateDict h).toStable
      exact ⟨hpush.sound, hpush.config, hpush.staleness, hpush.inventoryConfig, hpush.aborted⟩
  | initModelVersionForResume version =>
      cases h
      exact ⟨hm.congr rfl rfl, rfl, rfl, rfl, le_rfl⟩
  | _ => exact hrest trivial

/-- Every state a run reaches is sound. -/
theorem sound_of_reachable {config : PSManagerConfig} (hn : 0 < config.trackerConfig.rolloutN)
    (h : Run.Reachable exec Allowed (new config) m) : m.Sound :=
  h.invariant (sound_new config hn) fun _ _ _ hm hallowed hexec => (hm.exec hallowed hexec).sound

/-- **The tables of the manager agree.** After any calls that `Allowed` admits, with or without
redundant rollout: `data_tracker` has exactly the prompts in the slots of the training inventory,
each with its slot, so no prompt is in two; the cached sets of buffer ids are those of the actual
statuses; an entry records requests of its own group, with a version and an instance for each;
statuses and infos are kept for the same requests, and only such requests are marked for
abortion. -/
theorem tables_agree {config : PSManagerConfig} (hn : 0 < config.trackerConfig.rolloutN)
    (h : Run.Reachable exec Allowed (new config) m) :
    (∀ promptId loc, m.stalenessInventory.dataTracker.get? promptId = some loc ↔
      (m.stalenessInventory.slot loc).promptId? = some promptId) ∧
    (∀ bid buffer, m.stalenessInventory.buffers.get? bid = some buffer → ∀ status,
      bid ∈ m.stalenessInventory.bufferIdsByStatus status ↔ buffer.getStatus = .ok status) ∧
    (∀ loc info, (m.stalenessInventory.slot loc).entryInfo? = some info →
      info.WellRecorded m.rolloutN) ∧
    (∀ id, m.requestInfos.get? id = none ↔ m.requestIdToStatus.get? id = none) ∧
    ∀ id ∈ m.abortRequestIds, m.Tracks id := by
  have hm := sound_of_reachable hn h
  exact ⟨hm.inventory.wf.tracked, fun bid => hm.inventory.cached.exact bid (Set.notMem_empty bid),
    fun loc info hinfo => hm.recorded info ⟨loc, hinfo⟩, hm.tracker.keys, hm.tracker.marked⟩

/-- Two requests of a group are reserved, and the group is aborted: its slot is free again. -/
theorem tables_agree_after_abort : ∃ m : PSManager, m.abortRequestIds = {0, 1} ∧
    (∀ loc, (m.stalenessInventory.slot loc).promptId? ≠ some 0) ∧ m.Tracks 1 := by
  obtain ⟨m, hreach, hm⟩ : ∃ m, Run.Reachable exec Allowed (new ⟨2, 1, 2, 1, none⟩) m ∧
      decide (m.abortRequestIds = {0, 1} ∧ m.stalenessInventory.dataTracker.get? 0 = none) = true :=
    Run.exists_reachable_of_perform (l := [.addRequest [{ requestId := 0 }, { requestId := 1 }],
      .reserveRolloutInstanceRequests ([0, 1].map fun id => ⟨invalidRolloutInstanceId, id, 0⟩)
        false false, .abortRequests .ascendingNat [0, 1] true]) (by decide +kernel)
  obtain ⟨hmarked, hnone⟩ := of_decide_eq_true hm
  obtain ⟨htracked, -, -, -, hmarks⟩ := tables_agree (by decide) hreach
  refine ⟨m, hmarked, fun loc hloc => ?_, hmarks 1 (by simp [hmarked])⟩
  rw [(htracked 0 loc).mpr hloc] at hnone
  cases hnone

end PSManager

end Psrl
