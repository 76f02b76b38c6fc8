import Psrl.Manager.RequestStatus
import Psrl.Staleness.Consistent

/-!
# Psrl.Manager.PSManager

The parameter server manager (`PSManager` in `psrl/workers/ps/ps_manager.py`): the request
tracker, the training and the validation inventory, the version of the stored model, and the
bookkeeping of aborted versions.

Aborting works on two levels. `abort_requests` first looks at the groups of the requests: a
group that keeps fewer than `alg_rollout_n` recorded requests loses its slot, any other group
only loses the requests. Then it marks requests in the tracker. `_abort_after_buffer_ready`
aborts whole model versions once the buffers that could still take them are full.

A loop over a Python set takes the order of its visits as an argument.
-/

namespace Psrl

open Py

/-- `redundant_rollout`, when it is enabled. -/
structure RedundantRollout where
  redundantRolloutN : Nat
  algRolloutN : Nat
  redundantGlobalBatchSize : Nat
  algGlobalBatchSize : Nat
  deriving Repr, DecidableEq

/-- The part of the configuration the manager reads. -/
structure PSManagerConfig where
  rolloutN : Nat
  valRolloutN : Nat
  stalenessBufferEntries : Nat
  staleness : Nat
  redundantRollout : Option RedundantRollout
  deriving Repr, DecidableEq

namespace PSManagerConfig

def trackerConfig (config : PSManagerConfig) : TrackerConfig :=
  match config.redundantRollout with
  | some r => ⟨r.redundantRolloutN, r.algRolloutN, config.valRolloutN⟩
  | none => ⟨config.rolloutN, config.rolloutN, config.valRolloutN⟩

def entriesPerBuffer (config : PSManagerConfig) : Nat :=
  match config.redundantRollout with
  | some r => r.redundantGlobalBatchSize
  | none => config.stalenessBufferEntries

def readyEntriesPerBuffer (config : PSManagerConfig) : Nat :=
  match config.redundantRollout with
  | some r => r.algGlobalBatchSize
  | none => config.stalenessBufferEntries

end PSManagerConfig

structure PSManager extends RequestStatusTracker where
  staleness : Nat
  rolloutInstanceTracker : Dict RolloutInstanceId Int
  modelVersion : Int
  stalenessInventory : StalenessInventory
  valStalenessInventory : StalenessInventory
  checkAbortVersions : Finset Int
  maxAbortedVersion : Int

/-- One request given to `reserve_rollout_instance_requests`. -/
structure Reservation where
  rolloutInstanceId : RolloutInstanceId
  requestId : Nat
  modelVersion : Int
  deriving Repr, DecidableEq

/-- An answer of `get_reserve_indicator`. -/
inductive ReserveIndicator
  | cannot
  | joins
  | opens (bid : Int)
  deriving Repr, DecidableEq

namespace PSManager

variable (m : PSManager)

/-- `__init__`. -/
def new (config : PSManagerConfig) : PSManager where
  toRequestStatusTracker := .new config.trackerConfig
  staleness := config.staleness
  rolloutInstanceTracker := .empty
  modelVersion := 0
  stalenessInventory := .new
    { staleness := some config.staleness
      numEntries := config.entriesPerBuffer
      readyNumEntries := config.readyEntriesPerBuffer
      rolloutN := config.trackerConfig.rolloutN }
  valStalenessInventory := .new
    { staleness := none
      numEntries := config.readyEntriesPerBuffer
      readyNumEntries := config.readyEntriesPerBuffer
      rolloutN := config.valRolloutN
      isValidate := true }
  checkAbortVersions := ∅
  maxAbortedVersion := -1

/-- `register_rollout_instance`. -/
def registerRolloutInstance (ids : List RolloutInstanceId) : PSManager :=
  { m with rolloutInstanceTracker := ids.foldl (fun d id => d.set id 0) m.rolloutInstanceTracker }

/-! ### The two inventories -/

/-- `self.val_staleness_inventory if is_validate else self.staleness_inventory`. -/
def inventory (isValidate : Bool) : StalenessInventory :=
  if isValidate then m.valStalenessInventory else m.stalenessInventory

def setInventory (isValidate : Bool) (inv : StalenessInventory) : PSManager :=
  if isValidate then { m with valStalenessInventory := inv }
  else { m with stalenessInventory := inv }

/-- A method that passes its arguments on to one of the inventories. -/
def onInventory (isValidate : Bool)
    (f : StalenessInventory → Except PyError StalenessInventory) : Except PyError PSManager := do
  let inv ← f (m.inventory isValidate)
  .ok (m.setInventory isValidate inv)

/-- `set_val_staleness_inventory_capacity`. -/
def setValStalenessInventoryCapacity (readyNumEntries : Nat)
    (numEntries : Option Nat) : Except PyError PSManager :=
  m.onInventory true fun inv =>
    inv.createBufferWithCapacity readyNumEntries (numEntries.getD readyNumEntries)

/-- `ensure_train_buffer_exists`. -/
def ensureTrainBufferExists (bid : Int) : Except PyError PSManager :=
  m.onInventory false fun inv => inv.ensureBufferExists (some bid)

/-- `ensure_validate_buffer_exists`. -/
def ensureValidateBufferExists : Except PyError PSManager :=
  m.onInventory true fun inv => inv.ensureBufferExists none

/-- `update_request_version_tag`. -/
def updateRequestVersionTag (requestId : Nat) (newVersionTag : Int)
    (isValidate : Bool) : Except PyError PSManager :=
  m.onInventory isValidate fun inv => inv.updateRequestVersionTag requestId newVersionTag

/-- `update_request_instance_id`. -/
def updateRequestInstanceId (requestId : Nat) (newInstanceId : RolloutInstanceId)
    (isValidate : Bool) : Except PyError PSManager :=
  m.onInventory isValidate fun inv => inv.updateRequestInstanceId requestId newInstanceId

/-- `update_request_n_trajectory`: both metadata stores are updated. -/
def updateRequestNTrajectory (requestId nTrajectory : Nat) (isValidate : Bool) :
    Except PyError PSManager := do
  let t ← m.toRequestStatusTracker.updateRequestNTrajectory requestId nTrajectory
  { m with toRequestStatusTracker := t }.onInventory isValidate fun inv =>
    inv.updateRequestNTrajectory requestId nTrajectory

/-- `move_occupied_entries`. -/
def moveOccupiedEntries (entryInfos : List EntryInfo) (bid : Int)
    (isValidate : Bool) : Except PyError PSManager :=
  m.onInventory isValidate fun inv => inv.moveOccupiedEntries entryInfos bid

/-- `clear_occupied_entries`. -/
def clearOccupiedEntries (promptIds : List Nat) (isValidate : Bool) :
    Except PyError PSManager :=
  m.onInventory isValidate fun inv => inv.clearOccupiedEntries promptIds

/-- `clear_reserved_entries`. -/
def clearReservedEntries (promptIds : List Nat)
    (moveAcrossBuffer isValidate : Bool) : Except PyError PSManager :=
  m.onInventory isValidate fun inv => inv.clearReservedEntries promptIds moveAcrossBuffer

/-- `maybe_delete_buffer`: a consumed buffer that is marked goes, with the marked ones
before it. -/
def maybeDeleteBuffer (bid : Int) (isValidate : Bool) : Except PyError PSManager :=
  if isValidate then m.onInventory true fun inv => inv.deleteBuffer bid
  else
    let marked := m.stalenessInventory.readyForDeleteBufferIds
    if bid ∈ marked then
      m.onInventory false fun inv =>
        ((SetOrder.ascending.toList marked).takeWhile fun b => b ≤ bid).foldlM
          StalenessInventory.deleteBuffer inv
    else .ok m

/-! ### Reserving -/

/-- One request and one version of `can_reserve_request`. -/
def canReserveOne (requestId : Nat) (modelVersion : Int)
    (withoutNewReserveEntry isValidate : Bool) : Except PyError (Bool × PSManager) := do
  pyAssert (modelVersion ≠ -1)
    "Model version should not be -1 when checking if a request can be reserved"
  pyAssert (requestId ∉ m.abortRequestIds)
    s!"Aborted request ID: {requestId}. It cannot be checked."
  if modelVersion ≤ m.maxAbortedVersion then .ok (false, m)
  else
    let promptId := requestId / (if isValidate then m.valRolloutN else m.rolloutN)
    if withoutNewReserveEntry then
      .ok ((m.inventory isValidate).canReserveDataWithoutNewReserveEntry promptId modelVersion, m)
    else do
      let (result, inv) ← (m.inventory isValidate).canReserveData promptId modelVersion
      .ok (result, m.setInventory isValidate inv)

/-- `can_reserve_request`: one answer for each request and each version. -/
def canReserveRequest (requests : List (Nat × Bool)) (modelVersions : List Int)
    (withoutNewReserveEntry : Bool) : Except PyError (List Bool × PSManager) :=
  (requests.flatMap fun r => modelVersions.map fun v => (r, v)).foldlM
    (fun (state : List Bool × PSManager) ((requestId, isValidate), modelVersion) => do
      let (result, m) ← state.2.canReserveOne requestId modelVersion withoutNewReserveEntry
        isValidate
      .ok (state.1 ++ [result], m)) ([], m)

/-- One version of `get_reserve_indicator`: `cannot` is `inf`, `joins` is `-inf`, and
`opens bid` is `-bid`. -/
def reserveIndicator (requestId : Nat) (modelVersion : Int) (isValidate : Bool) :
    Except PyError (ReserveIndicator × PSManager) := do
  pyAssert (modelVersion ≠ -1)
    "Model version should not be -1 when getting the indicator of reserving a request"
  pyAssert (requestId ∉ m.abortRequestIds)
    s!"Aborted request ID: {requestId}. It cannot be checked."
  let promptId := requestId / (if isValidate then m.valRolloutN else m.rolloutN)
  if modelVersion ≤ m.maxAbortedVersion then .ok (.cannot, m)
  else if (m.inventory isValidate).canReserveDataWithoutNewReserveEntry promptId modelVersion then
    .ok (.joins, m)
  else do
    let (result, inv) ← (m.inventory isValidate).canReserveData promptId modelVersion
    let m := m.setInventory isValidate inv
    if result then
      match setMax (inv.getBuffersWithCapacity.filter (· ≤ modelVersion + (m.staleness : Nat))) with
      | some bid => .ok (.opens bid, m)
      | none => .error (.typeError "bad operand type for unary -: 'NoneType'")
    else .ok (.cannot, m)

/-- `get_reserve_indicator`. -/
def getReserveIndicator (requestId : Nat) (modelVersions : List Int)
    (isValidate : Bool) : Except PyError (List ReserveIndicator × PSManager) :=
  modelVersions.foldlM (fun (state : List ReserveIndicator × PSManager) modelVersion => do
    let (indicator, m) ← state.2.reserveIndicator requestId modelVersion isValidate
    .ok (state.1 ++ [indicator], m)) ([], m)

/-- Whether a request to reserve was aborted; a caller may promise that it was not. -/
def checkReservable (guaranteeNotAborted : Bool) (requestId : Nat) :
    Except PyError (Bool × RequestStatusTracker) :=
  if guaranteeNotAborted then do
    pyAssert (requestId ∉ m.abortRequestIds)
      s!"Aborted request ID: {requestId}. It cannot be reserved."
    .ok (false, m.toRequestStatusTracker)
  else m.toRequestStatusTracker.checkAbortedRequest requestId true

/-- One request of `reserve_rollout_instance_requests`; `none` if it was aborted. -/
def reserveOne (guaranteeNotAborted isValidate : Bool) (r : Reservation) :
    Except PyError (Option (Int × Nat) × PSManager) := do
  pyAssert (r.modelVersion ≠ -1) "Model version should not be -1 when reserving a request"
  let (aborted, t) ← m.checkReservable guaranteeNotAborted r.requestId
  let m := { m with toRequestStatusTracker := t }
  if aborted then .ok (none, m)
  else do
    pyAssert (isValidate = true ∨ m.maxAbortedVersion < r.modelVersion)
      (s!"Cannot reserve model version: {r.modelVersion}. "
        ++ s!"It must exceed the maximum aborted version: {m.maxAbortedVersion}.")
    let rolloutN := if isValidate then m.valRolloutN else m.rolloutN
    let (slot, inv) ← (m.inventory isValidate).reserveData
      { rolloutInstanceId := r.rolloutInstanceId
        promptId := r.requestId / rolloutN
        requestIdx := r.requestId % rolloutN
        modelVersion := r.modelVersion
        nTrajectory := 1
        isValidate := isValidate }
      (if isValidate then none else some (r.modelVersion + (m.staleness : Nat)))
    match slot with
    | none => .error (.runtimeError "Failed to reserve entry for request")
    | some slot => .ok (some slot, m.setInventory isValidate inv)

/-- `reserve_rollout_instance_requests`. -/
def reserveRolloutInstanceRequests (rs : List Reservation) (guaranteeNotAborted isValidate : Bool) :
    Except PyError (List (Option (Int × Nat)) × PSManager) := do
  rs.forM fun r =>
    pyAssert (r.rolloutInstanceId = invalidRolloutInstanceId ∨
      (m.rolloutInstanceTracker.get? r.rolloutInstanceId).isSome = true)
      "Unregistered rollout instance."
  rs.foldlM (fun (state : List (Option (Int × Nat)) × PSManager) r => do
    let (slot, m) ← state.2.reserveOne guaranteeNotAborted isValidate r
    .ok (state.1 ++ [slot], m)) ([], m)

/-! ### Aborting requests -/

/-- `prompt_id_to_abort_request_idxs`: the request ids of each prompt, relative to it. -/
def groupByPrompt (rolloutN : Nat) (requestIds : List Nat) : Dict Nat (List Nat) :=
  requestIds.foldl (fun groups id => groups.set (id / rolloutN)
    ((groups.get? (id / rolloutN)).getD [] ++ [id % rolloutN])) .empty

/-- The local variables of `abort_requests`. -/
structure AbortState where
  inventory : StalenessInventory
  abortRequestIds : Finset Nat
  clearEntries : List Nat

/-- One prompt of `abort_requests`. The surviving requests of a group that is given up join
the set of global ids with the indices they have inside their group. -/
def abortPrompt (algRolloutN : Nat) (abortGroup : Bool) (state : AbortState)
    (prompt : Nat × List Nat) : Except PyError AbortState :=
  let (promptId, abortRequestIdxs) := prompt
  match state.inventory.dataTracker.get? promptId with
  | none => .ok state
  | some (bid, eid) => do
    let info ← state.inventory.entryInfoAt bid eid
    let restRequestsOfEntry := info.getAllRequestRelativeIds.toFinset \ abortRequestIdxs.toFinset
    if abortGroup = true ∧ restRequestsOfEntry.card < algRolloutN then
      .ok { state with
        abortRequestIds := state.abortRequestIds ∪ restRequestsOfEntry
        clearEntries := state.clearEntries ++ [info.promptId] }
    else do
      let inv ← state.inventory.dropRequests promptId abortRequestIdxs
      .ok { state with inventory := inv }

/-- `abort_requests`. -/
def abortRequests (order : SetOrder Nat) (requestIds : List Nat)
    (abortGroup : Bool) : Except PyError (AbortCommands × PSManager) := do
  let ids := requestIds.toFinset
  let state ← (groupByPrompt m.rolloutN (order.toList ids)).items.foldlM
    (abortPrompt m.algRolloutN abortGroup) ⟨m.stalenessInventory, ids, []⟩
  let inv ← state.inventory.clearReservedEntries state.clearEntries false
  let (commands, t) ← m.toRequestStatusTracker.abortRequests order state.abortRequestIds
  .ok (commands, { m with toRequestStatusTracker := t, stalenessInventory := inv })

/-- `abort_reserved_requests`: every request of a prompt reserved in the buffer is aborted,
the unrecorded ones included. -/
def abortReservedRequests (order : SetOrder Nat) (bid : Int) :
    Except PyError ((Nat × List Nat) × PSManager) := do
  let buffer ← m.stalenessInventory.buffers.get bid
  let promptIds := buffer.getReservedEntryIds.filterMap fun eid => (buffer.entryAt eid).promptId?
  let abortRequestIds := promptIds.flatMap fun p =>
    (List.range m.rolloutN).map fun i => p * m.rolloutN + i
  let (_, m) ← m.abortRequests order abortRequestIds true
  .ok ((buffer.getReservedEntryIds.length, abortRequestIds), m)

/-! ### Aborting versions -/

/-- The buffers that must be ready before a version is aborted. -/
def abortRange (version : Int) : List Int :=
  Int.range (max version m.modelVersion) (version + (m.staleness : Nat) + 1)

/-- `buffer_range.issubset(ready_buffer_ids)`. -/
def CanAbortVersion (version : Int) : Prop :=
  ∀ bid ∈ m.abortRange version, bid ∈ m.stalenessInventory.readyBufferIds

instance (m : PSManager) (version : Int) : Decidable (m.CanAbortVersion version) := by
  unfold CanAbortVersion
  infer_instance

/-- The loop that drains a set from its smallest element on, up to the first that fails
`ok`: the drained elements and the set that is left. One turn for each element suffices. -/
def drain (ok : Int → Bool) : Nat → Finset Int → List Int × Finset Int
  | 0, check => ([], check)
  | turns + 1, check =>
    match setMin check with
    | none => ([], check)
    | some version =>
      if ok version then
        let (versions, left) := drain ok turns (check.erase version)
        (version :: versions, left)
      else ([], check)

/-- `check_abort_versions` when buffer `bid` has become ready. -/
def pendingAbortVersions (bid : Int) : Finset Int :=
  if (m.staleness : Int) ≤ bid then insert (bid - (m.staleness : Nat)) m.checkAbortVersions
  else m.checkAbortVersions

/-- `curr_abort_versions`, in increasing order, and what stays in `check_abort_versions`. -/
def currAbortVersions (bid : Int) : List Int × Finset Int :=
  drain (fun version => m.CanAbortVersion version) (m.pendingAbortVersions bid).card
    (m.pendingAbortVersions bid)

/-- Abort one version: its requests join the requests to abort. -/
def abortVersion (state : Finset Nat × PSManager) (version : Int) :
    Except PyError (Finset Nat × PSManager) := do
  let m := { state.2 with maxAbortedVersion := max state.2.maxAbortedVersion version }
  let (ids, t) ← m.toRequestStatusTracker.getRequestsOfAbortVersion version
  .ok (state.1 ∪ ids, { m with toRequestStatusTracker := t })

/-- The staleness abort of `_abort_after_buffer_ready`. -/
def stalenessAbort (order : SetOrder Nat) (bid : Int) :
    Except PyError (Finset Nat × PSManager) := do
  let (versions, left) := m.currAbortVersions bid
  let (ids, m) ← versions.foldlM abortVersion (∅, { m with checkAbortVersions := left })
  if ids.Nonempty then do
    let (_, m) ← m.abortRequests order (order.toList ids) true
    .ok (ids, m)
  else .ok (ids, m)

/-- A ready buffer without reservations is deleted if it was consumed, and marked if not. -/
def releaseReadyBuffer (modelVersion : Int) (inv : StalenessInventory) (bid : Int) :
    Except PyError StalenessInventory := do
  let buffer ← inv.buffers.get bid
  if buffer.getReserveEntryNum = 0 then
    if bid < modelVersion then inv.deleteBuffer bid else inv.markBufferForDeletion bid
  else .ok inv

/-- `_abort_after_buffer_ready`, called by `handle_ready_buffer`. -/
def handleReadyBuffer (order : SetOrder Nat) (bufferOrder : SetOrder Int)
    (bid : Int) : Except PyError (Finset Nat × PSManager) := do
  let readyBufferIds := m.stalenessInventory.readyBufferIds
  let (ids, m) ← m.stalenessAbort order bid
  let inv ← (bufferOrder.toList readyBufferIds).foldlM (releaseReadyBuffer m.modelVersion)
    m.stalenessInventory
  .ok (ids, { m with stalenessInventory := inv })

/-! ### Occupying and pushing -/

/-- `occupy_rollout_instance_request`: the slot, the number of groups in its batch and the
entry; `none` if all requests were aborted. -/
def occupyRolloutInstanceRequest (bufferOrder : SetOrder Int) (promptId : Nat)
    (requestIds : Option (List Nat)) (isValidate : Bool) :
    Except PyError (Option (Int × Nat × EntryInfo) × PSManager) := do
  let requestIds := requestIds.getD [promptId]
  let (isAborted, t) ← m.toRequestStatusTracker.checkAbortedRequests requestIds true
  let filteredRequestIds := ((requestIds.zip isAborted).filter fun p => !p.2).map Prod.fst
  let t ← t.removeTrainReadyRequest filteredRequestIds
  let m := { m with toRequestStatusTracker := t }
  if filteredRequestIds = [] then do
    pyAssert ((m.inventory isValidate).dataTracker.get? promptId = none)
      ("Occupy failed due to staleness limit, but aborted data exists in the inventory: "
        ++ s!"{promptId}.")
    .ok (none, m)
  else do
    let ((bid, eid, occupyNum), inv) ←
      (m.inventory isValidate).occupyDataWithReserve bufferOrder promptId
    let info ← inv.entryInfoAt bid eid
    .ok (some (bid, occupyNum, info), m.setInventory isValidate inv)

/-- What the three `push_model_state_dict_*` methods do to the manager. -/
def pushModelStateDict (versionTag : Int) : Except PyError PSManager :=
  let m := { m with modelVersion := versionTag }
  if 0 < versionTag then m.maybeDeleteBuffer (versionTag - 1) false else .ok m

/-- `init_model_version_for_resume`. -/
def initModelVersionForResume (version : Int) : PSManager :=
  { m with modelVersion := version }

end PSManager

end Psrl
