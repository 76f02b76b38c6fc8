import Psrl.Staleness.Buffer

/-!
# Psrl.Staleness.Inventory

The staleness inventory (`StalenessInventory` in
`psrl/workers/ps/staleness_controller.py`): a row of buffers, one per training step, in
which every group in flight reserves a slot.

Three pieces of state must stay consistent: the slots of the buffers, `data_tracker`
(prompt to slot) and the cache of buffer ids by status. An operation edits slots and
tracker together through three primitives — `removeEntry`, `place` and `relocate` — and
refreshes the cache at its end.

A buffer or slot found through the tracker is looked up with the exception Python would
raise on a missing one; a message keeps its fixed part only.
-/

namespace Psrl

open Py

/-- The parameters of an inventory. `staleness` is `None` for validation. -/
structure InventoryConfig where
  staleness : Option Nat
  numEntries : Nat
  readyNumEntries : Nat
  rolloutN : Nat
  isValidate : Bool := false
  deriving Repr, DecidableEq

/-- A validation inventory has no staleness bound and no redundant slots. -/
def InventoryConfig.normalize (config : InventoryConfig) : InventoryConfig :=
  if config.isValidate then
    { config with
      staleness := if config.staleness = some 0 then some 0 else none
      numEntries := config.readyNumEntries }
  else config

structure StalenessInventory extends InventoryConfig where
  bufferId : Int
  buffers : Dict Int StalenessBuffer
  dataTracker : Dict Nat (Int × Nat)
  bufferIdsByStatus : BufferStatus → Finset Int
  readyForDeleteBufferIds : Finset Int

namespace StalenessInventory

variable (inv : StalenessInventory)

/-- `__init__`. -/
def new (config : InventoryConfig) : StalenessInventory where
  toInventoryConfig := config.normalize
  bufferId := 0
  buffers := .empty
  dataTracker := .empty
  bufferIdsByStatus := fun _ => ∅
  readyForDeleteBufferIds := ∅

/-- `self.staleness` where an integer is needed. -/
def getStaleness : Except PyError Nat :=
  match inv.staleness with
  | some eta => .ok eta
  | none => .error (.typeError "unsupported operand type(s): 'int' and 'NoneType'")

/-! ### Slots -/

/-- `self.buffers[bid].entries[eid]`; what does not exist reads as `EMPTY`. -/
def slotAt (bid : Int) (eid : Nat) : Entry :=
  match inv.buffers.get? bid with
  | some buffer => buffer.entryAt eid
  | none => .empty

/-- `self.buffers[bid].entries[eid].entry_info`, about to be used as an `EntryInfo`. -/
def entryInfoAt (bid : Int) (eid : Nat) : Except PyError EntryInfo := do
  let buffer ← inv.buffers.get bid
  match (buffer.entryAt eid).entryInfo? with
  | some info => .ok info
  | none => .error (.attributeError "'NoneType' object has no attribute")

/-- `self.buffers[bid].entries[eid] = entry`. -/
def setSlot (bid : Int) (eid : Nat) (entry : Entry) : StalenessInventory :=
  match inv.buffers.get? bid with
  | some buffer => { inv with buffers := inv.buffers.set bid (buffer.setEntry eid entry) }
  | none => inv

/-- `self.buffers[bid].insert(eid, …)`; `delete` inserts `EMPTY`. -/
def insertSlot (bid : Int) (eid : Nat) (entry : Entry) : Except PyError StalenessInventory := do
  let buffer ← inv.buffers.get bid
  let buffer ← buffer.insert eid entry
  .ok { inv with buffers := inv.buffers.set bid buffer }

/-- `buffer.delete(eid); del self.data_tracker[prompt_id]`. -/
def removeEntry (promptId : Nat) (bid : Int) (eid : Nat) : Except PyError StalenessInventory := do
  let inv ← inv.insertSlot bid eid .empty
  let dataTracker ← inv.dataTracker.del promptId
  .ok { inv with dataTracker := dataTracker }

/-- `buffer.insert(eid, category, entry_info); self.data_tracker[prompt_id] = (bid, eid)`. -/
def place (promptId : Nat) (bid : Int) (eid : Nat) (entry : Entry) :
    Except PyError StalenessInventory := do
  let inv ← inv.insertSlot bid eid entry
  .ok { inv with dataTracker := inv.dataTracker.set promptId (bid, eid) }

/-- Move the entry of slot `src` into slot `dst`: `entries[dst] = entries[src]`,
`delete(src)`, and `data_tracker` of the moved prompt points to `dst`. -/
def relocate (src dst : Int × Nat) : Except PyError StalenessInventory := do
  let entry := inv.slotAt src.1 src.2
  let inv ← (inv.setSlot dst.1 dst.2 entry).insertSlot src.1 src.2 .empty
  match entry.promptId? with
  | some promptId => .ok { inv with dataTracker := inv.dataTracker.set promptId dst }
  | none => .error (.assertionError "Moved entry must not be None")

/-! ### Buffer statuses -/

/-- The first cached status of a buffer. -/
def cachedStatus? (bid : Int) : Option BufferStatus :=
  BufferStatus.all.find? (fun status => bid ∈ inv.bufferIdsByStatus status)

/-- `get_buffer_status`: the cached status. -/
def getBufferStatus (bid : Int) : Except PyError BufferStatus :=
  match inv.buffers.get? bid with
  | none => .error (.valueError s!"Buffer {bid} does not exist")
  | some _ =>
    match inv.cachedStatus? bid with
    | some status => .ok status
    | none => .error (.valueError s!"Buffer {bid} has no status in inventory")

/-- `get_buffers_not_ready`. -/
def getBuffersNotReady : Finset Int :=
  inv.bufferIdsByStatus .stuck ∪ inv.bufferIdsByStatus .pending

/-- `get_buffers_with_capacity`. -/
def getBuffersWithCapacity : Finset Int :=
  inv.bufferIdsByStatus .pending ∪ inv.bufferIdsByStatus .readyWithCapacity

/-- `ready_buffer_ids`. -/
def readyBufferIds : Finset Int :=
  inv.bufferIdsByStatus .ready ∪ inv.bufferIdsByStatus .readyWithCapacity

/-- `min_not_ready_buffer_id`. -/
def minNotReadyBufferId : Option Int :=
  setMin inv.getBuffersNotReady

/-- The status cache without the first cached status of `bid`. -/
def dropCached (bid : Int) : BufferStatus → Finset Int :=
  match inv.cachedStatus? bid with
  | some status =>
    Function.update inv.bufferIdsByStatus status ((inv.bufferIdsByStatus status).erase bid)
  | none => inv.bufferIdsByStatus

/-- `_update_buffer_status`. -/
def updateBufferStatus (bid : Int) : Except PyError StalenessInventory :=
  match inv.buffers.get? bid with
  | none => .ok inv
  | some buffer => do
    let cache := inv.dropCached bid
    let newStatus ← buffer.getStatus
    .ok { inv with
      bufferIdsByStatus := Function.update cache newStatus (insert bid (cache newStatus)) }

/-- `for buffer_id in ids: self._update_buffer_status(buffer_id)`. The ids come from a set;
an update touches the cache of its own id only, so their order does not matter and the
model visits them in the order in which they were added. -/
def updateBufferStatuses (ids : List Int) : Except PyError StalenessInventory :=
  ids.foldlM updateBufferStatus inv

/-! ### Creating and deleting buffers -/

/-- `create_buffer`. -/
def createBuffer (bid : Int) : Except PyError StalenessInventory := do
  pyAssert (bid = inv.bufferId)
    s!"Out-of-sequence buffer ID: {bid}. Expected ID: {inv.bufferId}."
  let buffer := StalenessBuffer.new inv.numEntries inv.readyNumEntries
  let inv ← { inv with buffers := inv.buffers.set bid buffer }.updateBufferStatus bid
  .ok { inv with bufferId := inv.bufferId + 1 }

/-- `create_buffer_with_capacity`. -/
def createBufferWithCapacity (readyNumEntries numEntries : Nat) :
    Except PyError StalenessInventory := do
  pyAssert (inv.isValidate = true)
    ("Buffer size can only be dynamically set for validation inventory " ++
      "because only one buffer is used during validation.")
  createBuffer { inv with numEntries := numEntries, readyNumEntries := readyNumEntries }
    inv.bufferId

/-- `ensure_buffer_exists`. -/
def ensureBufferExists (maxStalenessBufferId : Option Int) : Except PyError StalenessInventory :=
  if inv.isValidate then .ok inv
  else
    match maxStalenessBufferId with
    | none => .error
        (.assertionError "max_staleness_buffer_id must be provided for training inventory")
    | some maxId => (Int.range inv.bufferId (maxId + 1)).foldlM createBuffer inv

/-- `del self.data_tracker[entry_info.prompt_id]` for one entry of a deleted buffer. -/
def untrackEntry (tracker : Dict Nat (Int × Nat)) (entry : Entry) :
    Except PyError (Dict Nat (Int × Nat)) :=
  match entry.promptId? with
  | none => .ok tracker
  | some promptId => do
    pyAssert (tracker.get? promptId ≠ none) "Entry info missing from data tracker"
    tracker.del promptId

/-- `delete_buffer`. -/
def deleteBuffer (bid : Int) : Except PyError StalenessInventory :=
  match inv.buffers.get? bid with
  | none => .ok inv
  | some buffer => do
    let dataTracker ← buffer.entries.foldlM untrackEntry inv.dataTracker
    .ok { inv with
      dataTracker := dataTracker
      bufferIdsByStatus := fun status => (inv.bufferIdsByStatus status).erase bid
      buffers := inv.buffers.erase bid
      readyForDeleteBufferIds := inv.readyForDeleteBufferIds.erase bid }

/-- `mark_buffer_for_deletion`. -/
def markBufferForDeletion (bid : Int) : Except PyError StalenessInventory := do
  let status ← inv.getBufferStatus bid
  pyAssert (status = .ready ∨ status = .readyWithCapacity)
    s!"Buffer must be ready before deletion. ID: {bid}."
  .ok { inv with readyForDeleteBufferIds := insert bid inv.readyForDeleteBufferIds }

/-! ### Reserving -/

/-- `can_reserve_data_without_new_reserve_entry`. -/
def canReserveDataWithoutNewReserveEntry (promptId : Nat) (modelVersion : Int) : Bool :=
  match inv.dataTracker.get? promptId with
  | some (bid, _) => decide (bid ≤ modelVersion + (inv.staleness.getD 0 : Nat))
  | none => false

/-- `can_reserve_data`: it also creates the buffers up to the staleness bound. -/
def canReserveData (promptId : Nat) (modelVersion : Int) :
    Except PyError (Bool × StalenessInventory) :=
  let staleness := inv.staleness.getD 0
  match inv.dataTracker.get? promptId with
  | some (bid, _) => .ok (decide (bid ≤ modelVersion + (staleness : Nat)), inv)
  | none => do
    let inv ← inv.ensureBufferExists (some (modelVersion + (staleness : Nat)))
    let candidateIds := inv.getBuffersWithCapacity.filter fun bid =>
      (modelVersion ≤ bid ∧ bid ≤ modelVersion + (staleness : Nat)) ∧
        bid ∉ inv.readyForDeleteBufferIds
    .ok (decide candidateIds.Nonempty, inv)

/-- The candidates of `reserve_data` without a staleness bound. -/
def onlyBufferWithCapacity : Except PyError (Finset Int) := do
  pyAssert (inv.getBuffersWithCapacity.card = 1)
    "Only one PENDING buffer should exist when max_staleness_buffer_id is None"
  .ok inv.getBuffersWithCapacity

/-- The buffers `reserve_data` may choose from. A bound of `0` is falsy in Python, so it is
treated like the missing bound of a validation inventory. -/
def reserveCandidates (maxStalenessBufferId : Option Int) : Except PyError (Finset Int) :=
  match maxStalenessBufferId with
  | none => inv.onlyBufferWithCapacity
  | some maxId =>
    if maxId = 0 then inv.onlyBufferWithCapacity
    else do
      let staleness ← inv.getStaleness
      .ok (inv.getBuffersWithCapacity.filter fun bid =>
        (maxId - staleness ≤ bid ∧ bid ≤ maxId) ∧ bid ∉ inv.readyForDeleteBufferIds)

/-- Reserve the last slot that is not reserved yet in the last candidate buffer. -/
def reserveIn (req : RequestInfo) (candidateIds : Finset Int) :
    Except PyError (Option (Int × Nat) × StalenessInventory) :=
  match setMax candidateIds with
  | none => .ok (none, inv)
  | some targetBufferId => do
    let buffer ← inv.buffers.get targetBufferId
    let entryId := buffer.getLastNonReserved
    pyAssert (entryId ≠ -1 ∧ buffer.categoryAt entryId.toNat = .empty)
      "Non-reserved entry must be empty"
    let inv ← inv.place req.promptId targetBufferId entryId.toNat (.reserved req.toEntryInfo)
    let inv ← inv.updateBufferStatus targetBufferId
    .ok (some (targetBufferId, entryId.toNat), inv)

/-- `reserve_data` for a prompt that has no slot yet. -/
def reserveNew (req : RequestInfo) (maxStalenessBufferId : Option Int) :
    Except PyError (Option (Int × Nat) × StalenessInventory) := do
  let inv ←
    if inv.isValidate then .ok inv
    else do
      pyAssert (maxStalenessBufferId ≠ none)
        "max_staleness_buffer_id must be provided for non-validation inventory"
      inv.ensureBufferExists maxStalenessBufferId
  let candidateIds ← inv.reserveCandidates maxStalenessBufferId
  inv.reserveIn req candidateIds

/-- `reserve_data`. -/
def reserveData (req : RequestInfo) (maxStalenessBufferId : Option Int) :
    Except PyError (Option (Int × Nat) × StalenessInventory) :=
  match inv.dataTracker.get? req.promptId with
  | some (bid, eid) => do
    -- the request joins the group that already has a slot
    let info ← inv.entryInfoAt bid eid
    let entry := (inv.slotAt bid eid).setInfo (info.recordRequest req)
    .ok (some (bid, eid), inv.setSlot bid eid entry)
  | none =>
    inv.reserveNew req (if inv.isValidate then none else maxStalenessBufferId)

/-! ### Changing a recorded request -/

/-- The shape of the three `update_request_*` methods: find the slot of the request's
prompt and change its entry. -/
def updateRequest (requestId : Nat) (update : EntryInfo → Nat → Except PyError EntryInfo) :
    Except PyError StalenessInventory :=
  match inv.dataTracker.get? (requestId / inv.rolloutN) with
  | none => .error
      (.assertionError s!"Prompt ID {requestId / inv.rolloutN} not found in data tracker")
  | some (bid, eid) => do
    let info ← inv.entryInfoAt bid eid
    let info ← update info (requestId % inv.rolloutN)
    .ok (inv.setSlot bid eid ((inv.slotAt bid eid).setInfo info))

/-- `update_request_version_tag`. -/
def updateRequestVersionTag (requestId : Nat) (newVersionTag : Int) :
    Except PyError StalenessInventory :=
  inv.updateRequest requestId fun info idx => info.updateModelVersion idx newVersionTag

/-- `update_request_instance_id`. -/
def updateRequestInstanceId (requestId : Nat)
    (newInstanceId : RolloutInstanceId) : Except PyError StalenessInventory :=
  inv.updateRequest requestId fun info idx => info.updateRolloutInstanceId idx newInstanceId

/-- `update_request_n_trajectory`. -/
def updateRequestNTrajectory (requestId : Nat)
    (newNTrajectory : Nat) : Except PyError StalenessInventory :=
  inv.updateRequest requestId fun info idx => info.updateNTrajectory idx newNTrajectory

/-- The partial branch of `PSManager.abort_requests` for one tracked prompt. -/
def dropRequests (promptId : Nat) (abortRequestIdxs : List Nat) :
    Except PyError StalenessInventory := do
  let (bid, eid) ← inv.dataTracker.get promptId
  let info ← inv.entryInfoAt bid eid
  let info ← info.dropRequests abortRequestIdxs
  .ok (inv.setSlot bid eid ((inv.slotAt bid eid).setInfo info))

/-! ### Clearing -/

/-- `ids.add(bid)`, remembering the order of insertion. -/
def addId (ids : List Int) (bid : Int) : List Int := if bid ∈ ids then ids else ids ++ [bid]

/-- One prompt of `clear_occupied_entries`: the last `OCCUPIED` entry of the buffer fills
the gap. -/
def clearOccupiedSlot (promptId : Nat) (bid : Int) (eid : Nat) :
    Except PyError StalenessInventory := do
  let buffer ← inv.buffers.get bid
  let lastOccupiedEntryId := (buffer.getFirstNonOccupied : Int) - 1
  pyAssert ((eid : Int) ≤ lastOccupiedEntryId)
    (s!"Entry to clear is outside the occupied prefix. Entry ID: {eid}. "
      ++ s!"Buffer ID: {bid}. Last occupied entry ID: {lastOccupiedEntryId}.")
  let inv ← inv.removeEntry promptId bid eid
  if (eid : Int) < lastOccupiedEntryId then
    inv.relocate (bid, lastOccupiedEntryId.toNat) (bid, eid)
  else .ok inv

/-- One iteration of `clear_occupied_entries`. -/
def clearOccupiedEntry (state : StalenessInventory × List Int) (promptId : Nat) :
    Except PyError (StalenessInventory × List Int) :=
  let (inv, updatedBufferIds) := state
  match inv.dataTracker.get? promptId with
  | none => .error
      (.assertionError s!"Cannot clear an untracked occupied entry. Prompt ID: {promptId}.")
  | some (bid, eid) => do
    let inv ← inv.clearOccupiedSlot promptId bid eid
    .ok (inv, addId updatedBufferIds bid)

/-- `clear_occupied_entries`. -/
def clearOccupiedEntries (promptIds : List Nat) : Except PyError StalenessInventory := do
  let (inv, updatedBufferIds) ← promptIds.foldlM clearOccupiedEntry (inv, [])
  inv.updateBufferStatuses updatedBufferIds

/-- The scan of one buffer for a reservation that may move to slot `(bufferId, entryId)`:
later slots of the same buffer are skipped, prompts about to be cleared are too. -/
def findInBuffer (staleness : Nat) (promptIds : List Nat) (bufferId : Int) (entryId : Nat)
    (bid : Int) : List (Entry × Nat) → Except PyError (Option Nat)
  | [] => .ok none
  | (entry, eid) :: rest =>
    if bid = bufferId ∧ entryId ≤ eid then .ok none
    else
      match entry with
      | .reserved info => do
        let entryModelVersion ← info.getEntryVersion
        if bufferId - staleness ≤ entryModelVersion ∧ entryModelVersion ≤ bufferId ∧
            info.promptId ∉ promptIds then .ok (some eid)
        else findInBuffer staleness promptIds bufferId entryId bid rest
      | _ => findInBuffer staleness promptIds bufferId entryId bid rest

/-- The search of `clear_reserved_entries` for a reservation to move across buffers, over
the buffers `bids`; buffers whose batch is complete are skipped. -/
def findExchange (inv : StalenessInventory) (staleness : Nat) (promptIds : List Nat)
    (bufferId : Int) (entryId : Nat) : List Int → Except PyError (Option (Int × Nat))
  | [] => .ok none
  | bid :: rest =>
    match inv.buffers.get? bid with
    | none => findExchange inv staleness promptIds bufferId entryId rest
    | some buffer => do
      let status ← buffer.getStatus
      if status = .ready ∨ status = .readyWithCapacity then
        findExchange inv staleness promptIds bufferId entryId rest
      else
        match ← findInBuffer staleness promptIds bufferId entryId bid buffer.entries.zipIdx with
        | some eid => .ok (some (bid, eid))
        | none => findExchange inv staleness promptIds bufferId entryId rest

/-- One prompt of `clear_reserved_entries(move_across_buffer=False)`: the first `RESERVED`
entry of the buffer fills the gap. -/
def clearWithinBuffer (promptId : Nat) (bid : Int) (eid : Nat) :
    Except PyError StalenessInventory := do
  let buffer ← inv.buffers.get bid
  let lastReservedEntryId := buffer.getLastNonReserved + 1
  let inv ← inv.removeEntry promptId bid eid
  if lastReservedEntryId < (eid : Int) then
    inv.relocate (bid, lastReservedEntryId.toNat) (bid, eid)
  else .ok inv

/-- The exchange of `clear_reserved_entries(move_across_buffer=True)`: the found
reservation fills the gap, and the first `RESERVED` entry of its buffer fills the gap it
leaves there. -/
def clearWithExchange (promptId : Nat) (bid : Int) (eid : Nat)
    (exchange : Int × Nat) : Except PyError StalenessInventory := do
  let exchangeBuffer ← inv.buffers.get exchange.1
  let lastReservedEntryId := exchangeBuffer.getLastNonReserved + 1
  let inv ← inv.removeEntry promptId bid eid
  let inv ← inv.relocate exchange (bid, eid)
  if lastReservedEntryId < (exchange.2 : Int) then
    inv.relocate (exchange.1, lastReservedEntryId.toNat) exchange
  else .ok inv

/-- The ids `clear_reserved_entries(move_across_buffer=True)` searches for an exchange. -/
def exchangeRange (modelVersion : Int) (staleness : Nat) (bid : Int) : List Int :=
  Int.range modelVersion (min (modelVersion + staleness) bid + 1)

/-- One iteration of `clear_reserved_entries`. -/
def clearReservedEntry (promptIds : List Nat) (moveAcrossBuffer : Bool)
    (state : StalenessInventory × List Int) (promptId : Nat) :
    Except PyError (StalenessInventory × List Int) :=
  let (inv, changedBufferIds) := state
  match inv.dataTracker.get? promptId with
  | none => .ok state
  | some (bid, eid) =>
    if moveAcrossBuffer then do
      let info ← inv.entryInfoAt bid eid
      let modelVersion ← info.getEntryVersion
      let staleness ← inv.getStaleness
      let exchange ← inv.findExchange staleness promptIds bid eid
        (exchangeRange modelVersion staleness bid)
      match exchange with
      | some exchange => do
        let inv ← inv.clearWithExchange promptId bid eid exchange
        .ok (inv, addId (addId changedBufferIds bid) exchange.1)
      | none => do
        let inv ← inv.removeEntry promptId bid eid
        .ok (inv, addId changedBufferIds bid)
    else do
      let inv ← inv.clearWithinBuffer promptId bid eid
      .ok (inv, addId changedBufferIds bid)

/-- `clear_reserved_entries`. -/
def clearReservedEntries (promptIds : List Nat)
    (moveAcrossBuffer : Bool) : Except PyError StalenessInventory := do
  let moveAcrossBuffer := moveAcrossBuffer && !inv.isValidate
  let (inv, changedBufferIds) ←
    promptIds.foldlM (clearReservedEntry promptIds moveAcrossBuffer) (inv, [])
  inv.updateBufferStatuses changedBufferIds

/-! ### Occupying -/

/-- The buffer exists and its batch is still open. -/
def isOpen (bid : Int) : Bool :=
  match inv.buffers.get? bid with
  | some buffer => buffer.getFirstNonOccupied < buffer.readyNumEntries
  | none => false

/-- The first check of `occupy_data_with_reserve`: some buffer could still take the group. -/
def havePossibleOccupyTarget (modelVersion : Int) : Except PyError Bool :=
  if inv.isValidate then
    match inv.minNotReadyBufferId with
    | none => .error (.keyError "None")
    | some bid => do
      let buffer ← inv.buffers.get bid
      .ok (buffer.getFirstNonOccupied < buffer.readyNumEntries)
  else do
    let staleness ← inv.getStaleness
    .ok ((Int.range (modelVersion - staleness) (modelVersion + staleness + 1)).any inv.isOpen)

/-- The buffers of `ids` that may train on version `modelVersion` and are still open. -/
def openInWindow (modelVersion : Int) (staleness : Nat) (ids : Finset Int) : Finset Int :=
  ids.filter fun bid =>
    (modelVersion ≤ bid ∧ bid ≤ modelVersion + staleness) ∧ inv.isOpen bid = true

/-- Put a finished group into slot `eid` of buffer `bid` and return the slot together with
the number of groups the batch now has. -/
def finishOccupy (info : EntryInfo) (bid : Int) (eid : Nat) :
    Except PyError ((Int × Nat × Nat) × StalenessInventory) := do
  let inv ← inv.place info.promptId bid eid (.occupied info)
  let buffer ← inv.buffers.get bid
  let occupyNum := buffer.getFirstNonOccupied
  let inv ← inv.updateBufferStatus bid
  .ok ((bid, eid, occupyNum), inv)

/-- Put a finished group into the first slot of the first candidate buffer that is not
occupied; the slot must be free and inside the batch. -/
def occupyFirstFree (info : EntryInfo) (candidateIds : Finset Int)
    (noCandidate : String) : Except PyError ((Int × Nat × Nat) × StalenessInventory) :=
  match setMin candidateIds with
  | none => .error (.assertionError noCandidate)
  | some bid => do
    let buffer ← inv.buffers.get bid
    let eid := buffer.getFirstNonOccupied
    pyAssert (eid < buffer.readyNumEntries ∧ buffer.categoryAt eid = .empty)
      "Non-occupied entry must be empty"
    inv.finishOccupy info bid eid

/-- The branch for a group that was reserved inside the batch. -/
def occupyInBatch (info : EntryInfo) (modelVersion : Int) :
    Except PyError ((Int × Nat × Nat) × StalenessInventory) := do
  let pendingBuffers := inv.getBuffersWithCapacity
  let candidateIds ←
    if inv.isValidate then .ok pendingBuffers
    else do
      let staleness ← inv.getStaleness
      .ok (inv.openInWindow modelVersion staleness pendingBuffers)
  inv.occupyFirstFree info candidateIds "No pending buffer is available during occupation"

/-- Free the first slot of an open buffer `bid` that has no `EMPTY` slot there: its
reservation moves to the last buffer before `bid` with capacity. `none` if there is none. -/
def evictReserved (pendingBuffers : Finset Int) (bid : Int)
    (eid : Nat) : Except PyError (Option StalenessInventory) :=
  let availableBuffers := pendingBuffers.filter fun other =>
    other < bid ∧ other ∉ inv.readyForDeleteBufferIds
  match setMax availableBuffers with
  | none => .ok none
  | some exchangeBufferId => do
    let exchangeBuffer ← inv.buffers.get exchangeBufferId
    let lastEmptyEntryId := exchangeBuffer.getLastNonReserved
    pyAssert (0 ≤ lastEmptyEntryId ∧ exchangeBuffer.categoryAt lastEmptyEntryId.toNat = .empty)
      s!"Exchange slot must be empty. Buffer: {exchangeBufferId}. Slot: {lastEmptyEntryId}."
    let inv ← inv.relocate (bid, eid) (exchangeBufferId, lastEmptyEntryId.toNat)
    let inv ← inv.updateBufferStatus exchangeBufferId
    .ok (some inv)

/-- The loop of the redundant branch over its candidate buffers: the first one with an
`EMPTY` slot at its boundary, or whose boundary reservation can be evicted, takes the
group. `none` if all were skipped. -/
def occupyRedundantLoop (inv : StalenessInventory) (info : EntryInfo)
    (pendingBuffers : Finset Int) :
    List Int → Except PyError (Option ((Int × Nat × Nat) × StalenessInventory))
  | [] => .ok none
  | bid :: rest => do
    let buffer ← inv.buffers.get bid
    let eid := buffer.getFirstNonOccupied
    pyAssert (eid < buffer.readyNumEntries)
      s!"Non-occupied entry exceeds ready capacity. Entry ID: {eid}."
    if buffer.categoryAt eid = .empty then
      let result ← inv.finishOccupy info bid eid
      .ok (some result)
    else do
      pyAssert (buffer.categoryAt eid = .reserved) "Entry must be reserved"
      match ← inv.evictReserved pendingBuffers bid eid with
      | none => occupyRedundantLoop inv info pendingBuffers rest
      | some inv =>
        let result ← inv.finishOccupy info bid eid
        .ok (some result)

/-- The last resort of the redundant branch. Its candidates are filtered to buffers whose
boundary lies *inside* the batch, its assertion wants the boundary *beyond* it. -/
def occupyOverflow (info : EntryInfo) (modelVersion : Int)
    (staleness : Nat) (pendingBuffers : Finset Int) :
    Except PyError ((Int × Nat × Nat) × StalenessInventory) :=
  match setMin (inv.openInWindow modelVersion staleness pendingBuffers) with
  | none => .error (.valueError "min() arg is an empty sequence")
  | some bid => do
    let buffer ← inv.buffers.get bid
    let eid := buffer.getFirstNonOccupied
    pyAssert (buffer.readyNumEntries ≤ eid ∧ buffer.categoryAt eid = .empty)
      "Overflow entry must be empty and beyond ready capacity"
    inv.finishOccupy info bid eid

/-- The branch for a group that was reserved in a redundant slot. -/
def occupyRedundant (order : SetOrder Int) (inv : StalenessInventory) (info : EntryInfo)
    (modelVersion : Int) : Except PyError ((Int × Nat × Nat) × StalenessInventory) := do
  let staleness ← inv.getStaleness
  let pendingBuffers := inv.getBuffersWithCapacity
  let notReadyBuffers := inv.getBuffersNotReady
  let candidateIds := (order.toList notReadyBuffers).filter fun bid =>
    (modelVersion ≤ bid ∧ bid ≤ modelVersion + staleness) ∧ inv.isOpen bid = true
  pyAssert (candidateIds ≠ []) "No not-ready buffer is available during occupation"
  match ← inv.occupyRedundantLoop info pendingBuffers candidateIds with
  | some result => .ok result
  | none => inv.occupyOverflow info modelVersion staleness pendingBuffers

/-- `occupy_data_with_reserve`. -/
def occupyDataWithReserve (order : SetOrder Int) (inv : StalenessInventory) (promptId : Nat) :
    Except PyError ((Int × Nat × Nat) × StalenessInventory) :=
  match inv.dataTracker.get? promptId with
  | none => .error (.assertionError "Prompt must have an existing mapping")
  | some (oldBufferId, oldEntryId) => do
    let info ← inv.entryInfoAt oldBufferId oldEntryId
    let modelVersion ← info.getEntryVersion
    let haveTarget ← inv.havePossibleOccupyTarget modelVersion
    pyAssert (haveTarget = true) s!"No occupation target found. Prompt ID: {promptId}."
    let inv ← inv.clearReservedEntries [promptId] (!inv.isValidate)
    let oldBuffer ← inv.buffers.get oldBufferId
    if oldEntryId < oldBuffer.readyNumEntries then inv.occupyInBatch info modelVersion
    else inv.occupyRedundant order info modelVersion

/-- `occupy_data_without_reserve`. -/
def occupyDataWithoutReserve (info : EntryInfo) :
    Except PyError ((Int × Nat × Nat) × StalenessInventory) := do
  let modelVersion ← info.getEntryVersion
  let staleness ← inv.getStaleness
  inv.occupyFirstFree info
    (inv.openInWindow modelVersion staleness inv.getBuffersWithCapacity)
    "No suitable PENDING buffer found."

/-- One iteration of `move_occupied_entries`. -/
def occupyAgain (bid : Int) (inv : StalenessInventory) (info : EntryInfo) :
    Except PyError StalenessInventory := do
  let ((occupiedBufferId, _, _), inv) ← inv.occupyDataWithoutReserve info
  pyAssert (occupiedBufferId = bid)
    (s!"Occupied buffer differs from target. Actual ID: {occupiedBufferId}. "
      ++ s!"Target ID: {bid}.")
  .ok inv

/-- `move_occupied_entries`: the groups are cleared and occupied anew, without reservation. -/
def moveOccupiedEntries (entryInfos : List EntryInfo) (bid : Int) :
    Except PyError StalenessInventory := do
  let inv ← inv.clearOccupiedEntries (entryInfos.map EntryInfo.promptId)
  entryInfos.foldlM (occupyAgain bid) inv

end StalenessInventory

end Psrl
