import Psrl.Lib.Multimap
import Psrl.Lib.Run

/-!
# Psrl.Dispatch.Chunks

**Chunked delivery of a training buffer** (`workers/agent_loop/manager.py`). Finished groups are
appended one by one to an accumulated buffer, and `_emit_pending_chunks` cuts what has not been
emitted into chunks, each delivered to the waiter of its index or kept for a later
`wait_for_training_chunk`.

Between two calls fewer entries are pending than fit into a chunk, so an append completes at
most one chunk, and this chunk takes everything pending (`emitPendingChunks_eq`). What a buffer
looks like is a property of its part of the state alone (`BufferView.Inv`); who waits and what
is kept for whom is a function of the chunks emitted and the calls made (`Delivery`).

A chunk is kept as the list of its entries; the batch of payload keys built from it and the
refill breaker, which ends the calls of a manager that has given up, are not modelled.
-/

namespace Psrl

open Py

/-- An entry of a buffer: the object (`id(entry)`) and what a chunk is sorted by. -/
structure TrainEntry where
  objectId : Nat
  promptId : Nat
  deriving DecidableEq

structure Chunk where
  entries : List TrainEntry
  isLast : Bool
  deriving DecidableEq

/-- A call of `wait_for_training_chunk`, for a buffer and an index. -/
structure WaitCall where
  key : Nat × Nat
  result : Option Chunk
  deriving DecidableEq

structure ChunkConfig where
  trainChunkSize : Nat
  readyEntriesPerBuffer : Nat
  chunk_pos : 0 < trainChunkSize
  ready_pos : 0 < readyEntriesPerBuffer

/-- The chunks of a buffer, `ceil(R / c)`. -/
def ChunkConfig.chunkCount (cfg : ChunkConfig) : Nat :=
  (cfg.readyEntriesPerBuffer + cfg.trainChunkSize - 1) / cfg.trainChunkSize

structure ChunkSystem where
  trainAccumulatedBuffers : Dict Nat (Dict Int (List TrainEntry))
  trainAccumulatedBufferSize : Dict Nat Nat
  trainChunkConsumed : Dict Nat Nat
  trainChunkEmittedEntryIds : Dict Nat (Finset Nat)
  /-- the futures, by the numbers of their calls -/
  trainChunkWaiters : Dict (Nat × Nat) (List Nat)
  resolvedTrainChunks : Dict (Nat × Nat) Chunk
  callCounter : Nat
  calls : Nat → Option WaitCall
  /-- history: the call made for a buffer and an index -/
  asked : Nat × Nat → Option Nat
  /-- history: the entries appended to a buffer -/
  appended : Nat → List TrainEntry
  /-- history: the chunks emitted from a buffer -/
  emitted : Nat → List Chunk

namespace ChunkSystem

variable (s : ChunkSystem)

def init : ChunkSystem where
  trainAccumulatedBuffers := .empty
  trainAccumulatedBufferSize := .empty
  trainChunkConsumed := .empty
  trainChunkEmittedEntryIds := .empty
  trainChunkWaiters := .empty
  resolvedTrainChunks := .empty
  callCounter := 0
  calls _ := none
  asked _ := none
  appended _ := []
  emitted _ := []

/-- The accumulation of an occupied entry in `occupy_requests`. -/
def append (bufferId : Nat) (modelVersion : Int) (entry : TrainEntry) : ChunkSystem :=
  let known := s.trainAccumulatedBuffers.get? bufferId
  let size := if known.isSome then (s.trainAccumulatedBufferSize.get? bufferId).getD 0 else 0
  { s with
    trainAccumulatedBuffers := s.trainAccumulatedBuffers.set bufferId
      ((known.getD .empty).append modelVersion entry)
    trainAccumulatedBufferSize := s.trainAccumulatedBufferSize.set bufferId (size + 1)
    appended := Function.update s.appended bufferId (s.appended bufferId ++ [entry]) }

/-- `if not fut.done(): fut.set_result(result)`. -/
def setResult (chunk : Chunk) (calls : Nat → Option WaitCall) (future : Nat) :
    Nat → Option WaitCall :=
  match calls future with
  | some call =>
      if call.result = none then
        Function.update calls future (some { call with result := some chunk })
      else calls
  | none => calls

/-- A resolved chunk goes to the registered waiters, or is kept for a late one. -/
def deliver (key : Nat × Nat) (chunk : Chunk) : ChunkSystem :=
  match s.trainChunkWaiters.get? key with
  | some futures => { s with
      calls := futures.foldl (setResult chunk) s.calls
      trainChunkWaiters := s.trainChunkWaiters.erase key
      resolvedTrainChunks := s.resolvedTrainChunks.erase key }
  | none => { s with resolvedTrainChunks := s.resolvedTrainChunks.set key chunk }

/-- `sorted(entries, key=lambda ei: ei.prompt_id)`. -/
def sortByPrompt (entries : List TrainEntry) : List TrainEntry :=
  entries.insertionSort fun a b => a.promptId ≤ b.promptId

/-- One chunk: delivered, and its entries counted as emitted. -/
def emitChunk (bufferId chunkIdx consumed : Nat) (chunk : Chunk) : ChunkSystem :=
  let s := s.deliver (bufferId, chunkIdx) chunk
  let ids := (s.trainChunkEmittedEntryIds.get? bufferId).getD ∅
  { s with
    trainChunkEmittedEntryIds := s.trainChunkEmittedEntryIds.set bufferId
      (ids ∪ (chunk.entries.map TrainEntry.objectId).toFinset)
    trainChunkConsumed := s.trainChunkConsumed.set bufferId (consumed + chunk.entries.length)
    emitted := Function.update s.emitted bufferId (s.emitted bufferId ++ [chunk]) }

/-- The loop of `_emit_pending_chunks`. -/
def emitLoop (cfg : ChunkConfig) (bufferId : Nat) (isBufferComplete : Bool) :
    Nat → List TrainEntry → Nat → ChunkSystem → Option ChunkSystem
  | 0, _, _, _ => none
  | fuel + 1, pending, consumed, s =>
    let available := pending.length
    let chunkIdx := consumed / cfg.trainChunkSize
    if isBufferComplete = true ∧ 0 < available ∧ available < cfg.trainChunkSize then
      -- the tail, which ends the buffer
      some (s.emitChunk bufferId chunkIdx consumed ⟨sortByPrompt (pending.take available), true⟩)
    else if cfg.trainChunkSize ≤ available then
      let isLast := decide (cfg.readyEntriesPerBuffer ≤ consumed + cfg.trainChunkSize)
      let s := s.emitChunk bufferId chunkIdx consumed
        ⟨sortByPrompt (pending.take cfg.trainChunkSize), isLast⟩
      if isLast then some s
      else emitLoop cfg bufferId isBufferComplete fuel (pending.drop cfg.trainChunkSize)
        (consumed + cfg.trainChunkSize) s
    else some s

/-- The entries of a buffer that have not been emitted, in the order of their versions. -/
def pendingEntries (accumulated : Dict Int (List TrainEntry)) (emittedIds : Finset Nat) :
    List TrainEntry :=
  accumulated.sortedValues.filter fun entry => entry.objectId ∉ emittedIds

/-- `_emit_pending_chunks`. Every chunk takes an entry at least, so the loop ends. -/
def emitPendingChunks (cfg : ChunkConfig) (s : ChunkSystem) (bufferId : Nat) :
    Option ChunkSystem :=
  match s.trainAccumulatedBuffers.get? bufferId with
  | none => some s
  | some accumulated =>
      let ids := (s.trainChunkEmittedEntryIds.get? bufferId).getD ∅
      let pending := pendingEntries accumulated ids
      let size := (s.trainAccumulatedBufferSize.get? bufferId).getD accumulated.sortedValues.length
      emitLoop cfg bufferId (decide (cfg.readyEntriesPerBuffer ≤ size)) (pending.length + 1)
        pending ((s.trainChunkConsumed.get? bufferId).getD 0)
        { s with trainChunkEmittedEntryIds := s.trainChunkEmittedEntryIds.set bufferId ids }

/-- The second look at the resolved chunks, after the future is registered. -/
def recheck (key : Nat × Nat) (future : Nat) : ChunkSystem :=
  match s.resolvedTrainChunks.get? key with
  | none => s
  | some chunk =>
      let waiters := ((s.trainChunkWaiters.get? key).getD []).erase future
      { s with
        resolvedTrainChunks := s.resolvedTrainChunks.erase key
        trainChunkWaiters := if waiters = [] then s.trainChunkWaiters.erase key
          else s.trainChunkWaiters.set key waiters
        calls := setResult chunk s.calls future }

/-- `wait_for_training_chunk` up to its `await`. -/
def waitForTrainingChunk (key : Nat × Nat) : ChunkSystem :=
  let future := s.callCounter
  let s := { s with callCounter := future + 1, asked := Function.update s.asked key (some future) }
  match s.resolvedTrainChunks.get? key with
  | some chunk => { s with
      resolvedTrainChunks := s.resolvedTrainChunks.erase key
      calls := Function.update s.calls future (some ⟨key, some chunk⟩) }
  | none => recheck { s with
      calls := Function.update s.calls future (some ⟨key, none⟩)
      trainChunkWaiters := s.trainChunkWaiters.set key
        ((s.trainChunkWaiters.get? key).getD [] ++ [future]) } key future

inductive Action
  /-- an entry is appended, and the chunks that are ready are emitted -/
  | append (bufferId : Nat) (modelVersion : Int) (entry : TrainEntry)
  | wait (bufferId chunkIndex : Nat)
  | flush (bufferId : Nat)

def run (s : Option ChunkSystem) : Except PyError ChunkSystem :=
  match s with
  | some s => .ok s
  | none => .error (.runtimeError "out of fuel")

def exec (cfg : ChunkConfig) (s : ChunkSystem) : Action → Except PyError ChunkSystem
  | .append bufferId modelVersion entry =>
      run ((s.append bufferId modelVersion entry).emitPendingChunks cfg bufferId)
  | .wait bufferId chunkIndex => .ok (s.waitForTrainingChunk (bufferId, chunkIndex))
  | .flush bufferId => run (s.emitPendingChunks cfg bufferId)

/-- `R` entries for each buffer, each an object of its own, and one call for each index. -/
def Allowed (cfg : ChunkConfig) (s : ChunkSystem) : Action → Prop
  | .append bufferId _ entry => (s.appended bufferId).length < cfg.readyEntriesPerBuffer ∧
      entry.objectId ∉ (s.appended bufferId).map TrainEntry.objectId
  | .wait bufferId chunkIndex => chunkIndex < cfg.chunkCount ∧
      s.asked (bufferId, chunkIndex) = none
  | .flush _ => True

instance (cfg : ChunkConfig) (s : ChunkSystem) (a : Action) : Decidable (s.Allowed cfg a) := by
  cases a <;> unfold Allowed <;> infer_instance

end ChunkSystem

/-! ### One buffer -/

/-- The part of the state that belongs to one buffer. -/
structure BufferView where
  accumulated : Option (Dict Int (List TrainEntry))
  size : Option Nat
  consumed : Option Nat
  emittedIds : Option (Finset Nat)
  appended : List TrainEntry
  emitted : List Chunk

namespace BufferView

variable {cfg : ChunkConfig} {v : BufferView}

def pending (v : BufferView) : List TrainEntry :=
  ChunkSystem.pendingEntries (v.accumulated.getD .empty) (v.emittedIds.getD ∅)

/-- The entries of all chunks. -/
def delivered (v : BufferView) : List TrainEntry := v.emitted.flatMap Chunk.entries

def append (v : BufferView) (modelVersion : Int) (entry : TrainEntry) : BufferView :=
  { v with
    accumulated := some ((v.accumulated.getD .empty).append modelVersion entry)
    size := some (v.appended.length + 1)
    appended := v.appended ++ [entry] }

def emit (v : BufferView) (chunk : Chunk) : BufferView :=
  { v with
    consumed := some (v.delivered.length + chunk.entries.length)
    emittedIds := some (v.emittedIds.getD ∅ ∪ (chunk.entries.map TrainEntry.objectId).toFinset)
    emitted := v.emitted ++ [chunk] }

/-- Chunks in the middle of a buffer. -/
def FullChunks (cfg : ChunkConfig) (chunks : List Chunk) : Prop :=
  ∀ chunk ∈ chunks, chunk.entries.length = cfg.trainChunkSize ∧ chunk.isLast = false

/-- The chunks of a whole buffer: full ones, and a last one. -/
def Closed (cfg : ChunkConfig) (chunks : List Chunk) : Prop :=
  ∃ full last, chunks = full ++ [last] ∧ FullChunks cfg full ∧ last.isLast = true ∧
    0 < last.entries.length ∧ last.entries.length ≤ cfg.trainChunkSize

/-- What the bookkeeping of a buffer says: everything appended is in the chunks or pending. -/
structure Booked (v : BufferView) : Prop where
  accumulated : (v.accumulated.getD .empty).sortedValues.Perm v.appended
  size : v.accumulated.isSome → v.size = some v.appended.length
  distinct : (v.appended.map TrainEntry.objectId).Nodup
  emittedIds : v.emittedIds.getD ∅ = (v.delivered.map TrainEntry.objectId).toFinset
  consumed : v.consumed.getD 0 = v.delivered.length
  split : (v.delivered ++ v.pending).Perm v.appended

structure Inv (cfg : ChunkConfig) (v : BufferView) : Prop extends Booked v where
  bound : v.appended.length ≤ cfg.readyEntriesPerBuffer
  started : v.appended.length < cfg.readyEntriesPerBuffer →
    FullChunks cfg v.emitted ∧ v.pending.length < cfg.trainChunkSize
  finished : v.appended.length = cfg.readyEntriesPerBuffer →
    Closed cfg v.emitted ∧ v.pending = []

theorem Booked.append (h : Booked v) {entry : TrainEntry} (modelVersion : Int)
    (hfresh : entry.objectId ∉ v.appended.map TrainEntry.objectId) :
    Booked (v.append modelVersion entry) ∧
      (v.append modelVersion entry).pending.Perm (v.pending ++ [entry]) := by
  have hvalues : ((v.append modelVersion entry).accumulated.getD .empty).sortedValues.Perm
      ((v.accumulated.getD .empty).sortedValues ++ [entry]) :=
    Dict.sortedValues_append_perm _ _ _
  have hnew : entry.objectId ∉ v.emittedIds.getD ∅ := by
    rw [h.emittedIds, List.mem_toFinset]
    intro hmem
    refine hfresh ((h.split.map TrainEntry.objectId).subset ?_)
    rw [List.map_append]
    exact List.mem_append_left _ hmem
  have hpending : (v.append modelVersion entry).pending.Perm (v.pending ++ [entry]) := by
    refine (hvalues.filter _).trans (List.Perm.of_eq ?_)
    rw [List.filter_append]
    exact congrArg _ (List.filter_cons_of_pos (decide_eq_true hnew))
  refine ⟨⟨hvalues.trans (h.accumulated.append_right _), fun _ => ?_, ?_, h.emittedIds,
    h.consumed, ?_⟩, hpending⟩
  · simp [BufferView.append]
  · have hnodup : (entry.objectId :: v.appended.map TrainEntry.objectId).Nodup :=
      List.nodup_cons.mpr ⟨hfresh, h.distinct⟩
    simp only [BufferView.append, List.map_append, List.map_cons, List.map_nil]
    exact (List.perm_append_singleton _ _).nodup_iff.mpr hnodup
  · refine (hpending.append_left _).trans ?_
    rw [← List.append_assoc]
    exact h.split.append_right _

/-- Emitting everything that is pending. -/
theorem Booked.emit (h : Booked v) {chunk : Chunk} (hchunk : chunk.entries.Perm v.pending) :
    Booked (v.emit chunk) ∧ (v.emit chunk).pending = [] := by
  have hdelivered : (v.emit chunk).delivered = v.delivered ++ chunk.entries := by
    simp [delivered, BufferView.emit]
  have hids : (v.emit chunk).emittedIds.getD ∅ =
      ((v.emit chunk).delivered.map TrainEntry.objectId).toFinset := by
    rw [hdelivered, List.map_append, List.toFinset_append, ← h.emittedIds]
    rfl
  have hall : ((v.emit chunk).delivered).Perm v.appended := by
    rw [hdelivered]
    exact (hchunk.append_left _).trans h.split
  have hpending : (v.emit chunk).pending = [] := by
    unfold pending ChunkSystem.pendingEntries
    rw [hids, List.filter_eq_nil_iff]
    intro entry hmem
    have happended := h.accumulated.subset hmem
    simpa using ⟨entry, hall.symm.subset happended, rfl⟩
  refine ⟨⟨h.accumulated, h.size, h.distinct, hids, ?_, ?_⟩, hpending⟩
  · rw [hdelivered, List.length_append]
    rfl
  · rw [hpending, List.append_nil]
    exact hall

/-- The step of one append: `chunk` is what is emitted, if anything is. -/
theorem Inv.append (h : Inv cfg v) {entry : TrainEntry} (modelVersion : Int)
    (hroom : v.appended.length < cfg.readyEntriesPerBuffer)
    (hfresh : entry.objectId ∉ v.appended.map TrainEntry.objectId) :
    let v' := v.append modelVersion entry
    Booked v' ∧ v'.pending ≠ [] ∧ v'.pending.length ≤ cfg.trainChunkSize ∧
      v'.appended.length ≤ cfg.readyEntriesPerBuffer ∧ FullChunks cfg v'.emitted := by
  obtain ⟨hbooked, hpending⟩ := h.toBooked.append modelVersion hfresh
  have hlength := hpending.length_eq
  rw [List.length_append, List.length_singleton] at hlength
  have hlt := (h.started hroom).2
  refine ⟨hbooked, ?_, by omega, ?_, (h.started hroom).1⟩
  · intro hnil
    rw [hnil] at hlength
    simp at hlength
  · simp only [BufferView.append, List.length_append, List.length_singleton]
    omega

/-- A buffer that emits nothing. -/
theorem Booked.inv_of_short (h : Booked v) (hfull : FullChunks cfg v.emitted)
    (hopen : v.appended.length < cfg.readyEntriesPerBuffer)
    (hshort : v.pending.length < cfg.trainChunkSize) : Inv cfg v where
  toBooked := h
  bound := by omega
  started _ := ⟨hfull, hshort⟩
  finished heq := by omega

/-- A buffer that emits everything pending. -/
theorem Booked.inv_emit (h : Booked v) (hfull : FullChunks cfg v.emitted)
    (hbound : v.appended.length ≤ cfg.readyEntriesPerBuffer) (hpos : v.pending ≠ [])
    (hle : v.pending.length ≤ cfg.trainChunkSize) {chunk : Chunk}
    (hchunk : chunk.entries.Perm v.pending)
    (hlast : chunk.isLast = decide (v.appended.length = cfg.readyEntriesPerBuffer))
    (hsize : v.appended.length < cfg.readyEntriesPerBuffer →
      v.pending.length = cfg.trainChunkSize) : Inv cfg (v.emit chunk) := by
  obtain ⟨hbooked, hpending⟩ := h.emit hchunk
  have hlength := hchunk.length_eq
  refine ⟨hbooked, hbound, fun hopen => ⟨?_, ?_⟩, fun hclosed => ⟨?_, hpending⟩⟩
  · have hopen' : v.appended.length < cfg.readyEntriesPerBuffer := hopen
    intro chunk' hmem
    rcases List.mem_append.mp hmem with hmem | hmem
    · exact hfull chunk' hmem
    · obtain rfl := List.mem_singleton.mp hmem
      refine ⟨hlength.trans (hsize hopen'), ?_⟩
      rw [hlast, decide_eq_false (by omega)]
  · rw [hpending]
    exact cfg.chunk_pos
  · have hclosed' : v.appended.length = cfg.readyEntriesPerBuffer := hclosed
    refine ⟨v.emitted, chunk, rfl, hfull, ?_, ?_, by omega⟩
    · rw [hlast, decide_eq_true hclosed']
    · rw [hlength]
      exact List.length_pos_iff.mpr hpos

end BufferView

namespace ChunkSystem

variable {cfg : ChunkConfig} {s s' : ChunkSystem} {b : Nat}

def view (s : ChunkSystem) (b : Nat) : BufferView where
  accumulated := s.trainAccumulatedBuffers.get? b
  size := s.trainAccumulatedBufferSize.get? b
  consumed := s.trainChunkConsumed.get? b
  emittedIds := s.trainChunkEmittedEntryIds.get? b
  appended := s.appended b
  emitted := s.emitted b

/-! ### What a call does to the buffers -/

theorem deliver_frame (s : ChunkSystem) (key : Nat × Nat) (chunk : Chunk) :
    ∃ calls waiters resolved, s.deliver key chunk = { s with
      calls := calls
      trainChunkWaiters := waiters
      resolvedTrainChunks := resolved } := by
  unfold deliver
  split
  · exact ⟨_, _, _, rfl⟩
  · exact ⟨_, _, _, rfl⟩

theorem view_emitChunk (s : ChunkSystem) (b chunkIdx : Nat) (chunk : Chunk) :
    (s.emitChunk b chunkIdx (s.view b).delivered.length chunk).view b = (s.view b).emit chunk := by
  obtain ⟨calls, waiters, resolved, hdeliver⟩ := s.deliver_frame (b, chunkIdx) chunk
  unfold emitChunk
  rw [hdeliver]
  simp [view, BufferView.emit]

theorem view_emitChunk_of_ne (s : ChunkSystem) {b b' : Nat} (hne : b' ≠ b) (chunkIdx consumed : Nat)
    (chunk : Chunk) : (s.emitChunk b chunkIdx consumed chunk).view b' = s.view b' := by
  obtain ⟨calls, waiters, resolved, hdeliver⟩ := s.deliver_frame (b, chunkIdx) chunk
  unfold emitChunk
  rw [hdeliver]
  simp [view, Dict.get?_set, hne]

theorem asked_emitChunk (s : ChunkSystem) (b chunkIdx consumed : Nat) (chunk : Chunk) :
    (s.emitChunk b chunkIdx consumed chunk).asked = s.asked := by
  obtain ⟨calls, waiters, resolved, hdeliver⟩ := s.deliver_frame (b, chunkIdx) chunk
  unfold emitChunk
  rw [hdeliver]

theorem view_append (s : ChunkSystem) (hbooked : (s.view b).Booked) (modelVersion : Int)
    (entry : TrainEntry) :
    (s.append b modelVersion entry).view b = (s.view b).append modelVersion entry := by
  have hsize : (if (s.trainAccumulatedBuffers.get? b).isSome then
      (s.trainAccumulatedBufferSize.get? b).getD 0 else 0) = (s.appended b).length := by
    split
    · rename_i hsome
      have hsize : s.trainAccumulatedBufferSize.get? b = some (s.appended b).length :=
        hbooked.size hsome
      rw [hsize]
      rfl
    · rename_i hnone
      have hperm : ((s.trainAccumulatedBuffers.get? b).getD .empty).sortedValues.Perm
          (s.appended b) := hbooked.accumulated
      rw [Option.not_isSome_iff_eq_none.mp hnone] at hperm
      exact hperm.length_eq
  simp [append, view, BufferView.append, hsize]

theorem view_append_of_ne (s : ChunkSystem) {b b' : Nat} (hne : b' ≠ b) (modelVersion : Int)
    (entry : TrainEntry) : (s.append b modelVersion entry).view b' = s.view b' := by
  simp [append, view, Dict.get?_set, hne]

/-- The loop, when what is pending fits into one chunk: it emits all of it or nothing. -/
theorem emitLoop_eq (cfg : ChunkConfig) (b : Nat) (complete : Bool) {pending : List TrainEntry}
    (consumed : Nat) (s : ChunkSystem) (hle : pending.length ≤ cfg.trainChunkSize) :
    emitLoop cfg b complete (pending.length + 1) pending consumed s =
      if pending.length = cfg.trainChunkSize then
        some (s.emitChunk b (consumed / cfg.trainChunkSize) consumed ⟨sortByPrompt pending,
          decide (cfg.readyEntriesPerBuffer ≤ consumed + pending.length)⟩)
      else if complete = true ∧ pending ≠ [] then
        some (s.emitChunk b (consumed / cfg.trainChunkSize) consumed ⟨sortByPrompt pending, true⟩)
      else some s := by
  have hpos := cfg.chunk_pos
  rw [emitLoop]
  by_cases hfull : pending.length = cfg.trainChunkSize
  · rw [if_neg (by omega), if_pos (by omega), if_pos hfull, ← hfull, List.take_length,
      List.drop_length]
    dsimp only
    split
    · rfl
    · obtain ⟨fuel, hfuel⟩ : ∃ fuel, pending.length = fuel + 1 := ⟨pending.length - 1, by omega⟩
      rw [hfuel, emitLoop]
      simp only [List.length_nil]
      rw [if_neg (by omega), if_neg (by omega)]
  · have hpending : pending ≠ [] ↔ 0 < pending.length := List.length_pos_iff.symm
    rw [if_neg hfull]
    by_cases htail : complete = true ∧ pending ≠ []
    · rw [if_pos ⟨htail.1, hpending.mp htail.2, by omega⟩, if_pos htail, List.take_length]
    · rw [if_neg (fun h => htail ⟨h.1, hpending.mpr h.2.1⟩), if_neg (by omega), if_neg htail]

/-- The set of emitted entries is created where it is missing. -/
def touch (s : ChunkSystem) (b : Nat) : ChunkSystem :=
  let ids := (s.trainChunkEmittedEntryIds.get? b).getD ∅
  { s with trainChunkEmittedEntryIds := s.trainChunkEmittedEntryIds.set b ids }

theorem view_touch (s : ChunkSystem) (b : Nat) :
    (s.touch b).view b = { s.view b with emittedIds := some ((s.view b).emittedIds.getD ∅) } := by
  simp [touch, view]

theorem view_touch_of_ne (s : ChunkSystem) {b b' : Nat} (hne : b' ≠ b) :
    (s.touch b).view b' = s.view b' := by
  simp [touch, view, Dict.get?_set, hne]

theorem booked_touch (h : (s.view b).Booked) : ((s.touch b).view b).Booked := by
  rw [view_touch]
  exact ⟨h.accumulated, h.size, h.distinct, h.emittedIds, h.consumed, h.split⟩

theorem pending_touch (s : ChunkSystem) (b : Nat) :
    ((s.touch b).view b).pending = (s.view b).pending := by
  rw [view_touch]
  rfl

/-- `_emit_pending_chunks`, when what is pending fits into one chunk: it is emitted once it
fills the chunk or ends the buffer. -/
theorem emitPendingChunks_eq (h : (s.view b).Booked) (hknown : (s.view b).accumulated.isSome)
    (hle : (s.view b).pending.length ≤ cfg.trainChunkSize) :
    s.emitPendingChunks cfg b = some
      (if (s.view b).pending.length = cfg.trainChunkSize ∨
          cfg.readyEntriesPerBuffer ≤ (s.view b).appended.length ∧ (s.view b).pending ≠ [] then
        (s.touch b).emitChunk b ((s.view b).delivered.length / cfg.trainChunkSize)
          (s.view b).delivered.length ⟨sortByPrompt (s.view b).pending,
            decide (cfg.readyEntriesPerBuffer ≤ (s.view b).appended.length)⟩
      else s.touch b) := by
  obtain ⟨accumulated, hacc⟩ := Option.isSome_iff_exists.mp hknown
  have hsize : s.trainAccumulatedBufferSize.get? b = some (s.view b).appended.length :=
    h.size hknown
  have hconsumed : (s.trainChunkConsumed.get? b).getD 0 = (s.view b).delivered.length := h.consumed
  have hpending : pendingEntries accumulated ((s.trainChunkEmittedEntryIds.get? b).getD ∅) =
      (s.view b).pending := by
    unfold BufferView.pending
    rw [hacc]
    rfl
  have htotal : (s.view b).delivered.length + (s.view b).pending.length =
      (s.view b).appended.length := by
    rw [← List.length_append]
    exact h.split.length_eq
  unfold emitPendingChunks
  rw [show s.trainAccumulatedBuffers.get? b = some accumulated from hacc]
  dsimp only
  rw [hpending, hsize, hconsumed, Option.getD_some, emitLoop_eq _ _ _ _ _ hle]
  by_cases hfull : (s.view b).pending.length = cfg.trainChunkSize
  · rw [if_pos hfull, if_pos (.inl hfull), htotal]
    rfl
  · rw [if_neg hfull]
    by_cases htail : cfg.readyEntriesPerBuffer ≤ (s.view b).appended.length ∧
        (s.view b).pending ≠ []
    · rw [if_pos ⟨decide_eq_true htail.1, htail.2⟩, if_pos (.inr htail), decide_eq_true htail.1]
      rfl
    · rw [if_neg (fun hc => htail ⟨of_decide_eq_true hc.1, hc.2⟩),
        if_neg (fun hc => hc.elim hfull htail)]
      rfl

/-! ### Who waits, and what is kept -/

/-- The chunk emitted under an index. -/
def chunkAt (s : ChunkSystem) (key : Nat × Nat) : Option Chunk := (s.emitted key.1)[key.2]?

/-- Waiters, kept chunks and results, from the chunks emitted and the calls made. -/
structure Delivery (s : ChunkSystem) : Prop where
  waiters : ∀ key, s.trainChunkWaiters.get? key =
    if s.chunkAt key = none then (s.asked key).map fun k => [k] else none
  resolved : ∀ key, s.resolvedTrainChunks.get? key =
    if s.asked key = none then s.chunkAt key else none
  calls : ∀ key k, s.asked key = some k → s.calls k = some ⟨key, s.chunkAt key⟩
  counted : ∀ key k, s.asked key = some k → k < s.callCounter

theorem Delivery.init : Delivery init := by
  constructor <;> simp [ChunkSystem.init, chunkAt]

/-- Delivery depends on the chunks, the calls and the two maps only. -/
theorem Delivery.congr (h : s.Delivery) (hwaiters : s'.trainChunkWaiters = s.trainChunkWaiters)
    (hresolved : s'.resolvedTrainChunks = s.resolvedTrainChunks) (hcalls : s'.calls = s.calls)
    (hcounter : s'.callCounter = s.callCounter) (hasked : s'.asked = s.asked)
    (hemitted : s'.emitted = s.emitted) : s'.Delivery := by
  have hchunk : s'.chunkAt = s.chunkAt := by
    funext key
    simp [chunkAt, hemitted]
  constructor
  · intro key
    rw [hwaiters, hchunk, hasked]
    exact h.waiters key
  · intro key
    rw [hresolved, hchunk, hasked]
    exact h.resolved key
  · intro key k hk
    rw [hcalls, hchunk]
    exact h.calls key k (hasked ▸ hk)
  · intro key k hk
    rw [hcounter]
    exact h.counted key k (hasked ▸ hk)

theorem deliver_waiting {key : Nat × Nat} {k : Nat} {chunk : Chunk}
    (hwaiters : s.trainChunkWaiters.get? key = some [k]) (hcall : s.calls k = some ⟨key, none⟩) :
    s.deliver key chunk = { s with
      calls := Function.update s.calls k (some ⟨key, some chunk⟩)
      trainChunkWaiters := s.trainChunkWaiters.erase key
      resolvedTrainChunks := s.resolvedTrainChunks.erase key } := by
  simp [deliver, hwaiters, setResult, hcall]

/-- A chunk under a new index is delivered. -/
theorem Delivery.deliver (h : s.Delivery) {key : Nat × Nat} (hnew : s.chunkAt key = none)
    {chunk : Chunk} {emitted : Nat → List Chunk}
    (hchunk : ∀ key', (emitted key'.1)[key'.2]? =
      if key' = key then some chunk else s.chunkAt key') :
    Delivery { s.deliver key chunk with emitted := emitted } := by
  have hat : ∀ key', chunkAt { s.deliver key chunk with emitted := emitted } key' =
      if key' = key then some chunk else s.chunkAt key' := hchunk
  have hwaiters := h.waiters key
  rw [if_pos hnew] at hwaiters
  cases hasked : s.asked key with
  | none =>
      rw [hasked] at hwaiters
      have hdeliver : s.deliver key chunk =
          { s with resolvedTrainChunks := s.resolvedTrainChunks.set key chunk } := by
        simp [ChunkSystem.deliver, hwaiters]
      rw [hdeliver] at hat ⊢
      constructor
      · intro key'
        rw [hat]
        by_cases hkey : key' = key
        · simp [hkey, hwaiters]
        · simpa only [if_neg hkey] using h.waiters key'
      · intro key'
        rw [hat, Dict.get?_set]
        by_cases hkey : key' = key
        · simp [hkey, hasked]
        · simpa only [if_neg hkey] using h.resolved key'
      · intro key' k hk
        have hkey : key' ≠ key := fun heq => by simp [heq, hasked] at hk
        rw [hat, if_neg hkey]
        exact h.calls key' k hk
      · exact h.counted
  | some k =>
      rw [hasked] at hwaiters
      have hcall := h.calls key k hasked
      rw [hnew] at hcall
      rw [deliver_waiting hwaiters hcall] at hat ⊢
      constructor
      · intro key'
        rw [hat, Dict.get?_erase]
        by_cases hkey : key' = key
        · simp [hkey]
        · simpa only [if_neg hkey] using h.waiters key'
      · intro key'
        rw [hat, Dict.get?_erase]
        by_cases hkey : key' = key
        · simp [hkey, hasked]
        · simpa only [if_neg hkey] using h.resolved key'
      · intro key' k' hk'
        rw [hat]
        by_cases hkey : key' = key
        · subst hkey
          obtain rfl : k = k' := by simpa [hasked] using hk'
          simp
        · have hne : k' ≠ k := by
            rintro rfl
            have hsame := (h.calls key' k' hk').symm.trans hcall
            exact hkey (congrArg WaitCall.key (Option.some.inj hsame))
          rw [if_neg hkey]
          exact (Function.update_of_ne hne _ _).trans (h.calls key' k' hk')
      · exact h.counted

/-- The next chunk of a buffer is emitted. -/
theorem Delivery.emitChunk (h : s.Delivery) (b consumed : Nat) (chunk : Chunk) :
    (s.emitChunk b (s.emitted b).length consumed chunk).Delivery := by
  have hnew : s.chunkAt (b, (s.emitted b).length) = none := by simp [chunkAt]
  have hchunk : ∀ key : Nat × Nat,
      (Function.update s.emitted b (s.emitted b ++ [chunk]) key.1)[key.2]? =
        if key = (b, (s.emitted b).length) then some chunk else s.chunkAt key := by
    rintro ⟨b', i⟩
    by_cases hb : b' = b
    · subst hb
      rcases Nat.lt_trichotomy i (s.emitted b').length with hi | hi | hi
      · simp [chunkAt, List.getElem?_append_left hi, Nat.ne_of_lt hi]
      · simp [hi]
      · have hout : (s.emitted b' ++ [chunk]).length ≤ i := by
          rw [List.length_append, List.length_singleton]
          omega
        have hout' : (s.emitted b').length ≤ i := by omega
        simp [chunkAt, List.getElem?_eq_none hout, List.getElem?_eq_none hout',
          Nat.ne_of_gt hi]
    · simp [chunkAt, hb]
  have hdelivery := h.deliver hnew hchunk
  refine hdelivery.congr rfl rfl rfl rfl rfl ?_
  obtain ⟨calls, waiters, resolved, hdeliver⟩ := s.deliver_frame (b, (s.emitted b).length) chunk
  unfold ChunkSystem.emitChunk
  rw [hdeliver]

theorem recheck_eq {key : Nat × Nat} (hnone : s.resolvedTrainChunks.get? key = none)
    (future : Nat) : s.recheck key future = s := by
  simp [recheck, hnone]

/-- A first call for an index: it has its chunk, or waits for it. -/
theorem Delivery.ask (h : s.Delivery) {key : Nat × Nat}
    {waiters : Dict (Nat × Nat) (List Nat)} {resolved : Dict (Nat × Nat) Chunk}
    (hwaiters : ∀ key', waiters.get? key' = if key' = key then
      (if s.chunkAt key = none then some [s.callCounter] else none)
      else s.trainChunkWaiters.get? key')
    (hresolved : ∀ key', resolved.get? key' = if key' = key then none
      else s.resolvedTrainChunks.get? key') :
    Delivery { s with
      callCounter := s.callCounter + 1
      asked := Function.update s.asked key (some s.callCounter)
      calls := Function.update s.calls s.callCounter (some ⟨key, s.chunkAt key⟩)
      trainChunkWaiters := waiters
      resolvedTrainChunks := resolved } := by
  refine ⟨fun key' => ?_, fun key' => ?_, fun key' k hk => ?_, fun key' k hk => ?_⟩
  · show waiters.get? key' = if s.chunkAt key' = none then _ else none
    rw [hwaiters]
    by_cases hkey : key' = key
    · simp [hkey]
    · simpa [hkey] using h.waiters key'
  · show resolved.get? key' = if _ then s.chunkAt key' else none
    rw [hresolved]
    by_cases hkey : key' = key
    · simp [hkey]
    · simpa [hkey] using h.resolved key'
  · show Function.update s.calls s.callCounter _ k = some ⟨key', s.chunkAt key'⟩
    by_cases hkey : key' = key
    · subst hkey
      obtain rfl : s.callCounter = k := by simpa using hk
      simp
    · have hk' : s.asked key' = some k := by simpa [hkey] using hk
      rw [Function.update_of_ne (Nat.ne_of_lt (h.counted key' k hk'))]
      exact h.calls key' k hk'
  · show k < s.callCounter + 1
    by_cases hkey : key' = key
    · subst hkey
      obtain rfl : s.callCounter = k := by simpa using hk
      omega
    · have hk' : s.asked key' = some k := by simpa [hkey] using hk
      exact Nat.lt_succ_of_lt (h.counted key' k hk')

theorem Delivery.wait (h : s.Delivery) {key : Nat × Nat} (hasked : s.asked key = none) :
    (s.waitForTrainingChunk key).Delivery := by
  have hresolved := h.resolved key
  rw [if_pos hasked] at hresolved
  have hwaiters : s.trainChunkWaiters.get? key = none := by simp [h.waiters key, hasked]
  unfold waitForTrainingChunk
  dsimp only
  rw [hresolved]
  cases hchunk : s.chunkAt key with
  | some chunk =>
      dsimp only
      rw [← hchunk]
      refine h.ask (fun key' => ?_) fun key' => Dict.get?_erase _ _ _
      by_cases hkey : key' = key
      · simp [hkey, hwaiters, hchunk]
      · simp [hkey]
  | none =>
      dsimp only
      rw [recheck_eq (by simpa [hchunk] using hresolved), ← hchunk]
      refine h.ask (fun key' => ?_) fun key' => ?_
      · by_cases hkey : key' = key
        · simp [hkey, hwaiters, hchunk]
        · simp [hkey, Dict.get?_set]
      · by_cases hkey : key' = key
        · simp [hkey, hresolved, hchunk]
        · simp [hkey]

theorem view_wait (s : ChunkSystem) (key : Nat × Nat) (b : Nat) :
    (s.waitForTrainingChunk key).view b = s.view b := by
  unfold waitForTrainingChunk
  dsimp only
  split
  · rfl
  · unfold recheck
    split <;> rfl

/-! ### Runs -/

structure Inv (cfg : ChunkConfig) (s : ChunkSystem) : Prop where
  buffers : ∀ b, (s.view b).Inv cfg
  delivery : s.Delivery
  indices : ∀ key k, s.asked key = some k → key.2 < cfg.chunkCount

theorem Inv.init (cfg : ChunkConfig) : Inv cfg init where
  buffers b := {
    accumulated := .refl _
    size := by simp [view, ChunkSystem.init]
    distinct := List.nodup_nil
    emittedIds := rfl
    consumed := rfl
    split := .refl _
    bound := Nat.zero_le _
    started := fun _ => ⟨by simp [BufferView.FullChunks, view, ChunkSystem.init], cfg.chunk_pos⟩
    finished := fun heq => absurd heq (Nat.ne_of_lt cfg.ready_pos) }
  delivery := .init
  indices := by simp [ChunkSystem.init]

theorem sortByPrompt_perm (entries : List TrainEntry) : (sortByPrompt entries).Perm entries :=
  List.perm_insertionSort _ _

/-- Full chunks have used up a multiple of the chunk size. -/
theorem delivered_length {v : BufferView} (hfull : BufferView.FullChunks cfg v.emitted) :
    v.delivered.length = v.emitted.length * cfg.trainChunkSize := by
  unfold BufferView.delivered
  rw [List.length_flatMap]
  have hall : v.emitted.map (fun chunk => chunk.entries.length) =
      v.emitted.map fun _ => cfg.trainChunkSize :=
    List.map_congr_left fun chunk hmem => (hfull chunk hmem).1
  rw [hall]
  simp

/-- A buffer that has just got an entry, or is flushed, emits what is ready. -/
theorem emitPendingChunks_inv (hothers : ∀ b', b' ≠ b → (s.view b').Inv cfg)
    (hdelivery : s.Delivery) (hindices : ∀ key k, s.asked key = some k → key.2 < cfg.chunkCount)
    (hbooked : (s.view b).Booked) (hknown : (s.view b).accumulated.isSome)
    (hfull : BufferView.FullChunks cfg (s.view b).emitted)
    (hle : (s.view b).pending.length ≤ cfg.trainChunkSize) (hpos : (s.view b).pending ≠ [])
    (hbound : (s.view b).appended.length ≤ cfg.readyEntriesPerBuffer) :
    ∃ s', s.emitPendingChunks cfg b = some s' ∧ Inv cfg s' := by
  refine ⟨_, emitPendingChunks_eq hbooked hknown hle, ?_⟩
  have htouched := booked_touch hbooked
  split
  · rename_i hready
    have hindex : (s.view b).delivered.length / cfg.trainChunkSize = (s.emitted b).length := by
      rw [delivered_length hfull]
      exact Nat.mul_div_cancel _ cfg.chunk_pos
    have hview := view_emitChunk (s.touch b) b (s.emitted b).length
      ⟨sortByPrompt (s.view b).pending,
        decide (cfg.readyEntriesPerBuffer ≤ (s.view b).appended.length)⟩
    rw [hindex]
    refine ⟨fun b' => ?_, ?_, ?_⟩
    · by_cases hb : b' = b
      · subst hb
        have hdelivered : ((s.touch b').view b').delivered.length =
            (s.view b').delivered.length := by rw [view_touch]; rfl
        rw [hdelivered] at hview
        rw [hview]
        refine htouched.inv_emit ?_ ?_ ?_ ?_ ?_ ?_ ?_
        · rw [view_touch]; exact hfull
        · rw [view_touch]; exact hbound
        · rw [pending_touch]; exact hpos
        · rw [pending_touch]; exact hle
        · rw [pending_touch]; exact sortByPrompt_perm _
        · rw [view_touch]
          exact decide_eq_decide.mpr ⟨fun hge => Nat.le_antisymm hbound hge, fun heq => heq.ge⟩
        · rw [view_touch, ← view_touch, pending_touch]
          intro hopen
          exact hready.resolve_right fun hc => absurd hopen (Nat.not_lt.mpr hc.1)
      · rw [view_emitChunk_of_ne _ hb, view_touch_of_ne _ hb]
        exact hothers b' hb
    · exact (hdelivery.congr rfl rfl rfl rfl rfl rfl : (s.touch b).Delivery).emitChunk b _ _
    · rw [asked_emitChunk]
      exact hindices
  · rename_i hready
    rw [not_or, not_and_or, not_not] at hready
    have hopen : (s.view b).appended.length < cfg.readyEntriesPerBuffer :=
      Nat.not_le.mp (hready.2.resolve_right hpos)
    refine ⟨fun b' => ?_, hdelivery.congr rfl rfl rfl rfl rfl rfl, hindices⟩
    by_cases hb : b' = b
    · subst hb
      refine htouched.inv_of_short ?_ ?_ ?_
      · rw [view_touch]; exact hfull
      · rw [view_touch]; exact hopen
      · rw [pending_touch]
        exact Nat.lt_of_le_of_ne hle hready.1
    · rw [view_touch_of_ne _ hb]
      exact hothers b' hb

theorem Inv.append (h : Inv cfg s) {entry : TrainEntry} (modelVersion : Int)
    (hroom : (s.appended b).length < cfg.readyEntriesPerBuffer)
    (hfresh : entry.objectId ∉ (s.appended b).map TrainEntry.objectId) :
    ∃ s', (s.append b modelVersion entry).emitPendingChunks cfg b = some s' ∧ Inv cfg s' := by
  have hview := view_append s (h.buffers b).toBooked modelVersion entry
  obtain ⟨hbooked, hpos, hle, hbound, hfull⟩ := (h.buffers b).append modelVersion hroom hfresh
  rw [← hview] at hbooked hpos hle hbound hfull
  refine emitPendingChunks_inv (fun b' hb => ?_) (h.delivery.congr rfl rfl rfl rfl rfl rfl)
    h.indices hbooked ?_ hfull hle hpos hbound
  · rw [view_append_of_ne s hb]
    exact h.buffers b'
  · rw [hview]
    rfl

/-- Between two appends there is nothing to emit. -/
theorem Inv.flush (h : Inv cfg s) (b : Nat) :
    ∃ s', s.emitPendingChunks cfg b = some s' ∧ Inv cfg s' := by
  have hbuffer := h.buffers b
  cases hknown : s.trainAccumulatedBuffers.get? b with
  | none => exact ⟨s, by simp [emitPendingChunks, hknown], h⟩
  | some accumulated =>
      have hquiet : (s.view b).pending.length < cfg.trainChunkSize ∧
          ¬ (cfg.readyEntriesPerBuffer ≤ (s.view b).appended.length ∧
            (s.view b).pending ≠ []) := by
        rcases Nat.lt_or_eq_of_le hbuffer.bound with hopen | hclosed
        · exact ⟨(hbuffer.started hopen).2, fun hc => absurd hopen (Nat.not_lt.mpr hc.1)⟩
        · have hnil := (hbuffer.finished hclosed).2
          rw [hnil]
          exact ⟨cfg.chunk_pos, fun hc => hc.2 rfl⟩
      have hsome : (s.view b).accumulated.isSome := by simp [view, hknown]
      refine ⟨s.touch b, ?_, fun b' => ?_, h.delivery.congr rfl rfl rfl rfl rfl rfl, h.indices⟩
      · rw [emitPendingChunks_eq hbuffer.toBooked hsome (Nat.le_of_lt hquiet.1), if_neg]
        exact fun hc => hc.elim (Nat.ne_of_lt hquiet.1) hquiet.2
      · by_cases hb : b' = b
        · subst hb
          have htouched := booked_touch hbuffer.toBooked
          rw [view_touch] at htouched ⊢
          exact { htouched with
            bound := hbuffer.bound, started := hbuffer.started, finished := hbuffer.finished }
        · rw [view_touch_of_ne _ hb]
          exact h.buffers b'

theorem Inv.wait (h : Inv cfg s) {i : Nat} (hi : i < cfg.chunkCount)
    (hasked : s.asked (b, i) = none) : Inv cfg (s.waitForTrainingChunk (b, i)) := by
  refine ⟨fun b' => ?_, h.delivery.wait hasked, fun key k hk => ?_⟩
  · rw [view_wait]
    exact h.buffers b'
  · have hasked' : (s.waitForTrainingChunk (b, i)).asked =
        Function.update s.asked (b, i) (some s.callCounter) := by
      unfold waitForTrainingChunk
      dsimp only
      split
      · rfl
      · unfold recheck
        split <;> rfl
    rw [hasked'] at hk
    by_cases hkey : key = (b, i)
    · rw [hkey]
      exact hi
    · rw [Function.update_of_ne hkey] at hk
      exact h.indices key k hk

theorem Inv.exec (h : Inv cfg s) {a : Action} (hallowed : s.Allowed cfg a) :
    ∃ s', s.exec cfg a = .ok s' ∧ Inv cfg s' := by
  cases a with
  | append b modelVersion entry =>
      obtain ⟨s', hemit, hinv⟩ := h.append modelVersion hallowed.1 hallowed.2
      exact ⟨s', by simp only [ChunkSystem.exec, hemit, run], hinv⟩
  | wait b i => exact ⟨_, rfl, h.wait hallowed.1 hallowed.2⟩
  | flush b =>
      obtain ⟨s', hemit, hinv⟩ := h.flush b
      exact ⟨s', by simp only [ChunkSystem.exec, hemit, run], hinv⟩

end ChunkSystem

end Psrl
