import Psrl.Lib.Multimap
import Psrl.Lib.Run
import Psrl.Nixl.Sharding

/-!
# Psrl.Nixl.PinnedSlots

Reads into pinned slots (`client_read` and `wait` of `utils/nixl/client.py`).

A shard that is not contiguous is read into a contiguous slot first and copied to its tensor
afterwards. There are only some slots for each shape and dtype, so `client_read` waits for the last
transfer into the slot, and for its copy, before it posts the next one. What it waits for is
found in three maps: the last transfer of a slot, the handles of transfers that were not waited
for, and the CUDA event of the last copy of a shard.

The network finishes transfers and the CUDA stream executes copies at any time; a client that polls
a handle or synchronizes an event stays where it is until then. All calls are those of one pull,
with one tag.
-/

namespace Psrl

open Py

/-! ### Slots -/

/-- Shape and dtype of a shard. -/
structure SlotForm where
  shape : List Nat
  dtype : String
  deriving Repr, DecidableEq

/-- `(shape, dtype, pinned_idx)`. -/
structure Slot where
  form : SlotForm
  pinnedIdx : Nat
  deriving Repr, DecidableEq

/-- `(key, shard_idx)`. -/
abbrev ShardRef := String × ShardIndex

/-- A shard of a local tensor, as it is registered. -/
structure LocalShard where
  shard : ShardIndex
  form : SlotForm
  isContiguous : Bool

/-- The registered tensors of a client with pinned slots. -/
structure PullClient where
  clientName : String
  maxPinnedTempMemorySlots : Nat
  slots_pos : 0 < maxPinnedTempMemorySlots
  tensors : Dict String (List LocalShard)

/-- A READ of a shard from a target (`make_xfer_tag`, for one tag and client). -/
structure Xfer where
  target : String
  ref : ShardRef
  deriving Repr, DecidableEq

namespace PullClient

variable (client : PullClient)

/-- The info of a local shard. -/
def localShard (ref : ShardRef) : Option LocalShard :=
  (client.tensors.get? ref.1).bind fun shards => shards.find? fun s => s.shard = ref.2

/-- The shards of one tensor in `_uncontiguous_tensor_mapping`. -/
def addUncontiguous (mapping : Dict SlotForm (List ShardRef)) (item : String × List LocalShard) :
    Dict SlotForm (List ShardRef) :=
  item.2.foldl (fun mapping s =>
    if s.isContiguous then mapping else mapping.append s.form (item.1, s.shard)) mapping

/-- `_uncontiguous_tensor_mapping`. -/
def uncontiguousTensorMapping : Dict SlotForm (List ShardRef) :=
  client.tensors.items.foldl addUncontiguous .empty

/-- `_temp_pinned_idx_mapping`: round robin over the slots of a shape and dtype. -/
def tempPinnedIdxMapping : Dict ShardRef Nat :=
  client.uncontiguousTensorMapping.items.foldl (fun mapping item =>
    item.2.zipIdx.foldl (fun mapping entry =>
      mapping.set entry.1 (entry.2 % client.maxPinnedTempMemorySlots)) mapping) .empty

/-- The slot of a shard that is not contiguous. -/
def slot (ref : ShardRef) : Option Slot :=
  (client.localShard ref).bind fun s =>
    if s.isContiguous then none
    else (client.tempPinnedIdxMapping.get? ref).map fun idx => ⟨s.form, idx⟩

/-- `shard_indices` of a tensor. -/
def shardIndices (key : String) : List ShardIndex :=
  ((client.tensors.get? key).getD []).map LocalShard.shard

end PullClient

/-! ### The life of a slot -/

inductive SlotEvent
  | posted (xfer : Xfer)
  | landed (xfer : Xfer)
  | copied (xfer : Xfer)
  deriving Repr, DecidableEq

/-- What a slot is used for: nothing, a transfer in flight, or data that is not copied yet. -/
inductive SlotPhase
  | free
  | receiving (xfer : Xfer)
  | received (xfer : Xfer)
  deriving Repr, DecidableEq

/-- A slot receives one transfer at a time, and the next one after its data was copied. -/
def SlotPhase.next : SlotPhase → SlotEvent → Option SlotPhase
  | .free, .posted xfer => some (.receiving xfer)
  | .receiving xfer, .landed xfer' => if xfer = xfer' then some (.received xfer) else none
  | .received xfer, .copied xfer' => if xfer = xfer' then some .free else none
  | _, _ => none

/-- The phase of a slot after its events in a log, `none` if they are out of order. -/
def slotPhase (slot : Slot) (log : List (Slot × SlotEvent)) : Option SlotPhase :=
  (log.filter fun entry => entry.1 = slot).foldlM (fun phase entry => phase.next entry.2) .free

/-! ### The client -/

inductive XferState
  | proc
  | done
  deriving Repr, DecidableEq

/-- What is left of a call. -/
inductive SlotPullOp
  | transfer (xfer : Xfer)
  | await (xfer : Xfer)
  deriving Repr, DecidableEq

/-- The client during a pull. An event is the number of copies up to the one it was recorded after.
Memory that is being written has no value. The last four fields are the history: the events of the
slots, the reads no call has waited for since, the transfers, and the last one of each shard. -/
structure SlotPull (α : Type) where
  xferHandles : Dict Xfer XferState
  runningRead : Dict Slot Xfer
  eventCache : Dict ShardRef Nat
  /-- Copies on the CUDA stream. -/
  stream : List Xfer
  copied : Nat
  slotData : Slot → Option α
  original : ShardRef → Option α
  /-- A shard whose transfer is about to be posted, with the last transfer of its slot. -/
  claiming : Option (Xfer × Option Xfer)
  todo : List SlotPullOp
  log : List (Slot × SlotEvent)
  outstanding : List (String × String)
  posted : List Xfer
  latest : ShardRef → Option Xfer

namespace SlotPull

variable {α : Type} (client : PullClient) (s : SlotPull α)

def init : SlotPull α :=
  ⟨.empty, .empty, .empty, [], 0, fun _ => none, fun _ => none, none, [], [], [], [],
    fun _ => none⟩

/-- No call is running. -/
def idle : Prop := s.claiming = none ∧ s.todo = []

instance (s : SlotPull α) : Decidable s.idle := inferInstanceAs (Decidable (_ ∧ _))

/-- The end of a wait for a transfer that is done: the copy from the slot, its event, and
`xfer_handles.pop`. -/
def complete (xfer : Xfer) : SlotPull α :=
  match client.slot xfer.ref with
  | some _ => { s with
      stream := s.stream ++ [xfer]
      eventCache := s.eventCache.set xfer.ref (s.copied + s.stream.length + 1)
      xferHandles := s.xferHandles.erase xfer }
  | none => { s with xferHandles := s.xferHandles.erase xfer }

/-- `initialize_xfer` and `transfer`. -/
def post (xfer : Xfer) : SlotPull α :=
  match client.slot xfer.ref with
  | some slot => { s with
      runningRead := s.runningRead.set slot xfer
      xferHandles := s.xferHandles.set xfer .proc
      slotData := Function.update s.slotData slot none
      posted := s.posted ++ [xfer]
      latest := Function.update s.latest xfer.ref (some xfer)
      log := s.log ++ [(slot, .posted xfer)]
      claiming := none }
  | none => { s with
      xferHandles := s.xferHandles.set xfer .proc
      original := Function.update s.original xfer.ref none
      posted := s.posted ++ [xfer]
      latest := Function.update s.latest xfer.ref (some xfer)
      claiming := none }

/-- The body of the loop of `client_read` up to the wait for the slot. -/
def claim (xfer : Xfer) : Except PyError (SlotPull α) :=
  match client.localShard xfer.ref with
  | none =>
      let (key, shard) := (xfer.ref.1, tupleText xfer.ref.2)
      .error (.assertionError s!"Shard {shard} not found in local or remote shards for key {key}")
  | some info =>
      if info.isContiguous then .ok { s with claiming := some (xfer, none) }
      else do
        let pinnedIdx ← client.tempPinnedIdxMapping.get xfer.ref
        return { s with claiming := some (xfer, s.runningRead.get? ⟨info.form, pinnedIdx⟩) }

/-- What is raised when the copy of the last transfer of the slot has no event. -/
def notInEventCache (client : PullClient) (xfer last : Xfer) : PyError :=
  let (key, shard) := (xfer.ref.1, tupleText xfer.ref.2)
  let (lastKey, lastShard) := (last.ref.1, tupleText last.ref.2)
  .runtimeError (s!"{client.clientName} creating client READ transfer to {xfer.target} failed for "
    ++ s!"key {key} shard {shard}: Running key {lastKey} shard {lastShard} "
    ++ "not found in contiguous event cache")

/-- The rest of the body: the wait for the last transfer of the slot, the event of its copy, and
the transfer. -/
def claimed (xfer : Xfer) (running : Option Xfer) : Except PyError (SlotPull α) :=
  match running with
  | none => .ok (s.post client xfer)
  | some last =>
      match s.xferHandles.get? last with
      | some .proc => .ok s
      | some .done => .ok (s.complete client last)
      | none =>
          match s.eventCache.get? last.ref with
          | none => .error (notInEventCache client xfer last)
          | some event =>
              if s.copied < event then .ok s
              else .ok ({ s with eventCache := s.eventCache.erase last.ref }.post client xfer)

/-- The next poll or step of a call. -/
def stepCall : Except PyError (SlotPull α) :=
  match s.claiming, s.todo with
  | some (xfer, running), _ => s.claimed client xfer running
  | none, [] => .ok s
  | none, .transfer xfer :: todo => { s with todo := todo }.claim client xfer
  | none, .await xfer :: todo =>
      match s.xferHandles.get? xfer with
      | none => .ok { s with todo := todo }
      | some .proc => .ok s
      | some .done => .ok ({ s with todo := todo }.complete client xfer)

/-- `client_read`, for the shards that are to be transferred. -/
def clientRead (target key : String) (shardsToTransfer : List ShardIndex) : SlotPull α :=
  { s with todo := shardsToTransfer.map fun shard => .transfer ⟨target, (key, shard)⟩ }

/-- `wait`, for one shard or for all shards of a tensor. -/
def wait (key target : String) (shardIdx : Option ShardIndex) : SlotPull α :=
  match shardIdx with
  | some shard => { s with todo := [.await ⟨target, (key, shard)⟩] }
  | none => { s with
      todo := (client.shardIndices key).map fun shard => .await ⟨target, (key, shard)⟩ }

/-- The data of a transfer arrives. -/
def finish (client : PullClient) (remote : Xfer → α) (s : SlotPull α) (xfer : Xfer) :
    SlotPull α :=
  if s.xferHandles.get? xfer = some .proc then
    match client.slot xfer.ref with
    | some slot => { s with
        xferHandles := s.xferHandles.set xfer .done
        slotData := Function.update s.slotData slot (some (remote xfer))
        log := s.log ++ [(slot, .landed xfer)] }
    | none => { s with
        xferHandles := s.xferHandles.set xfer .done
        original := Function.update s.original xfer.ref (some (remote xfer)) }
  else s

/-- The stream executes its next copy. -/
def copy : SlotPull α :=
  match s.stream with
  | [] => s
  | xfer :: stream =>
      match client.slot xfer.ref with
      | some slot => { s with
          stream := stream
          copied := s.copied + 1
          original := Function.update s.original xfer.ref (s.slotData slot)
          log := s.log ++ [(slot, .copied xfer)] }
      | none => { s with stream := stream, copied := s.copied + 1 }

/-! ### Runs -/

inductive Action
  | read (target key : String) (shardsToTransfer : List ShardIndex)
  | wait (key target : String) (shardIdx : Option ShardIndex)
  | stepCall
  | finish (xfer : Xfer)
  | copy
  deriving Repr, DecidableEq

/-- A read is outstanding until the next call that waits for all shards of its tensor. -/
def recordWait (key target : String) (shardIdx : Option ShardIndex) : SlotPull α :=
  match shardIdx with
  | some _ => s
  | none => { s with outstanding := s.outstanding.filter (· ≠ (key, target)) }

def exec (client : PullClient) (remote : Xfer → α) (s : SlotPull α) :
    Action → Except PyError (SlotPull α)
  | .read target key shards =>
      .ok ({ s with outstanding := s.outstanding ++ [(key, target)] }.clientRead target key shards)
  | .wait key target shardIdx =>
      .ok ((s.recordWait key target shardIdx).wait client key target shardIdx)
  | .stepCall => s.stepCall client
  | .finish xfer => .ok (s.finish client remote xfer)
  | .copy => .ok (s.copy client)

/-- Calls are made one after the other, and read registered shards. -/
def Allowed : Action → Prop
  | .read _ key shards => s.idle ∧ ∀ shard ∈ shards, (client.localShard (key, shard)).isSome
  | .wait _ _ _ => s.idle
  | _ => True

instance (client : PullClient) (s : SlotPull α) : ∀ a, Decidable (s.Allowed client a)
  | .read _ _ _ => inferInstanceAs (Decidable (_ ∧ _))
  | .wait _ _ _ => inferInstanceAs (Decidable s.idle)
  | .stepCall => inferInstanceAs (Decidable True)
  | .finish _ => inferInstanceAs (Decidable True)
  | .copy => inferInstanceAs (Decidable True)

end SlotPull

/-! ### Every shard that is not contiguous has a slot -/

namespace PullClient

theorem listed_addUncontiguous {key : String} {form : SlotForm} {ref : ShardRef} :
    ∀ {shards : List LocalShard} {mapping : Dict SlotForm (List ShardRef)},
      (addUncontiguous mapping (key, shards)).Listed form ref ↔ mapping.Listed form ref ∨
        ∃ s ∈ shards, s.isContiguous = false ∧ form = s.form ∧ ref = (key, s.shard)
  | [], mapping => by simp [addUncontiguous]
  | s :: shards, mapping => by
      have hcons : addUncontiguous mapping (key, s :: shards) = addUncontiguous
          (if s.isContiguous then mapping else mapping.append s.form (key, s.shard))
          (key, shards) := rfl
      rw [hcons, listed_addUncontiguous]
      cases hs : s.isContiguous with
      | true => simp [hs]
      | false =>
          rw [if_neg Bool.false_ne_true, Dict.listed_append_iff]
          simp only [List.exists_mem_cons_iff, hs]
          tauto

theorem listed_uncontiguous {form : SlotForm} {ref : ShardRef} :
    ∀ {items : List (String × List LocalShard)} {mapping : Dict SlotForm (List ShardRef)},
      (items.foldl addUncontiguous mapping).Listed form ref ↔ mapping.Listed form ref ∨
        ∃ item ∈ items, ∃ s ∈ item.2, s.isContiguous = false ∧ form = s.form ∧
          ref = (item.1, s.shard)
  | [], mapping => by simp
  | (key, shards) :: items, mapping => by
      rw [List.foldl_cons, listed_uncontiguous, listed_addUncontiguous, or_assoc]
      simp only [List.exists_mem_cons_iff]

variable {client : PullClient} {ref : ShardRef}

theorem localShard_eq_some {info : LocalShard} (h : client.localShard ref = some info) :
    ∃ shards, client.tensors.get? ref.1 = some shards ∧ info ∈ shards ∧ info.shard = ref.2 := by
  obtain ⟨shards, hget, hfind⟩ := Option.bind_eq_some_iff.mp h
  exact ⟨shards, hget, List.mem_of_find?_eq_some hfind, by simpa using List.find?_some hfind⟩

theorem exists_pinnedIdx {info : LocalShard} (h : client.localShard ref = some info)
    (hnot : info.isContiguous = false) :
    ∃ idx, client.tempPinnedIdxMapping.get? ref = some idx := by
  obtain ⟨shards, hget, hinfo, hshard⟩ := localShard_eq_some h
  have hlisted : client.uncontiguousTensorMapping.Listed info.form ref :=
    listed_uncontiguous.mpr (.inr ⟨_, Dict.get?_eq_some_iff.mp hget, info, hinfo, hnot, rfl,
      by rw [hshard]⟩)
  obtain ⟨refs, hrefs, hmem⟩ := hlisted
  rw [← Option.ne_none_iff_exists']
  -- once the group of the shard is reached its index is set, and it is never removed
  have hgroup : ∀ (entries : List (ShardRef × Nat)) (mapping : Dict ShardRef Nat),
      (mapping.get? ref ≠ none ∨ ref ∈ entries.map Prod.fst) →
      (entries.foldl (fun mapping entry =>
        mapping.set entry.1 (entry.2 % client.maxPinnedTempMemorySlots)) mapping).get? ref ≠
          none := by
    intro entries
    induction entries with
    | nil => simp
    | cons entry entries ih =>
        intro mapping hor
        refine ih _ ?_
        rw [List.map_cons, List.mem_cons, ← or_assoc] at hor
        exact hor.imp_left fun hor => Dict.get?_set_ne_none hor.symm
  have hall : ∀ (items : List (SlotForm × List ShardRef)) (mapping : Dict ShardRef Nat),
      (mapping.get? ref ≠ none ∨ ∃ item ∈ items, ref ∈ item.2) →
      (items.foldl (fun mapping item => item.2.zipIdx.foldl (fun mapping entry =>
        mapping.set entry.1 (entry.2 % client.maxPinnedTempMemorySlots)) mapping) mapping).get?
          ref ≠ none := by
    intro items
    induction items with
    | nil => simp
    | cons item items ih =>
        intro mapping hor
        refine ih _ ?_
        rw [List.exists_mem_cons_iff, ← or_assoc] at hor
        refine hor.imp_left fun hor => hgroup _ _ ?_
        rwa [List.zipIdx_map_fst]
  exact hall _ _ (.inr ⟨_, Dict.get?_eq_some_iff.mp hrefs, hmem⟩)

theorem slot_eq {info : LocalShard} (h : client.localShard ref = some info) :
    if info.isContiguous then client.slot ref = none
    else ∃ idx, client.tempPinnedIdxMapping.get? ref = some idx ∧
      client.slot ref = some ⟨info.form, idx⟩ := by
  unfold slot
  rw [h, Option.bind_some]
  cases hinfo : info.isContiguous with
  | true => simp
  | false =>
      obtain ⟨idx, hidx⟩ := exists_pinnedIdx h hinfo
      simp [hidx]

theorem mem_shardIndices {key : String} {shard : ShardIndex}
    (h : (client.localShard (key, shard)).isSome) : shard ∈ client.shardIndices key := by
  obtain ⟨info, hinfo⟩ := Option.isSome_iff_exists.mp h
  obtain ⟨shards, hget, hmem, hshard⟩ := localShard_eq_some hinfo
  rw [shardIndices, hget, Option.getD_some]
  exact List.mem_map.mpr ⟨info, hmem, hshard⟩

end PullClient

/-! ### What holds of a slot -/

theorem slotPhase_append (slot slot' : Slot) (log : List (Slot × SlotEvent)) (event : SlotEvent) :
    slotPhase slot (log ++ [(slot', event)]) =
      if slot' = slot then (slotPhase slot log).bind (·.next event) else slotPhase slot log := by
  unfold slotPhase
  rw [List.filter_append]
  split
  · rename_i h
    rw [List.filter_cons_of_pos (by simpa using h), List.foldlM_append]
    simp
  · rename_i h
    rw [List.filter_cons_of_neg (by simpa using h)]
    simp

namespace SlotPull

variable {α : Type} {client : PullClient} {remote : Xfer → α} {s s' : SlotPull α} {slot : Slot}
  {xfer : Xfer} {phase : SlotPhase}

/-- The copies of a slot among those of a stream, each with the number its event has. -/
def copiesOf (client : PullClient) (slot : Slot) (stream : List Xfer) (copied : Nat) :
    List (Xfer × Nat) :=
  (stream.zipIdx (copied + 1)).filter fun entry => client.slot entry.1.ref = some slot

/-- The copies of a slot that are on the stream. -/
def pending (client : PullClient) (s : SlotPull α) (slot : Slot) : List (Xfer × Nat) :=
  copiesOf client slot s.stream s.copied

/-- The handles of a slot are those of one transfer, or none. -/
def HandleOf (client : PullClient) (s : SlotPull α) (slot : Slot)
    (only : Option (Xfer × XferState)) :
    Prop :=
  ∀ x, client.slot x.ref = some slot → ∀ state, s.xferHandles.get? x = some state ↔
    only = some (x, state)

/-- The maps agree with what a slot is used for. -/
inductive Kept (client : PullClient) (remote : Xfer → α) (s : SlotPull α) (slot : Slot) :
    SlotPhase → Prop
  | free (hhandle : HandleOf client s slot none) (hpending : s.pending client slot = [])
      (hevent : ∀ x, s.runningRead.get? slot = some x →
        ∃ event, s.eventCache.get? x.ref = some event ∧ event ≤ s.copied) :
      Kept client remote s slot .free
  | receiving (x : Xfer) (hrunning : s.runningRead.get? slot = some x)
      (hhandle : HandleOf client s slot (some (x, .proc))) (hpending : s.pending client slot = []) :
      Kept client remote s slot (.receiving x)
  | done (x : Xfer) (hrunning : s.runningRead.get? slot = some x)
      (hhandle : HandleOf client s slot (some (x, .done))) (hpending : s.pending client slot = [])
      (hdata : s.slotData slot = some (remote x)) : Kept client remote s slot (.received x)
  | copying (x : Xfer) (event : Nat) (hrunning : s.runningRead.get? slot = some x)
      (hhandle : HandleOf client s slot none) (hpending : s.pending client slot = [(x, event)])
      (hevent : s.eventCache.get? x.ref = some event) (hdata : s.slotData slot = some (remote x)) :
      Kept client remote s slot (.received x)

/-- A slot that a step has nothing to do with. -/
structure SameSlot (client : PullClient) (s s' : SlotPull α) (slot : Slot) : Prop where
  running : s'.runningRead.get? slot = s.runningRead.get? slot
  handles : ∀ x, client.slot x.ref = some slot → s'.xferHandles.get? x = s.xferHandles.get? x
  pending : s'.pending client slot = s.pending client slot
  events : ∀ ref, client.slot ref = some slot → s'.eventCache.get? ref = s.eventCache.get? ref
  data : s'.slotData slot = s.slotData slot
  copied : s.copied ≤ s'.copied

theorem HandleOf.congr {only : Option (Xfer × XferState)} (h : HandleOf client s slot only)
    (hsame : ∀ x, client.slot x.ref = some slot → s'.xferHandles.get? x = s.xferHandles.get? x) :
    HandleOf client s' slot only := by
  grind [HandleOf]

theorem Kept.congr (h : Kept client remote s slot phase) (hsame : SameSlot client s s' slot)
    (hrunning : ∀ x, s.runningRead.get? slot = some x → client.slot x.ref = some slot) :
    Kept client remote s' slot phase := by
  cases h with
  | free hhandle hpending hevent =>
      refine .free (hhandle.congr hsame.handles) (hsame.pending.trans hpending) fun x hx => ?_
      rw [hsame.running] at hx
      obtain ⟨event, hget, hle⟩ := hevent x hx
      exact ⟨event, (hsame.events _ (hrunning x hx)).trans hget, hle.trans hsame.copied⟩
  | receiving x hx hhandle hpending =>
      exact .receiving x (hsame.running.trans hx) (hhandle.congr hsame.handles)
        (hsame.pending.trans hpending)
  | done x hx hhandle hpending hdata =>
      exact .done x (hsame.running.trans hx) (hhandle.congr hsame.handles)
        (hsame.pending.trans hpending) (hsame.data.trans hdata)
  | copying x event hx hhandle hpending hevent hdata =>
      exact .copying x event (hsame.running.trans hx) (hhandle.congr hsame.handles)
        (hsame.pending.trans hpending) ((hsame.events _ (hrunning x hx)).trans hevent)
        (hsame.data.trans hdata)

/-- The maps, the memory and the history agree. -/
structure Inv (client : PullClient) (remote : Xfer → α) (s : SlotPull α) : Prop where
  running : ∀ slot x, s.runningRead.get? slot = some x → client.slot x.ref = some slot
  slots : ∀ slot, ∃ phase, slotPhase slot s.log = some phase ∧ Kept client remote s slot phase
  /-- What a slot is used for is the last transfer of its shard. -/
  current : ∀ slot x, slotPhase slot s.log = some (.receiving x) ∨
    slotPhase slot s.log = some (.received x) → s.latest x.ref = some x
  latestRef : ∀ ref x, s.latest ref = some x → x.ref = ref
  latestSlot : ∀ ref x slot, client.slot ref = some slot → s.latest ref = some x →
    slotPhase slot s.log = some (.receiving x) ∨ slotPhase slot s.log = some (.received x) ∨
      s.original ref = some (remote x)
  latestDirect : ∀ ref, client.slot ref = none → s.latest ref ≠ none →
    (∃ y, y.ref = ref ∧ s.xferHandles.get? y = some .proc) ∨
      ∃ y ∈ s.posted, y.ref = ref ∧ s.original ref = some (remote y)
  handles : ∀ x, s.xferHandles.get? x ≠ none → x ∈ s.posted ∧ (client.localShard x.ref).isSome

/-- What is left of a call is in order. -/
structure Calling (client : PullClient) (s : SlotPull α) : Prop where
  transfers : ∀ x, .transfer x ∈ s.todo →
    (client.localShard x.ref).isSome ∧ (x.ref.1, x.target) ∈ s.outstanding
  claiming : ∀ x running, s.claiming = some (x, running) →
    (client.localShard x.ref).isSome ∧ (x.ref.1, x.target) ∈ s.outstanding ∧
      running = (client.slot x.ref).bind s.runningRead.get?
  /-- A transfer that was not waited for is one of an outstanding read, or the call waits for it. -/
  awaited : ∀ x, s.xferHandles.get? x ≠ none →
    (x.ref.1, x.target) ∈ s.outstanding ∨ .await x ∈ s.todo

attribute [grind cases] Inv Calling
attribute [grind] HandleOf SlotPhase.next
attribute [grind =] slotPhase_append

/-! ### Single updates -/

theorem copiesOf_append (stream : List Xfer) (xfer : Xfer) (copied : Nat) :
    copiesOf client slot (stream ++ [xfer]) copied = copiesOf client slot stream copied ++
      if client.slot xfer.ref = some slot then [(xfer, copied + stream.length + 1)] else [] := by
  unfold copiesOf
  have hnumber : copied + 1 + stream.length = copied + stream.length + 1 := by omega
  rw [List.zipIdx_append, List.filter_append, List.zipIdx_singleton, hnumber]
  congr 1
  split
  · rename_i h
    rw [List.filter_cons_of_pos (by simpa using h), List.filter_nil]
  · rename_i h
    rw [List.filter_cons_of_neg (by simpa using h), List.filter_nil]

theorem copiesOf_cons (xfer : Xfer) (stream : List Xfer) (copied : Nat) :
    copiesOf client slot (xfer :: stream) copied =
      (if client.slot xfer.ref = some slot then [(xfer, copied + 1)] else []) ++
        copiesOf client slot stream (copied + 1) := by
  unfold copiesOf
  rw [List.zipIdx_cons]
  split
  · rename_i h
    rw [List.filter_cons_of_pos (by simpa using h), List.singleton_append]
  · rename_i h
    rw [List.filter_cons_of_neg (by simpa using h), List.nil_append]

theorem lt_of_mem_pending {event : Nat} (h : (xfer, event) ∈ s.pending client slot) :
    s.copied < event ∧ s.stream ≠ [] := by
  have hmem := List.mem_of_mem_filter h
  refine ⟨List.le_snd_of_mem_zipIdx hmem, fun hnil => ?_⟩
  rw [hnil] at hmem
  cases hmem

theorem complete_of_slot (hslot : client.slot xfer.ref = some slot) :
    s.complete client xfer = { s with
      stream := s.stream ++ [xfer]
      eventCache := s.eventCache.set xfer.ref (s.copied + s.stream.length + 1)
      xferHandles := s.xferHandles.erase xfer } := by
  rw [SlotPull.complete, hslot]

theorem complete_of_direct (hslot : client.slot xfer.ref = none) :
    s.complete client xfer = { s with xferHandles := s.xferHandles.erase xfer } := by
  rw [SlotPull.complete, hslot]

/-! The call itself is changed only by its own steps. -/

section Fields

variable (client remote s xfer)

@[simp] theorem complete_todo : (s.complete client xfer).todo = s.todo := by
  unfold SlotPull.complete
  split <;> rfl

@[simp] theorem complete_claiming : (s.complete client xfer).claiming = s.claiming := by
  unfold SlotPull.complete
  split <;> rfl

@[simp] theorem post_todo : (s.post client xfer).todo = s.todo := by
  unfold SlotPull.post
  split <;> rfl

@[simp] theorem post_claiming : (s.post client xfer).claiming = none := by
  unfold SlotPull.post
  split <;> rfl

@[simp] theorem finish_todo : (s.finish client remote xfer).todo = s.todo := by
  unfold SlotPull.finish
  split
  · split <;> rfl
  · rfl

@[simp] theorem finish_claiming : (s.finish client remote xfer).claiming = s.claiming := by
  unfold SlotPull.finish
  split
  · split <;> rfl
  · rfl

theorem get?_complete : (s.complete client xfer).xferHandles.get? xfer = none := by
  grind [SlotPull.complete]

theorem get?_finish : (s.finish client remote xfer).xferHandles.get? xfer ≠ some .proc := by
  grind [SlotPull.finish]

theorem complete_with_todo (todo : List SlotPullOp) :
    { s with todo := todo }.complete client xfer =
      { s.complete client xfer with todo := todo } := by
  unfold SlotPull.complete
  split <;> rfl

end Fields

namespace Inv

variable (h : Inv client remote s)
include h

/-- A handle of a slot belongs to its last transfer, which has not been copied. -/
theorem phase_of_handle {state : XferState} (hslot : client.slot xfer.ref = some slot)
    (hget : s.xferHandles.get? xfer = some state) :
    s.runningRead.get? slot = some xfer ∧ s.pending client slot = [] ∧
      (state = .proc ∧ slotPhase slot s.log = some (.receiving xfer) ∨
        state = .done ∧ slotPhase slot s.log = some (.received xfer) ∧
          s.slotData slot = some (remote xfer)) := by
  obtain ⟨phase, hphase, hkept⟩ := h.slots slot
  cases hkept <;> grind

/-- A slot is used for transfers of its own shards. -/
theorem slot_of_phase (hphase : slotPhase slot s.log = some (.receiving xfer) ∨
    slotPhase slot s.log = some (.received xfer)) : client.slot xfer.ref = some slot := by
  obtain ⟨phase, hphase', hkept⟩ := h.slots slot
  cases hkept <;> grind

/-- A step that has nothing to do with a slot. -/
theorem slots_congr (slot : Slot) (hsame : SameSlot client s s' slot)
    (hlog : slotPhase slot s'.log = slotPhase slot s.log) :
    ∃ phase, slotPhase slot s'.log = some phase ∧ Kept client remote s' slot phase := by
  obtain ⟨phase, hphase, hkept⟩ := h.slots slot
  exact ⟨phase, hlog.trans hphase, hkept.congr hsame (h.running slot)⟩

/-- The wait for a transfer that is done. -/
theorem complete (hget : s.xferHandles.get? xfer = some .done) :
    Inv client remote (s.complete client xfer) := by
  cases hslot : client.slot xfer.ref with
  | none =>
      rw [complete_of_direct hslot]
      constructor
      case slots =>
        exact fun slot => h.slots_congr slot ⟨rfl, by grind, rfl, fun _ _ => rfl, rfl, le_rfl⟩ rfl
      all_goals grind
  | some slot =>
      rw [complete_of_slot hslot]
      constructor
      case slots =>
        intro slot'
        by_cases hsame : slot' = slot
        · -- the data of the slot is on its way to the tensor
          subst hsame
          obtain ⟨hrunning, hpending, hstate⟩ := h.phase_of_handle hslot hget
          refine ⟨.received xfer, by grind, .copying xfer (s.copied + s.stream.length + 1) hrunning
            (by grind [phase_of_handle]) ?_ (Dict.get?_set_self ..) (by grind)⟩
          show copiesOf client slot' (s.stream ++ [xfer]) s.copied = _
          rw [copiesOf_append, if_pos hslot]
          exact congrArg (· ++ _) hpending
        · refine h.slots_congr slot' ⟨rfl, by grind, ?_, by grind, rfl, le_rfl⟩ rfl
          show copiesOf client slot' (s.stream ++ [xfer]) s.copied = _
          rw [copiesOf_append, if_neg (by grind), List.append_nil]
          rfl
      all_goals grind

/-- A call goes on: its own fields do not matter. -/
theorem frame (claiming : Option (Xfer × Option Xfer)) (todo : List SlotPullOp)
    (outstanding : List (String × String)) :
    Inv client remote { s with
      claiming := claiming
      todo := todo
      outstanding := outstanding } := by
  constructor
  case slots =>
    exact fun slot => h.slots_congr slot ⟨rfl, fun _ _ => rfl, rfl, fun _ _ => rfl, rfl, le_rfl⟩ rfl
  all_goals grind

/-- The data of a transfer arrives in its slot. -/
theorem land_slot (hslot : client.slot xfer.ref = some slot)
    (hget : s.xferHandles.get? xfer = some .proc) :
    Inv client remote { s with
      xferHandles := s.xferHandles.set xfer .done
      slotData := Function.update s.slotData slot (some (remote xfer))
      log := s.log ++ [(slot, .landed xfer)] } := by
  obtain ⟨hrunning, hpending, hstate⟩ := h.phase_of_handle hslot hget
  constructor
  case slots =>
    intro slot'
    by_cases hsame : slot = slot'
    · subst hsame
      exact ⟨.received xfer, by grind, .done xfer hrunning (by grind [phase_of_handle]) hpending
        (Function.update_self ..)⟩
    · exact h.slots_congr slot' ⟨rfl, by grind, rfl, fun _ _ => rfl, by grind, le_rfl⟩ (by grind)
  all_goals grind

/-- The data of a transfer arrives in its tensor. -/
theorem land_direct (hslot : client.slot xfer.ref = none)
    (hget : s.xferHandles.get? xfer = some .proc) :
    Inv client remote { s with
      xferHandles := s.xferHandles.set xfer .done
      original := Function.update s.original xfer.ref (some (remote xfer)) } := by
  constructor
  case slots =>
    exact fun slot => h.slots_congr slot ⟨rfl, by grind, rfl, fun _ _ => rfl, rfl, le_rfl⟩ rfl
  all_goals grind

theorem finish (xfer : Xfer) : Inv client remote (s.finish client remote xfer) := by
  unfold SlotPull.finish
  split
  · rename_i hget
    split
    · rename_i hslot
      exact h.land_slot hslot hget
    · rename_i hslot
      exact h.land_direct hslot hget
  · exact h

/-- The stream executes the copy of the data of a slot. -/
theorem copy_slot {stream : List Xfer} (hslot : client.slot xfer.ref = some slot)
    (hstream : s.stream = xfer :: stream) :
    Inv client remote { s with
      stream := stream
      copied := s.copied + 1
      original := Function.update s.original xfer.ref (s.slotData slot)
      log := s.log ++ [(slot, .copied xfer)] } := by
  have hcopies : ∀ slot, s.pending client slot =
      (if client.slot xfer.ref = some slot then [(xfer, s.copied + 1)] else []) ++
        copiesOf client slot stream (s.copied + 1) := by
    intro slot
    rw [pending, hstream, copiesOf_cons]
  -- a slot with a copy on the stream is in the last phase, with this copy only
  obtain ⟨hphase, hrunning, hhandle, hrest, hevent, hdata⟩ :
      slotPhase slot s.log = some (.received xfer) ∧ s.runningRead.get? slot = some xfer ∧
      HandleOf client s slot none ∧ copiesOf client slot stream (s.copied + 1) = [] ∧
      s.eventCache.get? xfer.ref = some (s.copied + 1) ∧ s.slotData slot = some (remote xfer) := by
    obtain ⟨phase, hphase, hkept⟩ := h.slots slot
    cases hkept <;> grind
  constructor
  case slots =>
    intro slot'
    by_cases hsame : slot = slot'
    · subst hsame
      exact ⟨.free, by grind, .free hhandle hrest (by grind)⟩
    · exact h.slots_congr slot' ⟨rfl, fun _ _ => rfl, by grind [pending], fun _ _ => rfl, rfl,
        Nat.le_succ _⟩ (by grind)
  all_goals grind

theorem copy : Inv client remote (s.copy client) := by
  unfold SlotPull.copy
  split
  · exact h
  rename_i xfer stream hstream
  split
  · rename_i hslot
    exact h.copy_slot hslot hstream
  · constructor
    case slots =>
      refine fun slot => h.slots_congr slot ⟨rfl, fun _ _ => rfl, ?_, fun _ _ => rfl, rfl,
        Nat.le_succ _⟩ rfl
      grind [pending, copiesOf_cons]
    all_goals grind

/-- The next transfer into a free slot. The event of the last copy may have been popped. -/
theorem post_slot {events : Dict ShardRef Nat} (hslot : client.slot xfer.ref = some slot)
    (hphase : slotPhase slot s.log = some .free) (hhandle : HandleOf client s slot none)
    (hpending : s.pending client slot = [])
    (hevents : ∀ ref, client.slot ref ≠ some slot → events.get? ref = s.eventCache.get? ref)
    (hlocal : (client.localShard xfer.ref).isSome) :
    Inv client remote ({ s with eventCache := events }.post client xfer) := by
  simp only [SlotPull.post, hslot]
  constructor
  case slots =>
    intro slot'
    by_cases hsame : slot = slot'
    · subst hsame
      exact ⟨.receiving xfer, by grind, .receiving xfer (Dict.get?_set_self ..) (by grind) hpending⟩
    · exact h.slots_congr slot' ⟨by grind, by grind, rfl, by grind, by grind, le_rfl⟩ (by grind)
  case current =>
    intro slot' x hx
    by_cases hsame : slot = slot'
    · grind
    · grind [slot_of_phase]
  all_goals grind

/-- The next transfer into a tensor. -/
theorem post_direct (hslot : client.slot xfer.ref = none)
    (hlocal : (client.localShard xfer.ref).isSome) :
    Inv client remote (s.post client xfer) := by
  simp only [SlotPull.post, hslot]
  constructor
  case slots =>
    exact fun slot => h.slots_congr slot ⟨rfl, by grind, rfl, fun _ _ => rfl, rfl, le_rfl⟩ rfl
  case current =>
    intro slot x hx
    have hx := h.slot_of_phase hx
    grind
  all_goals grind

end Inv

/-! ### Calls -/

namespace Calling

/-- Steps of the network, of the stream and of a wait leave the call as it is. -/
theorem congr (h : Calling client s) (htodo : s'.todo = s.todo)
    (hclaiming : s'.claiming = s.claiming) (hout : s'.outstanding = s.outstanding)
    (hrunning : s'.runningRead = s.runningRead)
    (hhandles : ∀ x, s'.xferHandles.get? x ≠ none → s.xferHandles.get? x ≠ none) :
    Calling client s' := by
  constructor <;> grind

theorem complete (h : Calling client s) (xfer : Xfer) :
    Calling client (s.complete client xfer) := by
  unfold SlotPull.complete
  split <;> exact h.congr rfl rfl rfl rfl (by grind)

theorem finish (h : Calling client s) (xfer : Xfer) :
    Calling client (s.finish client remote xfer) := by
  unfold SlotPull.finish
  split
  · split <;> exact h.congr rfl rfl rfl rfl (by grind)
  · exact h

theorem copy (h : Calling client s) : Calling client (s.copy client) := by
  unfold SlotPull.copy
  split
  · exact h
  · split <;> exact h.congr rfl rfl rfl rfl fun _ hx => hx

theorem post (h : Calling client s) (hout : (xfer.ref.1, xfer.target) ∈ s.outstanding) :
    Calling client (s.post client xfer) := by
  unfold SlotPull.post
  split
  all_goals exact ⟨h.transfers, fun _ _ heq => (Option.some_ne_none _ heq.symm).elim,
    fun x hx => by grind⟩

end Calling

/-- What the steps of a pull keep. -/
structure Good (client : PullClient) (remote : Xfer → α) (s : SlotPull α) : Prop where
  inv : Inv client remote s
  calling : Calling client s

attribute [grind cases] Good

namespace Inv

/-- A slot that no read has used is free. -/
theorem unused (h : Inv client remote s) (hnone : s.runningRead.get? slot = none) :
    slotPhase slot s.log = some .free ∧ HandleOf client s slot none ∧
      s.pending client slot = [] := by
  obtain ⟨phase, hphase, hkept⟩ := h.slots slot
  cases hkept <;> grind

/-- After the wait for its last transfer a slot has an event, and is free when the event is over. -/
theorem released (h : Inv client remote s) {last : Xfer}
    (hlast : s.runningRead.get? slot = some last)
    (hnone : s.xferHandles.get? last = none) :
    ∃ event, s.eventCache.get? last.ref = some event ∧
      (s.copied < event → s.stream ≠ []) ∧
      (¬ s.copied < event → slotPhase slot s.log = some .free ∧ HandleOf client s slot none ∧
        s.pending client slot = []) := by
  obtain ⟨phase, hphase, hkept⟩ := h.slots slot
  cases hkept with
  | copying x event hrunning _ hpending hevent =>
      obtain rfl : x = last := by grind
      have hmem : (x, event) ∈ s.pending client slot := by simp [hpending]
      obtain ⟨hlt, hne⟩ := lt_of_mem_pending hmem
      exact ⟨event, hevent, fun _ => hne, fun hnot => absurd hlt hnot⟩
  | _ => grind

end Inv

namespace Good

variable (h : Good client remote s)
include h

theorem complete (hget : s.xferHandles.get? xfer = some .done) :
    Good client remote (s.complete client xfer) :=
  ⟨h.inv.complete hget, h.calling.complete xfer⟩

theorem finish (xfer : Xfer) : Good client remote (s.finish client remote xfer) :=
  ⟨h.inv.finish xfer, h.calling.finish xfer⟩

theorem copy : Good client remote (s.copy client) := ⟨h.inv.copy, h.calling.copy⟩

/-- The transfer of a shard when its slot was not used before, or needs none. -/
theorem post_unused (hclaiming : s.claiming = some (xfer, none)) :
    Good client remote (s.post client xfer) := by
  obtain ⟨hlocal, hout, hrunning⟩ := h.calling.claiming xfer none hclaiming
  refine ⟨?_, h.calling.post hout⟩
  cases hslot : client.slot xfer.ref with
  | none => exact h.inv.post_direct hslot hlocal
  | some slot =>
      rw [hslot, Option.bind_some] at hrunning
      obtain ⟨hphase, hhandle, hpending⟩ := h.inv.unused hrunning.symm
      exact h.inv.post_slot hslot hphase hhandle hpending (fun _ _ => rfl) hlocal

/-- The transfer of a shard whose slot was used, after the copy of its data. -/
theorem post_released {last : Xfer} (hclaiming : s.claiming = some (xfer, some last))
    (hslot : client.slot xfer.ref = some slot) (hlast : s.runningRead.get? slot = some last)
    (hfree : slotPhase slot s.log = some .free ∧ HandleOf client s slot none ∧
      s.pending client slot = []) :
    Good client remote ({ s with eventCache := s.eventCache.erase last.ref }.post client xfer) := by
  obtain ⟨hlocal, hout, -⟩ := h.calling.claiming xfer (some last) hclaiming
  have hcalling : Calling client { s with eventCache := s.eventCache.erase last.ref } :=
    h.calling.congr rfl rfl rfl rfl fun _ hx => hx
  refine ⟨?_, hcalling.post hout⟩
  exact h.inv.post_slot hslot hfree.1 hfree.2.1 hfree.2.2 (by grind) hlocal

/-- A shard that is being transferred: the call waits, or goes on. -/
theorem claimed {running : Option Xfer} (hclaiming : s.claiming = some (xfer, running)) :
    ∃ s', s.claimed client xfer running = .ok s' ∧ Good client remote s' := by
  obtain ⟨-, -, hrunning⟩ := h.calling.claiming xfer running hclaiming
  cases running with
  | none => exact ⟨_, rfl, h.post_unused hclaiming⟩
  | some last =>
      obtain ⟨slot, hslot, hlast⟩ := Option.bind_eq_some_iff.mp hrunning.symm
      unfold SlotPull.claimed
      dsimp only
      cases hget : s.xferHandles.get? last with
      | some state =>
          cases state with
          | proc => exact ⟨s, rfl, h⟩
          | done => exact ⟨_, rfl, h.complete hget⟩
      | none =>
          obtain ⟨event, hevent, -, hfree⟩ := h.inv.released hlast hget
          dsimp only
          rw [hevent]
          dsimp only
          split
          · exact ⟨s, rfl, h⟩
          · rename_i hover
            exact ⟨_, rfl, h.post_released hclaiming hslot hlast (hfree hover)⟩

/-- The beginning of the transfer of a shard. -/
theorem claim {todo : List SlotPullOp} (htodo : s.todo = .transfer xfer :: todo) :
    ∃ s', { s with todo := todo }.claim client xfer = .ok s' ∧ Good client remote s' ∧
      s'.todo = todo := by
  obtain ⟨hlocal, hout⟩ := h.calling.transfers xfer (by simp [htodo])
  obtain ⟨info, hinfo⟩ := Option.isSome_iff_exists.mp hlocal
  have hgood : ∀ running, running = (client.slot xfer.ref).bind s.runningRead.get? →
      Good client remote { s with todo := todo, claiming := some (xfer, running) } :=
    fun running hrunning => ⟨h.inv.frame _ _ _, by constructor <;> grind⟩
  have hslot := PullClient.slot_eq hinfo
  unfold SlotPull.claim
  rw [hinfo]
  dsimp only
  split
  · rename_i hcontiguous
    rw [if_pos hcontiguous] at hslot
    exact ⟨_, rfl, hgood none (by simp [hslot]), rfl⟩
  · rename_i hcontiguous
    rw [if_neg hcontiguous] at hslot
    obtain ⟨idx, hidx, hslot⟩ := hslot
    rw [Dict.get_eq_ok.mpr hidx, ok_bind]
    exact ⟨_, rfl, hgood _ (by simp [hslot]), rfl⟩

/-- The rest of a wait after one of its shards. -/
theorem awaited {todo : List SlotPullOp} (hclaiming : s.claiming = none)
    (htodo : s.todo = .await xfer :: todo) (hnone : s.xferHandles.get? xfer = none) :
    Good client remote { s with todo := todo } := by
  refine ⟨h.inv.frame _ _ _, ?_⟩
  constructor <;> grind

theorem clientRead {target key : String} {shards : List ShardIndex} (hidle : s.idle)
    (hlocal : ∀ shard ∈ shards, (client.localShard (key, shard)).isSome) :
    Good client remote ({ s with outstanding := s.outstanding ++ [(key, target)] }.clientRead
      target key shards) := by
  refine ⟨h.inv.frame _ _ _, ?_⟩
  constructor <;> grind [idle, SlotPull.clientRead]

theorem wait {key target : String} {shardIdx : Option ShardIndex} (hidle : s.idle) :
    Good client remote ((s.recordWait key target shardIdx).wait client key target shardIdx) := by
  cases shardIdx with
  | some shard =>
      refine ⟨h.inv.frame _ _ _, ?_⟩
      constructor <;> grind [idle, SlotPull.wait, SlotPull.recordWait]
  | none =>
      refine ⟨h.inv.frame _ _ _, ?_⟩
      constructor
      case awaited =>
        intro x hx
        by_cases hread : (x.ref.1, x.target) = (key, target)
        · -- the wait goes over all shards of the tensor, so over the one of this transfer
          obtain ⟨rfl, rfl⟩ := Prod.mk.inj hread
          have hlocal := (h.inv.handles x hx).2
          exact .inr (List.mem_map.mpr ⟨x.ref.2, PullClient.mem_shardIndices hlocal, rfl⟩)
        · have hout := (h.calling.awaited x hx).resolve_right (by simp [hidle.2])
          exact .inl (List.mem_filter.mpr ⟨hout, by simpa [imp_iff_not_or] using hread⟩)
      all_goals grind [idle, SlotPull.wait, SlotPull.recordWait]

/-- A step of a call does not raise. -/
theorem stepCall : ∃ s', s.stepCall client = .ok s' ∧ Good client remote s' := by
  unfold SlotPull.stepCall
  split
  · rename_i hclaiming
    exact h.claimed hclaiming
  · exact ⟨s, rfl, h⟩
  · rename_i htodo
    obtain ⟨s', hok, hgood, -⟩ := h.claim htodo
    exact ⟨s', hok, hgood⟩
  · rename_i xfer todo hclaiming htodo
    split
    · rename_i hget
      exact ⟨_, rfl, h.awaited hclaiming htodo hget⟩
    · exact ⟨s, rfl, h⟩
    · rename_i hget
      refine ⟨_, rfl, ?_⟩
      rw [complete_with_todo]
      exact (h.complete hget).awaited ((complete_claiming ..).trans hclaiming)
        ((complete_todo ..).trans htodo) (get?_complete ..)

end Good

/-! ### Calls return -/

/-- Steps other than new calls. -/
def Ongoing (_ : SlotPull α) : Action → Prop
  | .stepCall => True
  | .finish _ => True
  | .copy => True
  | _ => False

/-- The calls and transfers that were begun lead to another state. -/
def LeadsTo (client : PullClient) (remote : Xfer → α) (s s' : SlotPull α) : Prop :=
  Run.Reachable (exec client remote) Ongoing s s'

/-- How much of the call is left. -/
def rank (s : SlotPull α) : Nat := 2 * s.todo.length + if s.claiming = none then 0 else 1

theorem leadsTo_finish (xfer : Xfer) : LeadsTo client remote s (s.finish client remote xfer) :=
  .step (a := .finish xfer) .start trivial rfl

theorem leadsTo_stepCall (h : s.stepCall client = .ok s') : LeadsTo client remote s s' :=
  .step (a := .stepCall) .start trivial h

namespace Good

/-- The stream executes its copies. -/
theorem drain {n : Nat} : ∀ {s : SlotPull α}, Good client remote s → s.stream.length = n →
    ∃ s', LeadsTo client remote s s' ∧ Good client remote s' ∧ s'.stream = [] ∧
      s'.todo = s.todo ∧ s'.claiming = s.claiming ∧ s'.xferHandles = s.xferHandles := by
  induction n with
  | zero => exact fun {s} h hlength =>
      ⟨s, .start, h, List.length_eq_zero_iff.mp hlength, rfl, rfl, rfl⟩
  | succ n ih =>
      intro s h hlength
      have hcopy : (s.copy client).stream.length = n ∧ (s.copy client).todo = s.todo ∧
          (s.copy client).claiming = s.claiming ∧
          (s.copy client).xferHandles = s.xferHandles := by
        unfold SlotPull.copy
        split
        · rename_i hnil
          simp [hnil] at hlength
        · rename_i hcons
          rw [hcons, List.length_cons, Nat.add_right_cancel_iff] at hlength
          split <;> exact ⟨hlength, rfl, rfl, rfl⟩
      obtain ⟨hless, htodo, hclaiming, hhandles⟩ := hcopy
      obtain ⟨s', hleads, hgood, hnil, htodo', hclaiming', hhandles'⟩ := ih h.copy hless
      have hfirst : LeadsTo client remote s (s.copy client) :=
        .step (a := .copy) .start trivial rfl
      exact ⟨s', hfirst.trans hleads, hgood, hnil, htodo'.trans htodo, hclaiming'.trans hclaiming,
        hhandles'.trans hhandles⟩

variable (h : Good client remote s)
include h

/-- A transfer in flight arrives. -/
theorem landed (xfer : Xfer) : ∃ s', LeadsTo client remote s s' ∧ Good client remote s' ∧
    s'.todo = s.todo ∧ s'.claiming = s.claiming ∧ s'.xferHandles.get? xfer ≠ some .proc :=
  ⟨_, leadsTo_finish xfer, h.finish xfer, finish_todo .., finish_claiming ..,
    get?_finish client remote s xfer⟩

/-- The wait for the last transfer of a slot ends. -/
theorem last_waited {last : Xfer} (hclaiming : s.claiming = some (xfer, some last)) :
    ∃ s', LeadsTo client remote s s' ∧ Good client remote s' ∧ s'.todo = s.todo ∧
      s'.claiming = s.claiming ∧ s'.xferHandles.get? last = none := by
  obtain ⟨s₁, hleads, hgood, htodo, hclaiming₁, hnot⟩ := h.landed last
  cases hget : s₁.xferHandles.get? last with
  | none => exact ⟨s₁, hleads, hgood, htodo, hclaiming₁, hget⟩
  | some state =>
      obtain rfl : state = .done := by cases state <;> grind
      have hstep : s₁.stepCall client = .ok (s₁.complete client last) := by
        simp [SlotPull.stepCall, hclaiming₁, hclaiming, SlotPull.claimed, hget]
      exact ⟨_, hleads.trans (leadsTo_stepCall hstep), hgood.complete hget,
        (complete_todo ..).trans htodo, (complete_claiming ..).trans hclaiming₁,
        get?_complete ..⟩

/-- The transfer of a shard is posted. -/
theorem claimed_posts {running : Option Xfer} (hclaiming : s.claiming = some (xfer, running)) :
    ∃ s', LeadsTo client remote s s' ∧ Good client remote s' ∧ s'.todo = s.todo ∧
      s'.claiming = none := by
  cases running with
  | none =>
      have hstep : s.stepCall client = .ok (s.post client xfer) := by
        simp [SlotPull.stepCall, hclaiming, SlotPull.claimed]
      exact ⟨_, leadsTo_stepCall hstep, h.post_unused hclaiming, post_todo .., post_claiming ..⟩
  | some last =>
      obtain ⟨s₁, hleads₁, hgood₁, htodo₁, hclaiming₁, hnone₁⟩ := h.last_waited hclaiming
      obtain ⟨s₂, hleads₂, hgood₂, hnil, htodo₂, hclaiming₂, hhandles₂⟩ := hgood₁.drain rfl
      have hclaiming' : s₂.claiming = some (xfer, some last) :=
        hclaiming₂.trans (hclaiming₁.trans hclaiming)
      obtain ⟨-, -, hrunning⟩ := hgood₂.calling.claiming xfer (some last) hclaiming'
      obtain ⟨slot, hslot, hlast⟩ := Option.bind_eq_some_iff.mp hrunning.symm
      have hnone : s₂.xferHandles.get? last = none := by rw [hhandles₂, hnone₁]
      obtain ⟨event, hevent, hstream, hfree⟩ := hgood₂.inv.released hlast hnone
      have hover : ¬ s₂.copied < event := fun hlt => hstream hlt hnil
      have hstep : s₂.stepCall client =
          .ok ({ s₂ with eventCache := s₂.eventCache.erase last.ref }.post client xfer) := by
        simp only [SlotPull.stepCall, hclaiming', SlotPull.claimed, hnone, hevent, if_neg hover]
      exact ⟨_, hleads₁.trans (hleads₂.trans (leadsTo_stepCall hstep)),
        hgood₂.post_released hclaiming' hslot hlast (hfree hover),
        (post_todo ..).trans (htodo₂.trans htodo₁), post_claiming ..⟩

/-- A call that is running gets on. -/
theorem advances (hbusy : ¬ s.idle) :
    ∃ s', LeadsTo client remote s s' ∧ Good client remote s' ∧ s'.rank < s.rank := by
  cases hclaiming : s.claiming with
  | some claim =>
      obtain ⟨s', hleads, hgood, htodo, hnone⟩ := h.claimed_posts hclaiming
      exact ⟨s', hleads, hgood, by simp [rank, htodo, hnone, hclaiming]⟩
  | none =>
      cases htodo : s.todo with
      | nil => exact absurd ⟨hclaiming, htodo⟩ hbusy
      | cons op todo =>
          have hrank : s.rank = 2 * todo.length + 2 := by simp [rank, hclaiming, htodo, Nat.mul_add]
          cases op with
          | transfer xfer =>
              obtain ⟨s', hok, hgood, htodo'⟩ := h.claim htodo
              have hstep : s.stepCall client = .ok s' := by
                rw [SlotPull.stepCall, hclaiming, htodo]
                exact hok
              exact ⟨s', leadsTo_stepCall hstep, hgood, by grind [rank]⟩
          | await xfer =>
              obtain ⟨s₁, hleads, hgood, htodo₁, hclaiming₁, hnot⟩ := h.landed xfer
              obtain ⟨s', hok, hgood'⟩ := hgood.stepCall
              have hdone : s'.todo = todo ∧ s'.claiming = none := by
                simp only [SlotPull.stepCall, hclaiming₁, hclaiming, htodo₁, htodo] at hok
                grind [complete_todo, complete_claiming]
              exact ⟨s', hleads.trans (leadsTo_stepCall hok), hgood', by grind [rank]⟩

end Good

/-- A call returns once its transfers have arrived. -/
theorem Good.returns {n : Nat} : ∀ {s : SlotPull α}, Good client remote s → s.rank ≤ n →
    ∃ s', LeadsTo client remote s s' ∧ Good client remote s' ∧ s'.idle ∧ s'.stream = [] := by
  induction n with
  | zero =>
      intro s h hrank
      obtain ⟨s', hleads, hgood, hnil, htodo, hclaiming, -⟩ := h.drain rfl
      exact ⟨s', hleads, hgood, ⟨hclaiming.trans (by grind [rank]),
        htodo.trans (List.length_eq_zero_iff.mp (by grind [rank]))⟩, hnil⟩
  | succ n ih =>
      intro s h hrank
      by_cases hidle : s.idle
      · obtain ⟨s', hleads, hgood, hnil, htodo, hclaiming, -⟩ := h.drain rfl
        exact ⟨s', hleads, hgood, ⟨hclaiming.trans hidle.1, htodo.trans hidle.2⟩, hnil⟩
      · obtain ⟨s₁, hleads₁, hgood₁, hless⟩ := h.advances hidle
        obtain ⟨s', hleads, hend⟩ := ih hgood₁ (by omega)
        exact ⟨s', hleads₁.trans hleads, hend⟩

/-! ### Pulls -/

theorem init_good : Good client remote (init : SlotPull α) := by
  refine ⟨?_, ?_⟩
  · constructor
    case slots => exact fun slot => ⟨.free, rfl, .free (by grind [init]) rfl (by grind [init])⟩
    case current =>
      intro slot x hx
      obtain hx | hx := hx <;> cases hx
    all_goals grind [init]
  · constructor <;> grind [init]

theorem exec_good {a : Action} (h : Good client remote s) (hallowed : s.Allowed client a) :
    ∃ s', s.exec client remote a = .ok s' ∧ Good client remote s' := by
  cases a with
  | read target key shards => exact ⟨_, rfl, h.clientRead hallowed.1 hallowed.2⟩
  | wait key target shardIdx => exact ⟨_, rfl, h.wait hallowed⟩
  | stepCall => exact h.stepCall
  | finish xfer => exact ⟨_, rfl, h.finish xfer⟩
  | copy => exact ⟨_, rfl, h.copy⟩

/-- When nothing is left to wait for, the tensors have their data. -/
theorem Good.transferred (h : Good client remote s) (hout : s.outstanding = []) (hidle : s.idle)
    (hstream : s.stream = []) {ref : ShardRef} (hlatest : s.latest ref = some xfer) :
    (client.slot ref ≠ none → s.original ref = some (remote xfer)) ∧
      (client.slot ref = none →
        ∃ y ∈ s.posted, y.ref = ref ∧ s.original ref = some (remote y)) := by
  have hhandle : ∀ x, s.xferHandles.get? x = none := by
    intro x
    by_contra hx
    simpa [hout, hidle.2] using h.calling.awaited x hx
  refine ⟨fun hslot => ?_, fun hslot => by grind⟩
  obtain ⟨slot, hslot⟩ := Option.ne_none_iff_exists'.mp hslot
  have hfree : slotPhase slot s.log = some .free := by
    obtain ⟨phase, hphase, hkept⟩ := h.inv.slots slot
    cases hkept with
    | copying x event _ _ hpending =>
        have hmem : (x, event) ∈ s.pending client slot := by simp [hpending]
        exact absurd hstream (lt_of_mem_pending hmem).2
    | _ => grind
  grind

theorem complete_outstanding : (s.complete client xfer).outstanding = s.outstanding := by
  unfold SlotPull.complete
  split <;> rfl

theorem post_outstanding : (s.post client xfer).outstanding = s.outstanding := by
  unfold SlotPull.post
  split <;> rfl

theorem claimed_outstanding {running : Option Xfer} (h : s.claimed client xfer running = .ok s') :
    s'.outstanding = s.outstanding := by
  revert h
  unfold SlotPull.claimed
  repeat' split
  all_goals rintro ⟨⟩
  all_goals first | rfl | exact post_outstanding | exact complete_outstanding

theorem claim_outstanding (h : s.claim client xfer = .ok s') : s'.outstanding = s.outstanding := by
  revert h
  unfold SlotPull.claim
  split
  · rintro ⟨⟩
  · split
    · rintro ⟨⟩
      rfl
    · intro h
      obtain ⟨_, _, ⟨⟩⟩ := bind_eq_ok.mp h
      rfl

theorem stepCall_outstanding (h : s.stepCall client = .ok s') :
    s'.outstanding = s.outstanding := by
  revert h
  unfold SlotPull.stepCall
  repeat' split
  · exact claimed_outstanding
  · rintro ⟨⟩
    rfl
  · exact claim_outstanding
  · rintro ⟨⟩
    rfl
  · rintro ⟨⟩
    rfl
  · rintro ⟨⟩
    exact complete_outstanding

/-- Only new calls change which reads are outstanding. -/
theorem LeadsTo.outstanding (h : LeadsTo client remote s s') : s'.outstanding = s.outstanding := by
  refine Run.Reachable.invariant (P := fun t => t.outstanding = s.outstanding) rfl
    (fun t a t' ht hongoing hexec => ?_) h
  rw [← ht]
  cases a with
  | read | wait => exact hongoing.elim
  | stepCall => exact stepCall_outstanding hexec
  | finish xfer => grind [SlotPull.exec, SlotPull.finish]
  | copy => grind [SlotPull.exec, SlotPull.copy]

/-- **Pinned slots**, for every interleaving of reads, waits, arrivals and copies: no step raises
(so the event of the last copy is always found), every slot receives one transfer at a time and the
next one only after its data was copied, calls return when transfers arrive, and when every read was
followed by a wait, no call is running and the stream is synchronized, every shard that was read has
its remote data. -/
theorem pinned_slots_safe
    (hreach : Run.Reachable (exec client remote) (Allowed client) (init : SlotPull α) s) :
    (∀ a, s.Allowed client a → ∃ s', s.exec client remote a = .ok s') ∧
    (∀ slot, slotPhase slot s.log ≠ none) ∧
    (∀ x y, client.slot x.ref ≠ none → client.slot x.ref = client.slot y.ref →
      s.xferHandles.get? x = some .proc → s.xferHandles.get? y = some .proc → x = y) ∧
    (∃ s', LeadsTo client remote s s' ∧ s'.idle ∧ s'.stream = [] ∧
      s'.outstanding = s.outstanding) ∧
    (s.outstanding = [] → s.idle → s.stream = [] → ∀ ref x, s.latest ref = some x →
      (client.slot ref ≠ none → s.original ref = some (remote x)) ∧
      (client.slot ref = none →
        ∃ y ∈ s.posted, y.ref = ref ∧ s.original ref = some (remote y))) := by
  obtain ⟨hgood, hsafe⟩ := hreach.safe (P := Good client remote) init_good
    fun s a h hallowed => exec_good h hallowed
  refine ⟨hsafe, fun slot hnone => ?_, fun x y hne hslot hx hy => ?_, ?_,
    fun hout hidle hstream ref x hlatest => hgood.transferred hout hidle hstream hlatest⟩
  · obtain ⟨phase, hphase, -⟩ := hgood.inv.slots slot
    rw [hnone] at hphase
    cases hphase
  · obtain ⟨slot, hxslot⟩ := Option.ne_none_iff_exists'.mp hne
    have hrunning := (hgood.inv.phase_of_handle hxslot hx).1
    rw [(hgood.inv.phase_of_handle (hslot ▸ hxslot) hy).1, Option.some.injEq] at hrunning
    exact hrunning.symm
  · obtain ⟨s', hleads, -, hidle, hnil⟩ := hgood.returns le_rfl
    exact ⟨s', hleads, hidle, hnil, hleads.outstanding⟩

/-- One slot for the two halves of a tensor that are not contiguous. -/
def oneSlotClient : PullClient where
  clientName := "pull"
  maxPinnedTempMemorySlots := 1
  slots_pos := Nat.one_pos
  tensors := Dict.empty.set "w"
    [⟨[0], ⟨[2], "bfloat16"⟩, false⟩, ⟨[1], ⟨[2], "bfloat16"⟩, false⟩]

/-- Both halves are read through the slot, the second one after the first was copied. -/
theorem pinned_slots_safe_oneSlot : ∃ s : SlotPull Nat,
    Run.Reachable (exec oneSlotClient (fun x => x.ref.2.sum + 7)) (Allowed oneSlotClient) init s ∧
      s.original ("w", [0]) = some 7 ∧ s.original ("w", [1]) = some 8 := by
  have hrun : (Run.perform (exec oneSlotClient (fun x => x.ref.2.sum + 7)) (Allowed oneSlotClient)
      (init : SlotPull Nat) [
        .read "ps" "w" [[0], [1]], .stepCall, .stepCall, .stepCall, .stepCall,
        .finish ⟨"ps", ("w", [0])⟩, .stepCall, .stepCall, .copy, .stepCall,
        .wait "w" "ps" none, .stepCall, .finish ⟨"ps", ("w", [1])⟩, .stepCall, .stepCall,
        .copy]).map (fun s => decide (s.outstanding = [] ∧ s.idle ∧ s.stream = [] ∧
          s.latest ("w", [0]) = some ⟨"ps", ("w", [0])⟩ ∧
          s.latest ("w", [1]) = some ⟨"ps", ("w", [1])⟩)) = some true := by
    decide +kernel
  obtain ⟨s, hreach, hs⟩ := Run.exists_reachable_of_perform hrun
  obtain ⟨hout, hidle, hstream, hfirst, hsecond⟩ := of_decide_eq_true hs
  have hdata := (pinned_slots_safe hreach).2.2.2.2 hout hidle hstream
  exact ⟨s, hreach, (hdata _ _ hfirst).1 (by decide +kernel),
    (hdata _ _ hsecond).1 (by decide +kernel)⟩

end SlotPull

end Psrl
