import Mathlib.Tactic.Ring
import Psrl.Lib.Python
import Psrl.Lib.Run

/-!
# Psrl.Dispatch.Throttle

**The train dispatch throttle** (`workers/agent_loop/manager.py`). The dispatch loop of the
agent loop manager takes batches from its queue and holds each one back until the parameter
server has reached the version `_get_expected_ps_version` computes from the number of
requests dispatched so far. Groups that fail, or that the group filter drops, are replaced by
fresh groups through `_retry_data`, which counts them as dispatched too.

The model couples the manager with what the throttle waits for: the groups in flight, the
groups that succeeded, and the versions pushed, one for each complete buffer of succeeded
groups. `throttle_run` says how many replacements the throttle survives.
-/

namespace Psrl

open Py

/-! ### Configuration -/

/-- The part of the configuration the dispatch side reads. -/
structure DispatchConfig where
  redundantEnable : Bool
  redundantGlobalBatchSize : Nat
  stalenessBufferEntries : Nat
  rolloutN : Nat
  staleness : Nat
  maxDispatchAhead : Option Nat
  refillFailureThreshold : Nat
  maxTrainId : Nat
  deriving DecidableEq

namespace DispatchConfig

variable (cfg : DispatchConfig)

def entriesPerBuffer : Nat :=
  if cfg.redundantEnable then cfg.redundantGlobalBatchSize else cfg.stalenessBufferEntries

/-- Requests of one buffer, as the throttle counts them. -/
def bufferSize : Nat :=
  if cfg.redundantEnable then cfg.redundantGlobalBatchSize * cfg.rolloutN
  else cfg.stalenessBufferEntries * cfg.rolloutN

def effectiveStaleness : Nat :=
  min cfg.staleness (cfg.maxDispatchAhead.getD 5)

def failedIdCapacity : Nat :=
  max (4 * cfg.entriesPerBuffer * (cfg.staleness + 1)) 65536

/-- A configuration without redundant rollout, with sizes the divisions are defined for. -/
structure Plain : Prop where
  noRedundancy : cfg.redundantEnable = false
  entries_pos : 0 < cfg.stalenessBufferEntries
  rolloutN_pos : 0 < cfg.rolloutN

end DispatchConfig

/-! ### The record of failed groups -/

/-- `BoundedIdSet`: an insertion-ordered id set, oldest first, that evicts the oldest id
once full. -/
structure BoundedIdSet where
  capacity : Nat
  ids : List Nat
  nodup : ids.Nodup
  length_le : ids.length ≤ capacity

namespace BoundedIdSet

def empty (capacity : Nat) : BoundedIdSet := ⟨capacity, [], List.nodup_nil, Nat.zero_le _⟩

instance : Membership Nat BoundedIdSet := ⟨fun set item => item ∈ set.ids⟩

instance (item : Nat) (set : BoundedIdSet) : Decidable (item ∈ set) :=
  inferInstanceAs (Decidable (item ∈ set.ids))

/-- Record `item`, evicting the oldest id when already at capacity. -/
def add (set : BoundedIdSet) (item : Nat) : BoundedIdSet :=
  if h : item ∈ set.ids then set
  else
    have hnodup : (set.ids ++ [item]).Nodup :=
      List.nodup_append.mpr ⟨set.nodup, List.nodup_singleton item, by
        intro a ha b hb hab
        obtain rfl := List.mem_singleton.mp hb
        exact h (hab ▸ ha)⟩
    if hfull : (set.ids ++ [item]).length ≤ set.capacity then
      ⟨set.capacity, set.ids ++ [item], hnodup, hfull⟩
    else
      ⟨set.capacity, (set.ids ++ [item]).tail, hnodup.tail, by
        have := set.length_le
        simp only [List.length_tail, List.length_append, List.length_singleton]
        omega⟩

end BoundedIdSet

/-! ### The manager and its surroundings -/

/-- A batch of training data: the prompts it holds, each expanded to its children. -/
structure TrainBatch where
  prompts : List Nat
  rolloutN : Nat
  deriving DecidableEq

namespace TrainBatch

/-- The `uid` column: contiguous groups of `rollout_n` children for each prompt. -/
def uids (data : TrainBatch) : List Nat :=
  data.prompts.flatMap fun p => (List.range data.rolloutN).map fun j => p * data.rolloutN + j

theorem length_uids (data : TrainBatch) :
    data.uids.length = data.prompts.length * data.rolloutN := by
  unfold uids
  induction data.prompts with
  | nil => simp
  | cons p rest ih =>
      rw [List.flatMap_cons, List.length_append, ih]
      simp only [List.length_map, List.length_range, List.length_cons]
      rw [Nat.add_mul, Nat.one_mul, Nat.add_comm]

end TrainBatch

/-- `DataProcessor`: the cyclic id counter, and whether the dataloader yields data at all. -/
structure DataProcessor where
  trainSampleIdx : Nat
  yieldsData : Bool
  deriving DecidableEq

/-- `get_train_sample_ids`. -/
def DataProcessor.getTrainSampleIds (dp : DataProcessor) (cfg : DispatchConfig)
    (batchSize : Nat) : List Nat × DataProcessor :=
  ((List.range batchSize).map fun i => (dp.trainSampleIdx + i) % cfg.maxTrainId,
    { dp with trainSampleIdx := (dp.trainSampleIdx + batchSize) % cfg.maxTrainId })

/-- `sample_train_prompts`: exactly `n_prompts` fresh prompts, or `None` when the dataloader
yields nothing across an epoch restart. -/
def DataProcessor.sampleTrainPrompts (dp : DataProcessor) (cfg : DispatchConfig)
    (nPrompts : Nat) : Option TrainBatch × DataProcessor :=
  if dp.yieldsData then
    let (ids, dp') := dp.getTrainSampleIds cfg nPrompts
    (some ⟨ids, cfg.rolloutN⟩, dp')
  else (none, dp)

theorem DataProcessor.length_getTrainSampleIds (dp : DataProcessor) (cfg : DispatchConfig)
    (batchSize : Nat) : (dp.getTrainSampleIds cfg batchSize).1.length = batchSize := by
  simp [getTrainSampleIds]

/-- Why the refill breaker tripped. -/
inductive RefillFault
  | consecutiveFailures (count : Nat)
  | noReplacement (nPrompts : Nat)
  deriving DecidableEq

/-- A batch the dispatch loop took from its queue, with the version it waits for. -/
structure HeldBatch where
  data : TrainBatch
  expectedPsVersion : Nat
  deriving DecidableEq

/-- The dispatch side of `PSRL_AgentLoopManager`. `held` is the local state of the dispatch
loop between taking a batch and sending it out. -/
structure AgentLoopManager where
  requestCounter : Nat
  currPsVersionTag : Nat
  initialPsVersion : Nat
  trainDataQueue : List (Option TrainBatch)
  held : Option HeldBatch
  stopTrainDispatchTask : Bool
  runningLoop : Bool
  failedTrainGroupIds : BoundedIdSet
  consecutiveGroupFailures : Nat
  refillBreaker : Option RefillFault

/-- The manager with what the throttle waits for: the version of the parameter server, the
groups in flight, and the counts of groups that succeeded, of groups that were replaced, and
of buffers trained on. -/
structure DispatchSystem where
  manager : AgentLoopManager
  dataProcessor : DataProcessor
  psVersion : Nat
  inFlight : List Nat
  succeeded : Nat
  replaced : Nat
  consumed : Nat

/-- `_get_expected_ps_version`. -/
def AgentLoopManager.getExpectedPsVersion (m : AgentLoopManager) (cfg : DispatchConfig) : Nat :=
  m.initialPsVersion + (m.requestCounter - cfg.effectiveStaleness * cfg.bufferSize) / cfg.bufferSize

/-- `_trip_refill_breaker`: the first diagnosis is latched. -/
def AgentLoopManager.tripRefillBreaker (m : AgentLoopManager) (fault : RefillFault) :
    AgentLoopManager :=
  if m.refillBreaker.isSome then m else { m with refillBreaker := some fault }

/-- `_record_group_failure`. -/
def AgentLoopManager.recordGroupFailure (m : AgentLoopManager) (cfg : DispatchConfig) :
    AgentLoopManager :=
  let m := { m with consecutiveGroupFailures := m.consecutiveGroupFailures + 1 }
  if cfg.refillFailureThreshold ≤ m.consecutiveGroupFailures then
    m.tripRefillBreaker (.consecutiveFailures m.consecutiveGroupFailures)
  else m

/-- `_reset_group_failure_streak`. -/
def AgentLoopManager.resetGroupFailureStreak (m : AgentLoopManager) : AgentLoopManager :=
  { m with consecutiveGroupFailures := 0 }

namespace DispatchSystem

variable (sys : DispatchSystem) (cfg : DispatchConfig)

/-! ### Operations -/

/-- `_inner_dispatch_data` and the counter update after it: the groups of the batch are in
flight and its requests are counted. -/
def innerDispatchData (data : TrainBatch) : DispatchSystem :=
  { sys with
    inFlight := sys.inFlight ++ data.prompts
    manager := { sys.manager with
      requestCounter := sys.manager.requestCounter + data.uids.length } }

/-- `put_data`: the data processor queues a batch of `batchSize` fresh prompts, or the END
signal. -/
def putData : Option Nat → DispatchSystem
  | none => { sys with manager := { sys.manager with
      trainDataQueue := sys.manager.trainDataQueue ++ [none] } }
  | some batchSize =>
      let (ids, dp) := sys.dataProcessor.getTrainSampleIds cfg batchSize
      { sys with
        dataProcessor := dp
        manager := { sys.manager with
          trainDataQueue := sys.manager.trainDataQueue ++ [some ⟨ids, cfg.rolloutN⟩] } }

/-- One turn of `_train_dispatch_data`. The loop gives up control while it polls the version
and between taking a batch and sending it, so a held batch is sent in a turn of its own. -/
def trainDispatchData : DispatchSystem :=
  match sys.manager.held with
  | some batch =>
      if sys.manager.currPsVersionTag < batch.expectedPsVersion then
        -- busy polling until the server has the needed version
        if sys.psVersion < batch.expectedPsVersion then sys
        else
          { sys with manager := { sys.manager with
              held := none
              currPsVersionTag := batch.expectedPsVersion } }.innerDispatchData batch.data
      else { sys with manager := { sys.manager with held := none } }.innerDispatchData batch.data
  | none =>
      if sys.manager.stopTrainDispatchTask then sys
      else
        match sys.manager.trainDataQueue with
        | [] => sys
        | none :: rest => { sys with manager := { sys.manager with
            trainDataQueue := rest
            stopTrainDispatchTask := true } }
        | some data :: rest => { sys with manager := { sys.manager with
            trainDataQueue := rest
            held := some ⟨data, sys.manager.getExpectedPsVersion cfg⟩ } }

/-- `_retry_data`, with the number of requests dispatched. -/
def retryData (nPrompts : Nat) : Nat × DispatchSystem :=
  if sys.manager.runningLoop = false then (0, sys)
  else if nPrompts = 0 then (0, sys)
  else
    match sys.dataProcessor.sampleTrainPrompts cfg nPrompts with
    | (none, dp) => (0, { sys with dataProcessor := dp })
    | (some data, dp) =>
        (data.uids.length, { sys with dataProcessor := dp }.innerDispatchData data)

/-- `_refill_failed_group`: a refill that dispatches nothing trips the breaker. -/
def refillFailedGroup (nPrompts : Nat) : DispatchSystem :=
  match sys.retryData cfg nPrompts with
  | (0, sys') => { sys' with manager := sys'.manager.tripRefillBreaker (.noReplacement nPrompts) }
  | (_ + 1, sys') => sys'

/-- The group leaves the rollout without data and its slot is refilled. -/
def replaceGroup (parentId : Nat) : DispatchSystem :=
  { sys with
    inFlight := sys.inFlight.erase parentId
    replaced := sys.replaced + 1 }.refillFailedGroup cfg 1

/-- The training path of `notify_group_failed`: only the first report of a group counts. -/
def notifyGroupFailed (parentId : Nat) : DispatchSystem :=
  if parentId ∈ sys.manager.failedTrainGroupIds then sys
  else
    let m := { sys.manager with
      failedTrainGroupIds := sys.manager.failedTrainGroupIds.add parentId }
    { sys with manager := m.recordGroupFailure cfg }.replaceGroup cfg parentId

/-- `occupy_requests` for a complete group that the group filter keeps. -/
def groupSucceeded (parentId : Nat) : DispatchSystem :=
  { sys with
    inFlight := sys.inFlight.erase parentId
    succeeded := sys.succeeded + 1
    manager := sys.manager.resetGroupFailureStreak }

/-- The trainer consumes the next buffer of succeeded groups and pushes a version. -/
def pushVersion : DispatchSystem :=
  { sys with
    consumed := sys.consumed + 1
    psVersion := sys.psVersion + 1 }

/-! ### Runs -/

/-- The events the throttle is exposed to. -/
inductive Action
  | putData (batchSize : Option Nat)
  | trainDispatch
  | groupSucceeded (parentId : Nat)
  | groupFailed (parentId : Nat)
  | groupFiltered (parentId : Nat)
  | pushVersion
  deriving DecidableEq

variable (cfg : DispatchConfig) (sys : DispatchSystem)

def exec : Action → Except PyError DispatchSystem
  | .putData batchSize => .ok (sys.putData cfg batchSize)
  | .trainDispatch => .ok (sys.trainDispatchData cfg)
  | .groupSucceeded parentId => .ok (sys.groupSucceeded parentId)
  | .groupFailed parentId => .ok (sys.notifyGroupFailed cfg parentId)
  | .groupFiltered parentId => .ok (sys.replaceGroup cfg parentId)
  | .pushVersion => .ok sys.pushVersion

/-- Only groups in flight end, a failure may be reported more than once, and a version is
pushed only for a complete buffer of succeeded groups. -/
def Protocol : Action → Prop
  | .putData _ => True
  | .trainDispatch => True
  | .groupSucceeded parentId => parentId ∈ sys.inFlight
  | .groupFailed parentId =>
      parentId ∈ sys.inFlight ∨ parentId ∈ sys.manager.failedTrainGroupIds
  | .groupFiltered parentId => parentId ∈ sys.inFlight
  | .pushVersion => (sys.consumed + 1) * cfg.stalenessBufferEntries ≤ sys.succeeded

instance : (a : Action) → Decidable (sys.Protocol cfg a)
  | .putData _ => inferInstanceAs (Decidable True)
  | .trainDispatch => inferInstanceAs (Decidable True)
  | .groupSucceeded p => inferInstanceAs (Decidable (p ∈ sys.inFlight))
  | .groupFailed _ => inferInstanceAs (Decidable (_ ∨ _))
  | .groupFiltered p => inferInstanceAs (Decidable (p ∈ sys.inFlight))
  | .pushVersion => inferInstanceAs (Decidable (_ ≤ _))

/-- The event takes a group out of flight without data. -/
def Loses : Action → Prop
  | .groupFailed parentId => parentId ∉ sys.manager.failedTrainGroupIds
  | .groupFiltered _ => True
  | _ => False

instance : (a : Action) → Decidable (sys.Loses a)
  | .groupFailed p => inferInstanceAs (Decidable (p ∉ sys.manager.failedTrainGroupIds))
  | .groupFiltered _ => inferInstanceAs (Decidable True)
  | .putData _ | .trainDispatch | .groupSucceeded _ | .pushVersion =>
      inferInstanceAs (Decidable False)

/-- A group is lost only while fewer groups were replaced than the throttle lets the
dispatch run ahead. -/
def WithinAllowance (a : Action) : Prop :=
  sys.Protocol cfg a ∧
    (sys.Loses a → sys.replaced < cfg.effectiveStaleness * cfg.stalenessBufferEntries)

instance (a : Action) : Decidable (sys.WithinAllowance cfg a) :=
  inferInstanceAs (Decidable (_ ∧ (_ → _)))

/-- The system after `start_busy_loop`, resumed from the version `version`. -/
def start (version : Nat) : DispatchSystem where
  manager :=
    { requestCounter := 0
      currPsVersionTag := version
      initialPsVersion := version
      trainDataQueue := []
      held := none
      stopTrainDispatchTask := false
      runningLoop := true
      failedTrainGroupIds := .empty cfg.failedIdCapacity
      consecutiveGroupFailures := 0
      refillBreaker := none }
  dataProcessor := ⟨0, true⟩
  psVersion := version
  inFlight := []
  succeeded := 0
  replaced := 0
  consumed := 0

/-- No dispatched group is in flight and every complete buffer has been trained on. -/
def Quiescent : Prop :=
  sys.inFlight = [] ∧ sys.succeeded < (sys.consumed + 1) * cfg.stalenessBufferEntries

instance : Decidable (sys.Quiescent cfg) :=
  inferInstanceAs (Decidable (_ ∧ _))

/-! ### Accounting -/

/-- What the counters mean: every counted request belongs to a group in flight, to one that
succeeded or to one that was replaced; the server is ahead of its initial version by the
buffers trained on; and a held batch waits for no more than the throttle asks for now. -/
structure Accounted : Prop where
  counter : sys.manager.requestCounter =
    (sys.inFlight.length + sys.succeeded + sys.replaced) * cfg.rolloutN
  version : sys.psVersion = sys.manager.initialPsVersion + sys.consumed
  consumed : sys.consumed * cfg.stalenessBufferEntries ≤ sys.succeeded
  held : ∀ batch ∈ sys.manager.held,
    batch.expectedPsVersion ≤ sys.manager.getExpectedPsVersion cfg
  queued : ∀ data, some data ∈ sys.manager.trainDataQueue → data.rolloutN = cfg.rolloutN
  heldData : ∀ batch ∈ sys.manager.held, batch.data.rolloutN = cfg.rolloutN
  running : sys.manager.runningLoop = true
  yields : sys.dataProcessor.yieldsData = true

variable {cfg : DispatchConfig} {sys : DispatchSystem}

theorem getExpectedPsVersion_mono {m m' : AgentLoopManager}
    (hinit : m'.initialPsVersion = m.initialPsVersion)
    (hle : m.requestCounter ≤ m'.requestCounter) :
    m.getExpectedPsVersion cfg ≤ m'.getExpectedPsVersion cfg := by
  unfold AgentLoopManager.getExpectedPsVersion
  rw [hinit]
  exact Nat.add_le_add_left (Nat.div_le_div_right (Nat.sub_le_sub_right hle _)) _

/-- The two managers agree on everything the throttle reads or writes. -/
structure SameThrottle (m m' : AgentLoopManager) : Prop where
  counter : m'.requestCounter = m.requestCounter
  initial : m'.initialPsVersion = m.initialPsVersion
  held : m'.held = m.held
  queue : m'.trainDataQueue = m.trainDataQueue
  running : m'.runningLoop = m.runningLoop

theorem sameThrottle_tripRefillBreaker (m : AgentLoopManager) (fault : RefillFault) :
    SameThrottle m (m.tripRefillBreaker fault) := by
  unfold AgentLoopManager.tripRefillBreaker
  split <;> exact ⟨rfl, rfl, rfl, rfl, rfl⟩

theorem sameThrottle_recordGroupFailure (cfg : DispatchConfig) (m : AgentLoopManager) :
    SameThrottle m (m.recordGroupFailure cfg) := by
  unfold AgentLoopManager.recordGroupFailure
  dsimp only
  split
  · obtain ⟨h1, h2, h3, h4, h5⟩ := sameThrottle_tripRefillBreaker
      { m with consecutiveGroupFailures := m.consecutiveGroupFailures + 1 }
      (.consecutiveFailures (m.consecutiveGroupFailures + 1))
    exact ⟨h1, h2, h3, h4, h5⟩
  · exact ⟨rfl, rfl, rfl, rfl, rfl⟩

theorem SameThrottle.getExpectedPsVersion {m m' : AgentLoopManager} (h : SameThrottle m m') :
    m'.getExpectedPsVersion cfg = m.getExpectedPsVersion cfg := by
  unfold AgentLoopManager.getExpectedPsVersion
  rw [h.initial, h.counter]

/-- A group that ends leaves the flight; what it counted for moves to another counter. -/
theorem length_erase_of_inFlight {p : Nat} (hp : p ∈ sys.inFlight) :
    (sys.inFlight.erase p).length + 1 = sys.inFlight.length := by
  rw [List.length_erase_of_mem hp]
  have := List.length_pos_of_mem hp
  omega

/-- A second report of a failure changes nothing. -/
theorem notifyGroupFailed_of_mem {p : Nat} (hp : p ∈ sys.manager.failedTrainGroupIds) :
    sys.notifyGroupFailed cfg p = sys := by
  unfold notifyGroupFailed
  rw [if_pos hp]

section Keeps

variable (h : sys.Accounted cfg)

include h

theorem Accounted.of_same {m : AgentLoopManager}
    (hm : SameThrottle sys.manager m) : Accounted cfg { sys with manager := m } where
  counter := hm.counter.trans h.counter
  version := by rw [h.version, hm.initial]
  consumed := h.consumed
  held := by rw [hm.held, hm.getExpectedPsVersion]; exact h.held
  queued := by rw [hm.queue]; exact h.queued
  heldData := by rw [hm.held]; exact h.heldData
  running := hm.running.trans h.running
  yields := h.yields

/-- Sending out a batch counts its groups as in flight. -/
theorem Accounted.innerDispatchData {data : TrainBatch}
    (hdata : data.rolloutN = cfg.rolloutN) : (sys.innerDispatchData data).Accounted cfg where
  counter := by
    simp only [DispatchSystem.innerDispatchData, h.counter, data.length_uids, hdata,
      List.length_append]
    ring
  version := h.version
  consumed := h.consumed
  held := by
    intro batch hbatch
    exact (h.held batch hbatch).trans (getExpectedPsVersion_mono rfl (Nat.le_add_right _ _))
  queued := h.queued
  heldData := h.heldData
  running := h.running
  yields := h.yields

/-- A refill of one slot dispatches one fresh group and never trips the breaker. -/
theorem Accounted.refillFailedGroup (hn : 0 < cfg.rolloutN) :
    (sys.refillFailedGroup cfg 1).Accounted cfg ∧
      (sys.refillFailedGroup cfg 1).inFlight.length = sys.inFlight.length + 1 ∧
      (sys.refillFailedGroup cfg 1).replaced = sys.replaced := by
  obtain ⟨data, hsample, hlen, hdata⟩ : ∃ data,
      (sys.dataProcessor.sampleTrainPrompts cfg 1).1 = some data ∧ data.prompts.length = 1 ∧
        data.rolloutN = cfg.rolloutN := by
    unfold DataProcessor.sampleTrainPrompts
    rw [if_pos h.yields]
    exact ⟨_, rfl, sys.dataProcessor.length_getTrainSampleIds cfg 1, rfl⟩
  have hyields : (sys.dataProcessor.sampleTrainPrompts cfg 1).2.yieldsData = true := by
    unfold DataProcessor.sampleTrainPrompts
    rw [if_pos h.yields]
    exact h.yields
  have huids : data.uids.length = (cfg.rolloutN - 1) + 1 := by
    rw [data.length_uids, hlen, hdata]
    omega
  have hretry : sys.retryData cfg 1 = ((cfg.rolloutN - 1) + 1,
      { sys with dataProcessor :=
        (sys.dataProcessor.sampleTrainPrompts cfg 1).2 }.innerDispatchData data) := by
    unfold DispatchSystem.retryData
    rw [if_neg (by rw [h.running]; simp), if_neg (by simp), ← huids]
    rcases hs : sys.dataProcessor.sampleTrainPrompts cfg 1 with ⟨found, dp⟩
    rw [hs] at hsample
    obtain rfl : found = some data := hsample
    rfl
  have heq : sys.refillFailedGroup cfg 1 = { sys with dataProcessor :=
      (sys.dataProcessor.sampleTrainPrompts cfg 1).2 }.innerDispatchData data := by
    unfold DispatchSystem.refillFailedGroup
    rw [hretry]
  have hdrawn : Accounted cfg { sys with dataProcessor :=
      (sys.dataProcessor.sampleTrainPrompts cfg 1).2 } := { h with yields := hyields }
  rw [heq]
  refine ⟨hdrawn.innerDispatchData hdata, ?_, rfl⟩
  simp only [DispatchSystem.innerDispatchData, List.length_append, hlen]

theorem Accounted.replaceGroup (hn : 0 < cfg.rolloutN) {p : Nat}
    (hp : p ∈ sys.inFlight) : (sys.replaceGroup cfg p).Accounted cfg ∧
      (sys.replaceGroup cfg p).inFlight.length = sys.inFlight.length ∧
      (sys.replaceGroup cfg p).replaced = sys.replaced + 1 := by
  have hlen := length_erase_of_inFlight hp
  have hlost : Accounted cfg { sys with
      inFlight := sys.inFlight.erase p, replaced := sys.replaced + 1 } :=
    { h with
      counter := by
        rw [h.counter, ← hlen]
        ring }
  obtain ⟨hacc, hflight, hreplaced⟩ := hlost.refillFailedGroup hn
  exact ⟨hacc, hflight.trans hlen, hreplaced⟩

theorem Accounted.groupSucceeded {p : Nat} (hp : p ∈ sys.inFlight) :
    (sys.groupSucceeded p).Accounted cfg := by
  have hlen := length_erase_of_inFlight hp
  have hdone : Accounted cfg { sys with
      inFlight := sys.inFlight.erase p, succeeded := sys.succeeded + 1 } :=
    { h with
      counter := by
        rw [h.counter, ← hlen]
        ring
      consumed := h.consumed.trans (Nat.le_succ _) }
  exact hdone.of_same ⟨rfl, rfl, rfl, rfl, rfl⟩

theorem Accounted.pushVersion
    (hbuffer : (sys.consumed + 1) * cfg.stalenessBufferEntries ≤ sys.succeeded) :
    sys.pushVersion.Accounted cfg :=
  { h with
    version := by
      show sys.psVersion + 1 = _
      rw [h.version]
      rfl
    consumed := hbuffer }

theorem Accounted.putData (batchSize : Option Nat) : (sys.putData cfg batchSize).Accounted cfg := by
  cases batchSize with
  | none =>
      refine { h with queued := ?_ }
      intro data hdata
      rcases List.mem_append.mp hdata with hdata | hdata
      · exact h.queued data hdata
      · simp at hdata
  | some size =>
      refine { h with queued := ?_ }
      intro data hdata
      rcases List.mem_append.mp hdata with hdata | hdata
      · exact h.queued data hdata
      · simp only [List.mem_singleton, Option.some.injEq] at hdata
        rw [hdata]

/-- The loop lets go of the batch it held, whatever version it now knows. -/
theorem Accounted.release (tag : Nat) : Accounted cfg { sys with
    manager := { sys.manager with held := none, currPsVersionTag := tag } } :=
  ⟨h.counter, h.version, h.consumed, nofun, h.queued, nofun, h.running, h.yields⟩

theorem Accounted.trainDispatchData : (sys.trainDispatchData cfg).Accounted cfg := by
  unfold DispatchSystem.trainDispatchData
  cases hheld : sys.manager.held with
  | some batch =>
      have hdata := h.heldData batch hheld
      dsimp only
      split
      · split
        · exact h
        · exact (h.release batch.expectedPsVersion).innerDispatchData hdata
      · exact (h.release sys.manager.currPsVersionTag).innerDispatchData hdata
  | none =>
      dsimp only
      split
      · exact h
      · cases hqueue : sys.manager.trainDataQueue with
        | nil => exact h
        | cons first rest =>
            have hrest : ∀ data, some data ∈ rest → data.rolloutN = cfg.rolloutN :=
              fun data hmem => h.queued data (by rw [hqueue]; exact List.mem_cons_of_mem _ hmem)
            cases first with
            | none =>
                exact { h with queued := hrest }
            | some data =>
                have hfirst : data.rolloutN = cfg.rolloutN :=
                  h.queued data (by rw [hqueue]; exact List.mem_cons_self)
                refine { h with queued := hrest, held := ?_, heldData := ?_ }
                · intro batch hbatch
                  obtain rfl := Option.some.inj hbatch
                  exact le_rfl
                · intro batch hbatch
                  obtain rfl := Option.some.inj hbatch
                  exact hfirst

theorem Accounted.notifyGroupFailed (hn : 0 < cfg.rolloutN) {p : Nat}
    (hp : p ∈ sys.inFlight) (hnew : p ∉ sys.manager.failedTrainGroupIds) :
    (sys.notifyGroupFailed cfg p).Accounted cfg ∧
      (sys.notifyGroupFailed cfg p).replaced = sys.replaced + 1 := by
  have hrecorded : SameThrottle sys.manager (AgentLoopManager.recordGroupFailure
      { sys.manager with failedTrainGroupIds := sys.manager.failedTrainGroupIds.add p } cfg) := by
    obtain ⟨h1, h2, h3, h4, h5⟩ := sameThrottle_recordGroupFailure cfg
      { sys.manager with failedTrainGroupIds := sys.manager.failedTrainGroupIds.add p }
    exact ⟨h1, h2, h3, h4, h5⟩
  obtain ⟨hacc, -, hreplaced⟩ := (h.of_same hrecorded).replaceGroup hn hp
  unfold DispatchSystem.notifyGroupFailed
  rw [if_neg hnew]
  exact ⟨hacc, hreplaced⟩

/-- One event: the accounts stay right, and only a lost group adds a replacement. -/
theorem Accounted.step (hn : 0 < cfg.rolloutN) {a : Action}
    (ha : sys.Protocol cfg a) {sys' : DispatchSystem} (hexec : exec cfg sys a = .ok sys') :
    sys'.Accounted cfg ∧
      (sys'.replaced = sys.replaced ∨ sys.Loses a ∧ sys'.replaced = sys.replaced + 1) := by
  cases a with
  | putData batchSize =>
      cases hexec
      refine ⟨h.putData batchSize, Or.inl ?_⟩
      cases batchSize <;> rfl
  | trainDispatch =>
      cases hexec
      refine ⟨h.trainDispatchData, Or.inl ?_⟩
      unfold DispatchSystem.trainDispatchData
      repeat' split
      all_goals rfl
  | groupSucceeded p =>
      cases hexec
      exact ⟨h.groupSucceeded ha, Or.inl rfl⟩
  | groupFailed p =>
      cases hexec
      by_cases hmem : p ∈ sys.manager.failedTrainGroupIds
      · rw [notifyGroupFailed_of_mem hmem]
        exact ⟨h, Or.inl rfl⟩
      · obtain ⟨hacc, hreplaced⟩ := h.notifyGroupFailed hn (ha.resolve_right hmem) hmem
        exact ⟨hacc, Or.inr ⟨hmem, hreplaced⟩⟩
  | groupFiltered p =>
      cases hexec
      obtain ⟨hacc, -, hreplaced⟩ := h.replaceGroup hn ha
      exact ⟨hacc, Or.inr ⟨trivial, hreplaced⟩⟩
  | pushVersion =>
      cases hexec
      exact ⟨h.pushVersion ha, Or.inl rfl⟩

end Keeps

theorem accounted_start (cfg : DispatchConfig) (version : Nat) :
    (start cfg version).Accounted cfg where
  counter := by simp [start]
  version := rfl
  consumed := by simp [start]
  held := nofun
  queued := nofun
  heldData := nofun
  running := rfl
  yields := rfl

/-- In a quiescent state the throttle asks for a version the server has reached exactly when
the replaced groups, with the groups of the open buffer, fill no buffer beyond the ones the
dispatch may run ahead. -/
theorem Accounted.expected_le_iff (h : sys.Accounted cfg) (hcfg : cfg.Plain)
    (hquiet : sys.Quiescent cfg) :
    sys.manager.getExpectedPsVersion cfg ≤ sys.psVersion ↔
      sys.succeeded % cfg.stalenessBufferEntries + sys.replaced <
        (cfg.effectiveStaleness + 1) * cfg.stalenessBufferEntries := by
  obtain ⟨hflight, hopen⟩ := hquiet
  have hE := hcfg.entries_pos
  have hsize : cfg.bufferSize = cfg.stalenessBufferEntries * cfg.rolloutN := by
    unfold DispatchConfig.bufferSize
    rw [if_neg (by rw [hcfg.noRedundancy]; simp)]
  -- the requests of a group cancel, so the throttle counts groups
  have hexpected : sys.manager.getExpectedPsVersion cfg = sys.manager.initialPsVersion +
      (sys.succeeded + sys.replaced - cfg.effectiveStaleness * cfg.stalenessBufferEntries) /
        cfg.stalenessBufferEntries := by
    unfold AgentLoopManager.getExpectedPsVersion
    rw [h.counter, hflight, hsize, List.length_nil, Nat.zero_add, ← Nat.mul_assoc,
      ← Nat.sub_mul, Nat.mul_div_mul_right _ _ hcfg.rolloutN_pos]
  -- all complete buffers are consumed
  have hconsumed : sys.succeeded / cfg.stalenessBufferEntries = sys.consumed :=
    Nat.div_eq_of_lt_le h.consumed hopen
  have hsplit := Nat.div_add_mod sys.succeeded cfg.stalenessBufferEntries
  rw [hconsumed] at hsplit
  rw [hexpected, h.version, Nat.add_le_add_iff_left, ← Nat.lt_succ_iff,
    Nat.div_lt_iff_lt_mul hE, Nat.succ_mul, Nat.add_mul, Nat.one_mul]
  rw [Nat.mul_comm] at hsplit
  omega

/-- The accounts of a run within the allowance, with the bound on its replacements. -/
theorem Accounted.step_within (hcfg : cfg.Plain) {a : Action} {sys' : DispatchSystem}
    (h : sys.Accounted cfg ∧
      sys.replaced ≤ cfg.effectiveStaleness * cfg.stalenessBufferEntries)
    (ha : sys.WithinAllowance cfg a) (hexec : exec cfg sys a = .ok sys') :
    sys'.Accounted cfg ∧
      sys'.replaced ≤ cfg.effectiveStaleness * cfg.stalenessBufferEntries := by
  obtain ⟨hacc, hbound⟩ := h
  obtain ⟨hprotocol, hallowance⟩ := ha
  obtain ⟨hacc', hreplaced⟩ := hacc.step hcfg.rolloutN_pos hprotocol hexec
  refine ⟨hacc', ?_⟩
  rcases hreplaced with hsame | ⟨hloses, hmore⟩
  · rw [hsame]
    exact hbound
  · rw [hmore]
    exact hallowance hloses

/-- **The dispatch throttle.** In a run that loses groups only within the allowance, a
quiescent state never leaves the dispatch loop waiting: neither the version the throttle asks
for nor the one a held batch waits for is ahead of the server. In any run, a quiescent state
has this property exactly when its replaced groups, with the groups of the open buffer, stay
below one buffer more than the dispatch may run ahead. -/
theorem throttle_run (cfg : DispatchConfig) (hcfg : cfg.Plain) (version : Nat)
    {sys : DispatchSystem} (hquiet : sys.Quiescent cfg) :
    (Run.Reachable (exec cfg) (WithinAllowance cfg) (start cfg version) sys →
      sys.manager.getExpectedPsVersion cfg ≤ sys.psVersion ∧
        ∀ batch ∈ sys.manager.held, batch.expectedPsVersion ≤ sys.psVersion) ∧
    (Run.Reachable (exec cfg) (Protocol cfg) (start cfg version) sys →
      (sys.manager.getExpectedPsVersion cfg ≤ sys.psVersion ↔
        sys.succeeded % cfg.stalenessBufferEntries + sys.replaced <
          (cfg.effectiveStaleness + 1) * cfg.stalenessBufferEntries)) := by
  constructor
  · intro hrun
    obtain ⟨hacc, hbound⟩ := hrun.invariant
      (P := fun s => s.Accounted cfg ∧
        s.replaced ≤ cfg.effectiveStaleness * cfg.stalenessBufferEntries)
      ⟨accounted_start cfg version, Nat.zero_le _⟩
      (fun _ _ _ h ha hexec => Accounted.step_within hcfg h ha hexec)
    have hmod := Nat.mod_lt sys.succeeded hcfg.entries_pos
    have hexpected : sys.manager.getExpectedPsVersion cfg ≤ sys.psVersion := by
      rw [hacc.expected_le_iff hcfg hquiet, Nat.add_mul, Nat.one_mul]
      omega
    exact ⟨hexpected, fun batch hbatch => (hacc.held batch hbatch).trans hexpected⟩
  · intro hrun
    have hacc := hrun.invariant (accounted_start cfg version)
      fun _ _ _ h ha hexec => (h.step hcfg.rolloutN_pos ha hexec).1
    exact hacc.expected_le_iff hcfg hquiet

/-- One entry for each buffer, two requests for each group. -/
def smallConfig (staleness : Nat) : DispatchConfig where
  redundantEnable := false
  redundantGlobalBatchSize := 0
  stalenessBufferEntries := 1
  rolloutN := 2
  staleness := staleness
  maxDispatchAhead := none
  refillFailureThreshold := 32
  maxTrainId := 1000

/-- The first group fails, its replacement succeeds and is trained on, and the next batch is
taken from the queue. -/
def oneReplacement : List Action :=
  [.putData (some 1), .trainDispatch, .trainDispatch, .groupFailed 0, .groupFailed 0,
   .groupSucceeded 1, .pushVersion, .putData (some 1), .trainDispatch]

theorem throttle_run_one_replacement : ∃ sys,
    Run.Reachable (exec (smallConfig 1)) (WithinAllowance (smallConfig 1))
      (start (smallConfig 1) 0) sys ∧
    sys.replaced = 1 ∧ sys.manager.held.isSome = true ∧
    sys.manager.getExpectedPsVersion (smallConfig 1) ≤ sys.psVersion := by
  obtain ⟨sys, hrun, hp⟩ : ∃ sys,
      Run.Reachable (exec (smallConfig 1)) (WithinAllowance (smallConfig 1))
        (start (smallConfig 1) 0) sys ∧
      decide (sys.replaced = 1 ∧ sys.manager.held.isSome = true ∧
        sys.Quiescent (smallConfig 1)) = true :=
    Run.exists_reachable_of_perform (l := oneReplacement) (by decide +kernel)
  obtain ⟨hreplaced, hheld, hquiet⟩ := of_decide_eq_true hp
  exact ⟨sys, hrun, hreplaced, hheld,
    ((throttle_run _ ⟨rfl, by decide, by decide⟩ 0 hquiet).1 hrun).1⟩

/-- Without staleness the same run ends in a state in which nothing is in flight, the one
buffer of succeeded groups has been trained on, and the dispatch loop polls version 1 for
version 2. -/
theorem throttle_polls_forever : ∃ sys,
    Run.Reachable (exec (smallConfig 0)) (Protocol (smallConfig 0)) (start (smallConfig 0) 0)
      sys ∧
    sys.Quiescent (smallConfig 0) ∧ sys.psVersion = 1 ∧
    sys.manager.getExpectedPsVersion (smallConfig 0) = 2 ∧
    sys.manager.held.map HeldBatch.expectedPsVersion = some 2 ∧
    (sys.trainDispatchData (smallConfig 0)).inFlight = [] := by
  obtain ⟨sys, hrun, hp⟩ : ∃ sys,
      Run.Reachable (exec (smallConfig 0)) (Protocol (smallConfig 0)) (start (smallConfig 0) 0)
        sys ∧
      decide (sys.Quiescent (smallConfig 0) ∧ sys.psVersion = 1 ∧
        sys.manager.getExpectedPsVersion (smallConfig 0) = 2 ∧
        sys.manager.held.map HeldBatch.expectedPsVersion = some 2 ∧
        (sys.trainDispatchData (smallConfig 0)).inFlight = []) = true :=
    Run.exists_reachable_of_perform (l := oneReplacement) (by decide +kernel)
  exact ⟨sys, hrun, of_decide_eq_true hp⟩

end DispatchSystem

end Psrl
