import Mathlib.Data.Finset.Insert
import Psrl.Lib.Python
import Psrl.Lib.Run

/-!
# Psrl.Reward.RewardManager

**The reward manager** (`workers/reward/reward_manager.py`) with reward workers and
`launch_reward_fn_async`: who waits for the reward of a request, and what resolves the wait.

A request has one key, or one for each of its trajectories. `compute_score` starts an attempt and
makes a future for every key; a worker's result is checked against the attempt that is recorded
for its request, and after an RPC to the PSManager it resolves the futures; `ABORT` resolves them
with the default reward; `wait_for_reward_of_requests` takes a stored reward or waits for the
future of a key, which it creates if there is none.

The tasks run on one event loop. The steps of the model are what they do between two awaits:
`compute_score` for one request after its RPC, the check of a batch of results, the delivery of
one of them after the RPC, the abort of one request, and the two halves of a wait. The loops over
requests and results are taken apart into single steps, which allows more interleavings than the
code has. An outcome carries the attempt it comes from, which the code does not read.
-/

namespace Psrl

open Py

/-- A key of a request: `f"{request_id}_{i}"`, or `str(request_id)` for a single trajectory. -/
structure RewardKey where
  requestId : Nat
  trajectory : Option Nat
  deriving Repr, DecidableEq

/-- The keys of a request. -/
def rewardKeys (requestId nTrajectory : Nat) : List RewardKey :=
  if nTrajectory > 1 then (List.range nTrajectory).map fun i => ⟨requestId, some i⟩
  else [⟨requestId, none⟩]

theorem requestId_of_mem_rewardKeys {requestId nTrajectory : Nat} {key : RewardKey}
    (h : key ∈ rewardKeys requestId nTrajectory) : key.requestId = requestId := by
  unfold rewardKeys at h
  split at h
  · obtain ⟨i, -, rfl⟩ := List.mem_map.mp h
    rfl
  · rw [List.mem_singleton.mp h]

theorem rewardKeys_ne_nil (requestId nTrajectory : Nat) :
    rewardKeys requestId nTrajectory ≠ [] := by
  unfold rewardKeys
  split
  · rename_i h
    rw [Ne, List.map_eq_nil_iff, List.range_eq_nil]
    exact Nat.ne_of_gt (Nat.lt_of_succ_lt h)
  · exact List.cons_ne_nil _ _

/-- What a wait for a key is resolved with. -/
inductive Outcome (ρ : Type)
  /-- the result of an attempt, `None` if the worker failed -/
  | result (attemptId : Nat) (reward : Option ρ)
  /-- `None`, because the request was aborted -/
  | aborted
  /-- the reward of a padding key -/
  | padding
  deriving DecidableEq

/-- A result of a reward worker. -/
structure RewardResult (ρ : Type) where
  requestId : Nat
  requestKeys : List RewardKey
  attemptId : Nat
  isValidate : Bool
  /-- `result`, or `None` if there is an `error` -/
  reward : Option ρ
  deriving DecidableEq

/-- A call of `wait_for_reward_of_requests`: the keys it writes, marked if they are padding, what
it took for them when it began, and the futures it waits for. -/
structure RewardWait (ρ : Type) where
  keys : List (RewardKey × Bool)
  requestKeyToReward : Dict RewardKey (Outcome ρ)
  futuresToWait : Dict RewardKey Nat
  returned : Option (List (RewardKey × Outcome ρ))

/-- A delivery: the request, the attempt and its reward, and the attempt that was the latest one
at that moment, `none` if the request had been aborted since. -/
structure Delivery (ρ : Type) where
  requestId : Nat
  attemptId : Nat
  reward : Option ρ
  latest : Option Nat
  deriving DecidableEq

/-- `RewardLoopManager`. -/
structure RewardManager (ρ : Type) where
  requestIdToNTrajectory : Dict Nat Nat
  requestKeyToFuture : Dict RewardKey Nat
  requestKeyToReward : Dict RewardKey (Outcome ρ)
  requestKeyToAttempt : Dict RewardKey Nat
  attemptCounter : Nat
  /-- the futures by number, with what they were resolved with -/
  futures : Nat → Option (Outcome ρ)
  nextFuture : Nat
  /-- the results that have been checked and wait for the RPC -/
  checked : List (RewardResult ρ)
  calls : List (RewardWait ρ)
  /-- history: the key a future was made for -/
  futureKey : Nat → RewardKey
  /-- history: the latest attempt of a request, `none` if it was aborted since -/
  latest : Nat → Option Nat
  /-- history: the attempts that were started, with their numbers of trajectories -/
  started : List (Nat × Nat × Nat)
  /-- history: the requests that were aborted at some time -/
  aborted : Finset Nat
  deliveries : List (Delivery ρ)

namespace RewardManager

variable {ρ : Type} (s : RewardManager ρ)

def init : RewardManager ρ where
  requestIdToNTrajectory := .empty
  requestKeyToFuture := .empty
  requestKeyToReward := .empty
  requestKeyToAttempt := .empty
  attemptCounter := 0
  futures _ := none
  nextFuture := 0
  checked := []
  calls := []
  futureKey _ := ⟨0, none⟩
  latest _ := none
  started := []
  aborted := ∅
  deliveries := []

/-- `if not fut.done(): fut.set_result(outcome)`. -/
def setResult (fut : Nat) (outcome : Outcome ρ) : RewardManager ρ :=
  match s.futures fut with
  | some _ => s
  | none => { s with futures := Function.update s.futures fut (some outcome) }

/-- `self.request_key_to_future[key] = create_future()`. -/
def newFuture (key : RewardKey) : RewardManager ρ :=
  { s with
    requestKeyToFuture := s.requestKeyToFuture.set key s.nextFuture
    nextFuture := s.nextFuture + 1
    futureKey := Function.update s.futureKey s.nextFuture key }

/-- `self.request_key_to_reward[key] = outcome`. -/
def store (key : RewardKey) (outcome : Outcome ρ) : RewardManager ρ :=
  { s with requestKeyToReward := s.requestKeyToReward.set key outcome }

/-- `self.request_key_to_future.pop(key, None)`. -/
def popFuture (key : RewardKey) : RewardManager ρ :=
  { s with requestKeyToFuture := s.requestKeyToFuture.erase key }

/-! ### `compute_score` -/

/-- A future for a key that has none, or one that is done. -/
def ensureFuture (key : RewardKey) : RewardManager ρ :=
  match s.requestKeyToFuture.get? key with
  | some fut => if (s.futures fut).isSome then s.newFuture key else s
  | none => s.newFuture key

/-- The future of a key is taken away and resolved with `None`, which is stored as well. -/
def giveUpKey (key : RewardKey) : RewardManager ρ :=
  let s := match s.requestKeyToFuture.get? key with
    | some fut => s.setResult fut .aborted
    | none => s
  (s.popFuture key).store key .aborted

/-- One key of a request whose status is `REWARD_RUNNING`. -/
def startKey (attemptId : Nat) (s : RewardManager ρ) (key : RewardKey) : RewardManager ρ :=
  let s := s.ensureFuture key
  { s with requestKeyToAttempt := s.requestKeyToAttempt.set key attemptId }

/-- `compute_score` for one request, after `update_request_status` has answered; the PSManager
refuses requests that were aborted. -/
def computeScore (requestId nTrajectory : Nat) (statusOk : Bool) : RewardManager ρ :=
  let keys := rewardKeys requestId nTrajectory
  let attemptId := s.attemptCounter + 1
  let s := { s with
    requestIdToNTrajectory := s.requestIdToNTrajectory.set requestId nTrajectory
    attemptCounter := attemptId }
  if statusOk = true then
    keys.foldl (startKey attemptId) { s with
      latest := Function.update s.latest requestId (some attemptId)
      started := s.started ++ [(requestId, attemptId, nTrajectory)] }
  else
    keys.foldl giveUpKey { s with
      latest := Function.update s.latest requestId none
      aborted := insert requestId s.aborted }

/-! ### Results -/

/-- The result is one of the attempt that is recorded for its first key. -/
def isExpected (result : RewardResult ρ) : Bool :=
  match result.requestKeys with
  | [] => false
  | key :: _ => s.requestKeyToAttempt.get? key = some result.attemptId

/-- `_handle_reward_results` up to its first RPC: stale results are dropped; those of training
come before those of validation. -/
def handleRewardResults (results : List (RewardResult ρ)) : RewardManager ρ :=
  let valid := results.filter s.isExpected
  { s with
    checked := valid.filter (fun result => !result.isValidate) ++
      valid.filter (fun result => result.isValidate) }

/-- The future of the key is resolved; without one the outcome is stored. -/
def resolveKey (outcome : Outcome ρ) (s : RewardManager ρ) (key : RewardKey) : RewardManager ρ :=
  match s.requestKeyToFuture.get? key with
  | some fut => s.setResult fut outcome
  | none => s.store key outcome

/-- One key of `_set_reward_for_request_keys`. -/
def deliverKey (outcome : Outcome ρ) (s : RewardManager ρ) (key : RewardKey) : RewardManager ρ :=
  resolveKey outcome { s with requestKeyToAttempt := s.requestKeyToAttempt.erase key } key

/-- `_set_reward_for_request_keys`. -/
def setRewardForRequestKeys (result : RewardResult ρ) : RewardManager ρ :=
  result.requestKeys.foldl (deliverKey (.result result.attemptId result.reward)) { s with
    deliveries := s.deliveries ++
      [⟨result.requestId, result.attemptId, result.reward, s.latest result.requestId⟩] }

/-- The next checked result is delivered after the RPC. -/
def deliver : RewardManager ρ :=
  match s.checked with
  | [] => s
  | result :: rest => { s with checked := rest }.setRewardForRequestKeys result

/-! ### `ABORT` -/

def abortKey (key : RewardKey) : RewardManager ρ :=
  let s := s.giveUpKey key
  { s with requestKeyToAttempt := s.requestKeyToAttempt.erase key }

/-- The keys `ABORT` goes through. A request without a recorded number of trajectories counts as
one with a single trajectory. -/
def abortKeys (requestId : Nat) : List RewardKey :=
  rewardKeys requestId ((s.requestIdToNTrajectory.get? requestId).getD 1)

/-- `ABORT` for one request. -/
def abort (requestId : Nat) : RewardManager ρ :=
  (s.abortKeys requestId).foldl abortKey { s with
    requestIdToNTrajectory := s.requestIdToNTrajectory.erase requestId
    latest := Function.update s.latest requestId none
    aborted := insert requestId s.aborted }

/-! ### `wait_for_reward_of_requests` -/

/-- One key of a wait. -/
def waitKey (state : RewardManager ρ × RewardWait ρ) (key : RewardKey × Bool) :
    RewardManager ρ × RewardWait ρ :=
  let (s, call) := state
  if key.2 = true then
    (s, { call with requestKeyToReward := call.requestKeyToReward.set key.1 .padding })
  else
    match s.requestKeyToReward.get? key.1 with
    | some outcome =>
        ({ s with requestKeyToReward := s.requestKeyToReward.erase key.1 },
          { call with requestKeyToReward := call.requestKeyToReward.set key.1 outcome })
    | none =>
        match s.requestKeyToFuture.get? key.1 with
        | some fut => (s, { call with futuresToWait := call.futuresToWait.set key.1 fut })
        | none => (s.newFuture key.1,
            { call with futuresToWait := call.futuresToWait.set key.1 s.nextFuture })

/-- A wait up to its `gather`. -/
def startWait (keys : List (RewardKey × Bool)) : RewardManager ρ × RewardWait ρ :=
  keys.foldl waitKey (s, ⟨keys, .empty, .empty, none⟩)

/-- What a call has for a key: the result of its future goes before what it took at the start. -/
def received (call : RewardWait ρ) (key : RewardKey) : Option (Outcome ρ) :=
  match call.futuresToWait.get? key with
  | some fut => s.futures fut
  | none => call.requestKeyToReward.get? key

/-- The end of a wait: the futures of all its keys are taken away. -/
def finishWait (call : RewardWait ρ) : RewardManager ρ × RewardWait ρ :=
  (call.keys.foldl (fun s key => s.popFuture key.1) s,
    { call with returned := some (call.keys.filterMap fun key =>
        (s.received call key.1).map fun outcome => (key.1, outcome)) })

/-- `wait_for_reward_of_requests`: without a future to wait for it does not suspend. -/
def waitForRewardOfRequests (keys : List (RewardKey × Bool)) : RewardManager ρ :=
  let (s, call) := s.startWait keys
  if call.futuresToWait.items = [] then
    let (s, call) := s.finishWait call
    { s with calls := s.calls ++ [call] }
  else { s with calls := s.calls ++ [call] }

def endWait (i : Nat) : RewardManager ρ :=
  match s.calls[i]? with
  | none => s
  | some call =>
      let (s, call) := s.finishWait call
      { s with calls := s.calls.set i call }

/-! ### Runs -/

inductive Action (ρ : Type)
  | compute (requestId nTrajectory : Nat) (statusOk : Bool)
  /-- `_collect_results` hands a batch of results over -/
  | collect (results : List (RewardResult ρ))
  | deliver
  | abort (requestId : Nat)
  | wait (keys : List (RewardKey × Bool))
  /-- all futures of a wait are done, and it goes on -/
  | endWait (call : Nat)

def exec : Action ρ → Except PyError (RewardManager ρ)
  | .compute requestId nTrajectory statusOk =>
      .ok (s.computeScore requestId nTrajectory statusOk)
  | .collect results => .ok (s.handleRewardResults results)
  | .deliver => .ok s.deliver
  | .abort requestId => .ok (s.abort requestId)
  | .wait keys => .ok (s.waitForRewardOfRequests keys)
  | .endWait i => .ok (s.endWait i)

/-- All futures a call waits for are done. -/
def CanReturn (call : RewardWait ρ) : Prop :=
  call.returned.isNone = true ∧
    ∀ item ∈ call.futuresToWait.items, (s.futures item.2).isSome = true

instance (s : RewardManager ρ) (call : RewardWait ρ) : Decidable (s.CanReturn call) :=
  inferInstanceAs (Decidable (_ ∧ _))

/-- Results are those of started attempts, and a batch is collected after the last one was
delivered. -/
def Allowed : Action ρ → Prop
  | .collect results => s.checked.isEmpty = true ∧ ∀ result ∈ results,
      ∃ attempt ∈ s.started, attempt.1 = result.requestId ∧ attempt.2.1 = result.attemptId ∧
        result.requestKeys = rewardKeys result.requestId attempt.2.2
  | .endWait i => ∃ call ∈ s.calls[i]?, s.CanReturn call
  | _ => True

instance (s : RewardManager ρ) (a : Action ρ) : Decidable (s.Allowed a) := by
  cases a <;> unfold Allowed <;> infer_instance

end RewardManager

end Psrl
