import Mathlib.Data.Fintype.Card
import Psrl.Lib.Python
import Psrl.Lib.Run

/-!
# Psrl.Weights.PushPull

Pushing and pulling weights over NIXL (`psrl/workers/train`, `psrl/workers/gen`, and the
push and pull locks of `PSManager`).

After a training step every train rank runs `push_model`: it writes its planned shards into
the train buffers of the parameter server, has them copied to the generation buffers, and
meets the other ranks at a barrier; then the representative rank records the new version. A
replica reads all its shards from the generation buffers and then has the current version
recorded as its own. The exclusive push lock is taken by the representative rank only, the
shared pull lock by every replica.

A shard is named by the training step whose weights it holds. The processes are interleaved
step by step; the shards of one process move in any order, since NIXL transfers are posted
and awaited in groups. `Guarded` asks that the other ranks write only while the lock is held;
the code does not enforce it.
-/

namespace Psrl

open Py

/-! ### The push and pull locks of the manager -/

structure ModelLock where
  exclusivePushLocked : Bool := false
  sharedPullCount : Nat := 0
  deriving Repr, DecidableEq

namespace ModelLock

/-- `_try_acquire_exclusive_push_lock`. -/
def tryAcquireExclusivePushLock (lock : ModelLock) : Bool × ModelLock :=
  if lock.exclusivePushLocked = true ∨ 0 < lock.sharedPullCount then (false, lock)
  else (true, { lock with exclusivePushLocked := true })

/-- `_release_exclusive_push_lock`. -/
def releaseExclusivePushLock (lock : ModelLock) : Except PyError ModelLock := do
  pyAssert (lock.exclusivePushLocked = true) "Exclusive push lock is not locked"
  .ok { lock with exclusivePushLocked := false }

/-- `_try_acquire_shared_pull_lock`. -/
def tryAcquireSharedPullLock (lock : ModelLock) : Bool × ModelLock :=
  if lock.exclusivePushLocked = true then (false, lock)
  else (true, { lock with sharedPullCount := lock.sharedPullCount + 1 })

/-- `_release_shared_pull_lock`. -/
def releaseSharedPullLock (lock : ModelLock) : Except PyError ModelLock := do
  pyAssert (0 < lock.sharedPullCount) "Shared pull lock count is already 0"
  .ok { lock with sharedPullCount := lock.sharedPullCount - 1 }

end ModelLock

/-! ### The processes -/

/-- Who moves which shards. Every shard a replica reads is written by some rank. -/
structure TransferPlan (Rank Shard Replica : Type) where
  representative : Rank
  push : Rank → Finset Shard
  pull : Replica → Finset Shard
  trainGenModelShare : Bool
  covered : ∀ p, ∀ s ∈ pull p, ∃ r, s ∈ push r

/-- Where a train rank is in `update_actor`. -/
inductive RankPhase (Shard : Type)
  /-- between two calls -/
  | idle
  /-- the training step is over -/
  | trained
  /-- inside the exclusive push context -/
  | entered
  /-- in the wait thread, with the shards written and copied so far -/
  | pushing (nextVersion : Nat) (written copied : Finset Shard)
  | atBarrier (nextVersion : Nat)
  | passedBarrier (nextVersion : Nat)
  /-- the wait thread has ended -/
  | completed
  deriving DecidableEq

/-- Where a replica is in `pull_model_for_sync`. -/
inductive PullPhase
  | idle
  | reading
  | recorded
  deriving DecidableEq

/-- A replica: what its current or last pull read, and the version the manager records. -/
structure PullState (Shard : Type) where
  phase : PullPhase
  reads : Shard → Option Nat
  version : Nat

structure WeightSystem (Rank Shard Replica : Type) where
  lock : ModelLock
  modelVersion : Nat
  /-- the number of training steps -/
  step : Nat
  trainBuffer : Shard → Nat
  genBuffer : Shard → Nat
  rank : Rank → RankPhase Shard
  replica : Replica → PullState Shard

namespace RankPhase

variable {Shard : Type}

/-- The rank has reached the barrier of the current training step. -/
@[simp, grind] def HasArrived : RankPhase Shard → Prop
  | atBarrier _ | passedBarrier _ | completed | idle => True
  | _ => False

/-- The rank has passed the barrier of the current training step. -/
@[simp, grind] def HasPassed : RankPhase Shard → Prop
  | passedBarrier _ | completed | idle => True
  | _ => False

/-- The rank runs its wait thread and has not reached the barrier. -/
@[simp, grind] def IsPushing : RankPhase Shard → Prop
  | pushing _ _ _ => True
  | _ => False

/-- The shards the rank has written in this push. -/
@[simp, grind] def written : RankPhase Shard → Finset Shard
  | pushing _ written _ => written
  | _ => ∅

/-- The shards of the rank that were copied in this push. -/
@[simp, grind] def copied : RankPhase Shard → Finset Shard
  | pushing _ _ copied => copied
  | _ => ∅

/-- `next_ps_model_version` of the running push. -/
@[simp, grind] def nextVersion? : RankPhase Shard → Option Nat
  | pushing next _ _ | atBarrier next | passedBarrier next => some next
  | _ => none

instance (phase : RankPhase Shard) : Decidable phase.HasArrived := by
  cases phase <;> unfold HasArrived <;> infer_instance

instance (phase : RankPhase Shard) : Decidable phase.IsPushing := by
  cases phase <;> unfold IsPushing <;> infer_instance

variable [DecidableEq Shard]

@[simp, grind] def afterWrite (s : Shard) : RankPhase Shard → RankPhase Shard
  | pushing next written copied => pushing next (insert s written) copied
  | phase => phase

@[simp, grind] def afterCopy (s : Shard) : RankPhase Shard → RankPhase Shard
  | pushing next written copied => pushing next written (insert s copied)
  | phase => phase

end RankPhase

namespace WeightSystem

variable {Rank Shard Replica : Type}

def init : WeightSystem Rank Shard Replica where
  lock := {}
  modelVersion := 0
  step := 0
  trainBuffer := fun _ => 0
  genBuffer := fun _ => 0
  rank := fun _ => .idle
  replica := fun _ => ⟨.idle, fun _ => none, 0⟩

inductive Action (Rank Shard Replica : Type)
  /-- the driver calls `update_actor` on all ranks, which train -/
  | train
  /-- the representative rank polls the exclusive push lock -/
  | enterPush
  | startPush (r : Rank)
  | write (r : Rank) (s : Shard)
  | copy (r : Rank) (s : Shard)
  | arrive (r : Rank)
  | passBarrier (r : Rank)
  | finish (r : Rank)
  | leavePush (r : Rank)
  /-- a replica polls the shared pull lock -/
  | enterPull (p : Replica)
  | read (p : Replica) (s : Shard)
  | recordPull (p : Replica)
  | leavePull (p : Replica)

section Steps

variable [DecidableEq Rank] [DecidableEq Shard] [DecidableEq Replica]

/-- Move one rank. -/
def setRank (w : WeightSystem Rank Shard Replica) (r : Rank) (phase : RankPhase Shard) :
    WeightSystem Rank Shard Replica :=
  { w with rank := Function.update w.rank r phase }

/-- Move one replica. -/
def setReplica (w : WeightSystem Rank Shard Replica) (p : Replica) (state : PullState Shard) :
    WeightSystem Rank Shard Replica :=
  { w with replica := Function.update w.replica p state }

/-- When the program of a process takes which step. -/
def Enabled (plan : TransferPlan Rank Shard Replica) (w : WeightSystem Rank Shard Replica) :
    Action Rank Shard Replica → Prop
  | .train => ∀ r, w.rank r = .idle
  | .enterPush => w.rank plan.representative = .trained
  | .startPush r => w.rank r = if r = plan.representative then .entered else .trained
  | .write r s => (w.rank r).IsPushing ∧ s ∈ plan.push r
  | .copy r s => (w.rank r).IsPushing ∧ plan.push r ⊆ (w.rank r).written ∧ s ∈ plan.push r
  | .arrive r => (w.rank r).IsPushing ∧ plan.push r ⊆ (w.rank r).copied
  | .passBarrier r => (∃ next ∈ (w.rank r).nextVersion?, w.rank r = .atBarrier next) ∧
      ∀ r', (w.rank r').HasArrived
  | .finish r => ∃ next ∈ (w.rank r).nextVersion?, w.rank r = .passedBarrier next
  | .leavePush r => w.rank r = .completed
  | .enterPull p => (w.replica p).phase = .idle
  | .read p s => (w.replica p).phase = .reading ∧ s ∈ plan.pull p
  | .recordPull p => (w.replica p).phase = .reading ∧
      ∀ s ∈ plan.pull p, (w.replica p).reads s ≠ none
  | .leavePull p => (w.replica p).phase = .recorded

instance [Fintype Rank] (plan : TransferPlan Rank Shard Replica)
    (w : WeightSystem Rank Shard Replica) (a : Action Rank Shard Replica) :
    Decidable (w.Enabled plan a) := by
  cases a <;> unfold Enabled <;> infer_instance

/-- One step of a process. -/
def exec (plan : TransferPlan Rank Shard Replica) (w : WeightSystem Rank Shard Replica) :
    Action Rank Shard Replica → Except PyError (WeightSystem Rank Shard Replica)
  | .train => .ok { w with step := w.step + 1, rank := fun _ => .trained }
  | .enterPush =>
      let (acquired, lock) := w.lock.tryAcquireExclusivePushLock
      .ok (if acquired then { w with lock := lock }.setRank plan.representative .entered else w)
  | .startPush r => .ok (w.setRank r (.pushing (w.modelVersion + 1) ∅ ∅))
  | .write r s =>
      -- with a shared model the train buffers are the generation buffers
      .ok ({ w with
        trainBuffer := Function.update w.trainBuffer s w.step
        genBuffer := if plan.trainGenModelShare then Function.update w.genBuffer s w.step
          else w.genBuffer }.setRank r ((w.rank r).afterWrite s))
  | .copy r s =>
      .ok ({ w with
        genBuffer := if plan.trainGenModelShare then w.genBuffer
          else Function.update w.genBuffer s (w.trainBuffer s) }.setRank r
            ((w.rank r).afterCopy s))
  | .arrive r => .ok (w.setRank r (.atBarrier ((w.rank r).nextVersion?.getD 0)))
  | .passBarrier r => .ok (w.setRank r (.passedBarrier ((w.rank r).nextVersion?.getD 0)))
  | .finish r =>
      -- `push_model_state_dict_nixl` on the representative rank
      .ok ({ w with modelVersion := if r = plan.representative then
        (w.rank r).nextVersion?.getD 0 else w.modelVersion }.setRank r .completed)
  | .leavePush r =>
      if r = plan.representative then do
        let lock ← w.lock.releaseExclusivePushLock
        .ok ({ w with lock := lock }.setRank r .idle)
      else .ok (w.setRank r .idle)
  | .enterPull p =>
      let (acquired, lock) := w.lock.tryAcquireSharedPullLock
      .ok (if acquired then
        { w with lock := lock }.setReplica p ⟨.reading, fun _ => none, (w.replica p).version⟩
      else w)
  | .read p s =>
      .ok (w.setReplica p { w.replica p with
        reads := Function.update (w.replica p).reads s (some (w.genBuffer s)) })
  | .recordPull p =>
      -- `pull_model_state_dict_nixl`
      .ok (w.setReplica p { w.replica p with phase := .recorded, version := w.modelVersion })
  | .leavePull p => do
      let lock ← w.lock.releaseSharedPullLock
      .ok ({ w with lock := lock }.setReplica p { w.replica p with phase := .idle })

/-- The other ranks write only while the representative rank holds the lock. -/
def Guarded (plan : TransferPlan Rank Shard Replica) (w : WeightSystem Rank Shard Replica) :
    Action Rank Shard Replica → Prop
  | .write r _ | .copy r _ => r ≠ plan.representative → w.lock.exclusivePushLocked = true
  | _ => True

instance (plan : TransferPlan Rank Shard Replica) (w : WeightSystem Rank Shard Replica)
    (a : Action Rank Shard Replica) : Decidable (w.Guarded plan a) := by
  cases a <;> unfold Guarded <;> infer_instance

end Steps

/-! ### The invariant -/

/-- The phases in which the representative rank holds the exclusive lock. -/
@[simp, grind] def InContext : RankPhase Shard → Prop
  | .idle | .trained => False
  | _ => True

/-- The phases in which the version of the current training step is recorded. -/
@[simp, grind] def IsRecorded : RankPhase Shard → Prop
  | .idle | .completed => True
  | _ => False

variable [Fintype Replica]

/-- The replicas inside the pull context. -/
def pulling (w : WeightSystem Rank Shard Replica) : Finset Replica :=
  Finset.univ.filter fun p => (w.replica p).phase ≠ .idle

/-- What holds in every interleaving, if the shards in `UnderLock` are written while the lock is
held: outside the context these hold the recorded version, and any other shard is one training step
ahead of it at most. -/
structure Inv (plan : TransferPlan Rank Shard Replica) (UnderLock : Shard → Prop)
    (w : WeightSystem Rank Shard Replica) : Prop where
  held : w.lock.exclusivePushLocked = true ↔ InContext (w.rank plan.representative)
  count : w.lock.sharedPullCount = w.pulling.card
  exclusive : w.lock.exclusivePushLocked = true → w.lock.sharedPullCount = 0
  recorded : IsRecorded (w.rank plan.representative) → w.step = w.modelVersion
  pending : ¬ IsRecorded (w.rank plan.representative) → w.step = w.modelVersion + 1
  next : ∀ n ∈ (w.rank plan.representative).nextVersion?, n = w.step
  crossed : ∀ r, (w.rank r).HasPassed → ∀ r', (w.rank r').HasArrived
  written : ∀ r, ∀ s ∈ (w.rank r).written, w.trainBuffer s = w.step ∧
    (plan.trainGenModelShare = true → w.genBuffer s = w.step)
  copied : ∀ r, ∀ s ∈ (w.rank r).copied, w.genBuffer s = w.step
  delivered : ∀ r, (w.rank r).HasArrived → ∀ s ∈ plan.push r, w.genBuffer s = w.step
  near : ∀ r, ∀ s ∈ plan.push r, w.genBuffer s = w.modelVersion ∨ w.genBuffer s = w.step
  settled : w.lock.exclusivePushLocked = false → ∀ r, ∀ s ∈ plan.push r, UnderLock s →
    w.genBuffer s = w.modelVersion
  reads : ∀ p, (w.replica p).phase ≠ .idle → ∀ s ∈ plan.pull p, ∀ v ∈ (w.replica p).reads s,
    v = w.modelVersion ∨ v = w.modelVersion + 1 ∧ ¬ UnderLock s
  pulled : ∀ p, (w.replica p).phase = .recorded → (w.replica p).version = w.modelVersion ∧
    ∀ s ∈ plan.pull p, (w.replica p).reads s ≠ none

variable {plan : TransferPlan Rank Shard Replica} {UnderLock : Shard → Prop}
  {w w' : WeightSystem Rank Shard Replica}

theorem pulling_card_eq_zero_iff : w.pulling.card = 0 ↔ ∀ p, (w.replica p).phase = .idle := by
  simp [pulling, Finset.filter_eq_empty_iff]

/-- The action moves a shard of `UnderLock` only while the lock is held. -/
def KeepsLock (UnderLock : Shard → Prop) (w : WeightSystem Rank Shard Replica) :
    Action Rank Shard Replica → Prop
  | .write _ s | .copy _ s => UnderLock s → w.lock.exclusivePushLocked = true
  | _ => True

/-- Only the representative rank writes the shard. -/
def Alone (plan : TransferPlan Rank Shard Replica) (s : Shard) : Prop :=
  ∀ r, s ∈ plan.push r → r = plan.representative

theorem pulling_setReplica [DecidableEq Replica] {p : Replica} {state : PullState Shard} :
    (w.setReplica p state).pulling =
      if state.phase = .idle then w.pulling.erase p else insert p w.pulling := by
  ext q
  simp only [pulling, WeightSystem.setReplica]
  split <;> simp <;> grind

theorem Inv.init : Inv plan UnderLock (init : WeightSystem Rank Shard Replica) := by
  constructor <;> simp [WeightSystem.init, pulling]

section Keeps

variable (h : Inv plan UnderLock w)

include h

theorem Inv.train (hidle : ∀ r, w.rank r = .idle) :
    Inv plan UnderLock { w with step := w.step + 1, rank := fun _ => .trained } := by
  have hunlocked : w.lock.exclusivePushLocked = false := by
    simpa [hidle] using h.held
  have hstep : w.step = w.modelVersion := h.recorded (by simp [hidle])
  exact { h with
    held := by simp [hunlocked]
    recorded := by simp
    pending := by simp [hstep]
    next := by simp
    crossed := by simp
    written := by simp
    copied := by simp
    delivered := by simp
    near := fun r s hs => .inl <| by simpa [hstep] using h.near r s hs }

/-- While a push holds the lock no replica is inside its pull. -/
theorem Inv.idle_of_locked (hlocked : w.lock.exclusivePushLocked = true)
    (p : Replica) : (w.replica p).phase = .idle :=
  pulling_card_eq_zero_iff.mp (h.count.symm.trans (h.exclusive hlocked)) p

theorem Inv.unlocked_of_pulling {p : Replica} (hp : (w.replica p).phase ≠ .idle) :
    w.lock.exclusivePushLocked = false := by
  by_contra hlocked
  exact hp (h.idle_of_locked (by simpa using hlocked) p)

theorem Inv.locked_of_representative {r : Rank}
    (hpushing : (w.rank r).IsPushing) (hr : r = plan.representative) :
    w.lock.exclusivePushLocked = true := by
  rw [h.held, ← hr]
  cases hrank : w.rank r <;> simp_all

section RankSteps

variable [DecidableEq Rank]

/-- A move of one rank that changes neither the lock, the versions nor the buffers. -/
theorem Inv.setRank {r : Rank} {phase : RankPhase Shard}
    (hcontext : r = plan.representative → (InContext phase ↔ InContext (w.rank r)))
    (hrecorded : r = plan.representative → (IsRecorded phase ↔ IsRecorded (w.rank r)))
    (hnext : r = plan.representative → ∀ n ∈ phase.nextVersion?, n = w.step)
    (hpassed : phase.HasPassed → ∀ r', (w.rank r').HasArrived)
    (harrived : (w.rank r).HasArrived → phase.HasArrived)
    (hwritten : phase.written = ∅) (hcopied : phase.copied = ∅)
    (hdelivered : phase.HasArrived → ∀ s ∈ plan.push r, w.genBuffer s = w.step) :
    Inv plan UnderLock (w.setRank r phase) := by
  obtain ⟨held, count, exclusive, recorded, pending, next, crossed, written, copied, delivered,
    near, settled, reads, pulled⟩ := h
  constructor <;> simp only [WeightSystem.setRank] <;> first | assumption | grind

theorem Inv.startPush {r : Rank}
    (hr : w.rank r = if r = plan.representative then .entered else .trained) :
    Inv plan UnderLock (w.setRank r (.pushing (w.modelVersion + 1) ∅ ∅)) := by
  have hpending := h.pending
  apply h.setRank <;> grind

theorem Inv.arrive {r : Rank} (hpushing : (w.rank r).IsPushing)
    (hcopied : plan.push r ⊆ (w.rank r).copied) :
    Inv plan UnderLock (w.setRank r (.atBarrier ((w.rank r).nextVersion?.getD 0))) := by
  have hnext := h.next
  have hgen := h.copied r
  cases hrank : w.rank r with
  | pushing next written copied =>
      rw [hrank] at hgen hcopied
      apply h.setRank <;> grind
  | _ => simp [hrank] at hpushing

theorem Inv.passBarrier {r : Rank} {next : Nat}
    (hrank : w.rank r = .atBarrier next) (hall : ∀ r', (w.rank r').HasArrived) :
    Inv plan UnderLock (w.setRank r (.passedBarrier next)) := by
  have hnext := h.next
  have hdelivered := h.delivered r
  apply h.setRank <;> grind

theorem Inv.enterPush (hrank : w.rank plan.representative = .trained)
    (hcount : w.lock.sharedPullCount = 0) :
    Inv plan UnderLock
      ({ w with lock.exclusivePushLocked := true }.setRank plan.representative .entered) := by
  obtain ⟨held, count, exclusive, recorded, pending, next, crossed, written, copied, delivered,
    near, settled, reads, pulled⟩ := h
  constructor <;> simp only [WeightSystem.setRank] <;> first | assumption | grind

theorem Inv.finish_representative {next : Nat}
    (hrank : w.rank plan.representative = .passedBarrier next) :
    Inv plan UnderLock
      ({ w with modelVersion := next }.setRank plan.representative .completed) := by
  have hnext : next = w.step := h.next next (by simp [hrank])
  have hlocked : w.lock.exclusivePushLocked = true := h.held.mpr (by simp [hrank])
  have hidle := h.idle_of_locked hlocked
  obtain ⟨held, count, exclusive, -, -, -, crossed, written, copied, delivered, near, settled,
    reads, pulled⟩ := h
  constructor <;> simp only [WeightSystem.setRank] <;> first | assumption | grind

theorem Inv.finish {r : Rank} {next : Nat} (hr : r ≠ plan.representative)
    (hrank : w.rank r = .passedBarrier next) : Inv plan UnderLock (w.setRank r .completed) := by
  have hdelivered := h.delivered r
  have hcrossed := h.crossed r
  apply h.setRank <;> grind

theorem Inv.leavePush_representative (hrank : w.rank plan.representative = .completed) :
    Inv plan UnderLock
      ({ w with lock.exclusivePushLocked := false }.setRank plan.representative .idle) := by
  have hsettled : ∀ r, ∀ s ∈ plan.push r, w.genBuffer s = w.modelVersion := by
    intro r s hs
    -- the barrier is behind the representative rank, so every rank has delivered its shards
    have harrived : (w.rank r).HasArrived := h.crossed plan.representative (by simp [hrank]) r
    rw [h.delivered r harrived s hs, h.recorded (by simp [hrank])]
  obtain ⟨held, count, exclusive, recorded, pending, hnext, crossed, written, copied, delivered,
    near, settled, reads, pulled⟩ := h
  constructor <;> simp only [WeightSystem.setRank] <;> first | assumption | grind

theorem Inv.leavePush {r : Rank} (hr : r ≠ plan.representative)
    (hrank : w.rank r = .completed) : Inv plan UnderLock (w.setRank r .idle) := by
  have hdelivered := h.delivered r
  have hcrossed := h.crossed r
  apply h.setRank <;> grind

/-- With the guard every shard is written under the lock. -/
theorem Inv.keepsLock_of_guarded {a : Action Rank Shard Replica}
    (henabled : w.Enabled plan a) (hguarded : w.Guarded plan a) :
    w.KeepsLock (fun _ => True) a := by
  cases a with
  | write r s | copy r s =>
      intro _
      by_cases hr : r = plan.representative
      · exact h.locked_of_representative henabled.1 hr
      · exact hguarded hr
  | _ => trivial

/-- The representative rank writes under the lock in any case. -/
theorem Inv.keepsLock_alone {a : Action Rank Shard Replica}
    (henabled : w.Enabled plan a) : w.KeepsLock (Alone plan) a := by
  cases a with
  | write r s =>
      obtain ⟨hpushing, hs⟩ := henabled
      exact fun halone => h.locked_of_representative hpushing (halone r hs)
  | copy r s =>
      obtain ⟨hpushing, -, hs⟩ := henabled
      exact fun halone => h.locked_of_representative hpushing (halone r hs)
  | _ => trivial

variable [DecidableEq Shard]

theorem Inv.write {r : Rank} {s : Shard} (hpushing : (w.rank r).IsPushing)
    (hlocked : UnderLock s → w.lock.exclusivePushLocked = true) : Inv plan UnderLock ({ w with
        trainBuffer := Function.update w.trainBuffer s w.step
        genBuffer := if plan.trainGenModelShare then Function.update w.genBuffer s w.step
          else w.genBuffer }.setRank r ((w.rank r).afterWrite s)) := by
  obtain ⟨held, count, exclusive, recorded, pending, hnext, crossed, written, copied, delivered,
    near, settled, reads, pulled⟩ := h
  cases hrank : w.rank r with
  | pushing next written copied =>
      constructor <;> simp only [WeightSystem.setRank] <;> first | assumption | grind
  | _ => simp [hrank] at hpushing

theorem Inv.copy {r : Rank} {s : Shard}
    (hpushing : (w.rank r).IsPushing) (hs : s ∈ (w.rank r).written)
    (hlocked : UnderLock s → w.lock.exclusivePushLocked = true) : Inv plan UnderLock ({ w with
        genBuffer := if plan.trainGenModelShare then w.genBuffer
          else Function.update w.genBuffer s (w.trainBuffer s) }.setRank r
            ((w.rank r).afterCopy s)) := by
  obtain ⟨held, count, exclusive, recorded, pending, hnext, crossed, written, copied, delivered,
    near, settled, reads, pulled⟩ := h
  cases hrank : w.rank r with
  | pushing next written copied =>
      constructor <;> simp only [WeightSystem.setRank] <;> first | assumption | grind
  | _ => simp [hrank] at hpushing

end RankSteps

section ReplicaSteps

variable [DecidableEq Replica]

/-- A move of one replica, with what it does to the count of the shared lock. -/
theorem Inv.setReplica {p : Replica} {state : PullState Shard} {count : Nat}
    (hcount : count = (w.setReplica p state).pulling.card)
    (hunlocked : w.lock.exclusivePushLocked = false)
    (hreads : state.phase ≠ .idle → ∀ s ∈ plan.pull p, ∀ v ∈ state.reads s,
      v = w.modelVersion ∨ v = w.modelVersion + 1 ∧ ¬ UnderLock s)
    (hpulled : state.phase = .recorded → state.version = w.modelVersion ∧
      ∀ s ∈ plan.pull p, state.reads s ≠ none) :
    Inv plan UnderLock ({ w with lock.sharedPullCount := count }.setReplica p state) :=
  { h with
    count := hcount
    exclusive := fun hlocked => by
      have : w.lock.exclusivePushLocked = true := hlocked
      simp [hunlocked] at this
    reads := by
      have := h.reads
      simp only [WeightSystem.setReplica]
      grind
    pulled := by
      have := h.pulled
      simp only [WeightSystem.setReplica]
      grind }

theorem Inv.card_pulling_stay {p : Replica} (hp : (w.replica p).phase ≠ .idle)
    {state : PullState Shard} (hstate : state.phase ≠ .idle) :
    w.lock.sharedPullCount = (w.setReplica p state).pulling.card := by
  rw [pulling_setReplica, if_neg hstate, Finset.insert_eq_self.mpr (by simpa [pulling] using hp),
    h.count]

theorem Inv.enterPull {p : Replica} (hidle : (w.replica p).phase = .idle)
    (hunlocked : w.lock.exclusivePushLocked = false) :
    Inv plan UnderLock ({ w with lock.sharedPullCount := w.lock.sharedPullCount + 1 }.setReplica p
      ⟨.reading, fun _ => none, (w.replica p).version⟩) := by
  refine h.setReplica ?_ hunlocked (by simp) (by simp)
  rw [pulling_setReplica, if_neg (by simp),
    Finset.card_insert_of_notMem (by simpa [pulling] using hidle), h.count]

theorem Inv.recordPull {p : Replica} (hreading : (w.replica p).phase = .reading)
    (hall : ∀ s ∈ plan.pull p, (w.replica p).reads s ≠ none) : Inv plan UnderLock (w.setReplica p
      { w.replica p with phase := .recorded, version := w.modelVersion }) := by
  have hactive : (w.replica p).phase ≠ .idle := by simp [hreading]
  exact h.setReplica (h.card_pulling_stay hactive (by simp)) (h.unlocked_of_pulling hactive)
    (fun _ => h.reads p hactive) fun _ => ⟨rfl, hall⟩

theorem Inv.leavePull {p : Replica} (hrecorded : (w.replica p).phase = .recorded) :
    Inv plan UnderLock ({ w with lock.sharedPullCount := w.lock.sharedPullCount - 1 }.setReplica p
      { w.replica p with phase := .idle }) := by
  have hactive : (w.replica p).phase ≠ .idle := by simp [hrecorded]
  refine h.setReplica ?_ (h.unlocked_of_pulling hactive) (by simp) (by simp)
  rw [pulling_setReplica, if_pos rfl, Finset.card_erase_of_mem (by simpa [pulling] using hactive),
    h.count]

variable [DecidableEq Shard]

theorem Inv.read {p : Replica} {s : Shard} (hreading : (w.replica p).phase = .reading) :
    Inv plan UnderLock (w.setReplica p { w.replica p with
      reads := Function.update (w.replica p).reads s (some (w.genBuffer s)) }) := by
  have hactive : (w.replica p).phase ≠ .idle := by simp [hreading]
  have hunlocked := h.unlocked_of_pulling hactive
  have hreads := h.reads p hactive
  refine h.setReplica (h.card_pulling_stay hactive hactive) hunlocked (fun _ s' hs' v hv => ?_)
    (by simp [hreading])
  by_cases heq : s' = s
  · -- no push holds the lock, so a shard that is written under it has the recorded version
    obtain ⟨r, hr⟩ := plan.covered p s' hs'
    have hsettled := h.settled hunlocked r s' hr
    have hnear := h.near r s' hr
    have hrecorded := h.recorded
    have hpending := h.pending
    grind
  · exact hreads s' hs' v (by simpa [heq] using hv)

end ReplicaSteps

end Keeps

section Runs

variable [DecidableEq Rank] [DecidableEq Shard] [DecidableEq Replica]

theorem Inv.exec (h : Inv plan UnderLock w) {a : Action Rank Shard Replica}
    (henabled : w.Enabled plan a) (hlock : w.KeepsLock UnderLock a)
    (hexec : w.exec plan a = .ok w') : Inv plan UnderLock w' := by
  cases a with
  | train => cases hexec; exact h.train henabled
  | enterPush =>
      simp only [WeightSystem.exec, ModelLock.tryAcquireExclusivePushLock] at hexec
      split at hexec <;> rename_i hbusy <;> cases hexec
      · exact h
      · exact h.enterPush henabled (by simp at hbusy; exact hbusy.2)
  | startPush r => cases hexec; exact h.startPush henabled
  | write r s => cases hexec; exact h.write henabled.1 hlock
  | copy r s => cases hexec; exact h.copy henabled.1 (henabled.2.1 henabled.2.2) hlock
  | arrive r => cases hexec; exact h.arrive henabled.1 henabled.2
  | passBarrier r =>
      obtain ⟨⟨next, hnext, hrank⟩, hall⟩ := henabled
      cases hexec
      rw [Option.mem_def.mp hnext]
      exact h.passBarrier hrank hall
  | finish r =>
      obtain ⟨next, hnext, hrank⟩ := henabled
      cases hexec
      rw [Option.mem_def.mp hnext]
      by_cases hr : r = plan.representative
      · subst hr
        rw [if_pos rfl]
        exact h.finish_representative hrank
      · rw [if_neg hr]
        exact h.finish hr hrank
  | leavePush r =>
      simp only [WeightSystem.exec] at hexec
      split at hexec
      case isTrue hr =>
        subst hr
        obtain ⟨lock, hlock, heq⟩ := bind_eq_ok.mp hexec
        obtain ⟨_, -, hlock⟩ := bind_eq_ok.mp hlock
        cases hlock
        cases heq
        exact h.leavePush_representative henabled
      case isFalse hr =>
        cases hexec
        exact h.leavePush hr henabled
  | enterPull p =>
      simp only [WeightSystem.exec, ModelLock.tryAcquireSharedPullLock] at hexec
      split at hexec <;> rename_i hlocked <;> cases hexec
      · exact h
      · exact h.enterPull henabled (by simpa using hlocked)
  | read p s => cases hexec; exact h.read henabled.1
  | recordPull p => cases hexec; exact h.recordPull henabled.1 henabled.2
  | leavePull p =>
      obtain ⟨lock, hlock, heq⟩ := bind_eq_ok.mp hexec
      obtain ⟨_, -, hlock⟩ := bind_eq_ok.mp hlock
      cases hlock
      cases heq
      exact h.leavePull henabled

/-- **No torn pull.** In every run in which the other ranks write only while the
representative rank holds the push lock, all the shards a replica has read hold the weights
of one version, and it is the version the manager records for the replica. -/
theorem pull_reads_recorded_version
    (hreach : Run.Reachable (exec plan) (fun w a => w.Enabled plan a ∧ w.Guarded plan a) init w)
    (p : Replica) (hrecorded : (w.replica p).phase = .recorded) :
    ∀ s ∈ plan.pull p, (w.replica p).reads s = some (w.replica p).version := by
  have hinv : Inv plan (fun _ => True) w :=
    hreach.invariant Inv.init fun w a w' hinv hallowed hexec =>
      hinv.exec hallowed.1 (hinv.keepsLock_of_guarded hallowed.1 hallowed.2) hexec
  intro s hs
  obtain ⟨hversion, hall⟩ := hinv.pulled p hrecorded
  obtain ⟨v, hv⟩ := Option.ne_none_iff_exists'.mp (hall s hs)
  have hread := hinv.reads p (by simp [hrecorded]) s hs v hv
  rw [hv, hversion, hread.resolve_right fun hnext => hnext.2 trivial]

/-- **A torn pull is off by one version at most.** In every interleaving, whenever the other ranks
write: a shard that a replica has read holds the weights of the version recorded for the replica or
of the next one, and of the recorded version if only the representative rank writes it. -/
theorem pull_off_by_one_at_most
    (hreach : Run.Reachable (exec plan) (fun w a => w.Enabled plan a) init w) (p : Replica)
    (hrecorded : (w.replica p).phase = .recorded) :
    ∀ s ∈ plan.pull p, (w.replica p).reads s = some (w.replica p).version ∨
      (w.replica p).reads s = some ((w.replica p).version + 1) ∧ ¬ Alone plan s := by
  have hinv : Inv plan (Alone plan) w :=
    hreach.invariant Inv.init fun _ _ _ hinv henabled hexec =>
      hinv.exec henabled (hinv.keepsLock_alone henabled) hexec
  intro s hs
  obtain ⟨hversion, hall⟩ := hinv.pulled p hrecorded
  obtain ⟨v, hv⟩ := Option.ne_none_iff_exists'.mp (hall s hs)
  rw [hv, hversion, Option.some.injEq, Option.some.injEq]
  exact hinv.reads p (by simp [hrecorded]) s hs v hv

end Runs

/-- Two ranks that write one shard each, and one replica that reads both. -/
def twoRankPlan : TransferPlan (Fin 2) (Fin 2) Unit where
  representative := 0
  push r := {r}
  pull _ := {0, 1}
  trainGenModelShare := false
  covered _ s _ := ⟨s, by simp⟩

theorem pull_reads_recorded_version_after_push :
    ∃ w, Run.Reachable (exec twoRankPlan)
        (fun w a => w.Enabled twoRankPlan a ∧ w.Guarded twoRankPlan a) init w ∧
      (w.replica ()).version = 1 ∧
      ∀ s ∈ twoRankPlan.pull (), (w.replica ()).reads s = some (w.replica ()).version := by
  obtain ⟨w, hreach, hw⟩ : ∃ w, Run.Reachable (exec twoRankPlan)
      (fun w a => w.Enabled twoRankPlan a ∧ w.Guarded twoRankPlan a) init w ∧
      decide ((w.replica ()).phase = .recorded ∧ (w.replica ()).version = 1) = true :=
    Run.exists_reachable_of_perform (l := [.train, .enterPush, .startPush 0, .startPush 1,
      .write 1 1, .write 0 0, .copy 0 0, .copy 1 1, .arrive 1, .arrive 0, .passBarrier 0,
      .finish 0, .passBarrier 1, .finish 1, .leavePush 0, .leavePush 1, .enterPull (), .read () 0,
      .read () 1, .recordPull ()]) (by decide +kernel)
  obtain ⟨hrecorded, hversion⟩ := of_decide_eq_true hw
  exact ⟨w, hreach, hversion, pull_reads_recorded_version hreach () hrecorded⟩

/-- Rank 1 writes its shard although rank 0 does not hold the lock yet, between the two reads
of a pull. -/
theorem pull_torn_by_unlocked_rank :
    ∃ w, Run.Reachable (exec twoRankPlan) (fun w a => w.Enabled twoRankPlan a) init w ∧
      (w.replica ()).phase = .recorded ∧ (w.replica ()).version = 0 ∧
      (w.replica ()).reads 0 = some 0 ∧ (w.replica ()).reads 1 = some 1 := by
  obtain ⟨w, hreach, hw⟩ : ∃ w, Run.Reachable (exec twoRankPlan)
      (fun w a => w.Enabled twoRankPlan a) init w ∧
      decide ((w.replica ()).phase = .recorded ∧ (w.replica ()).version = 0 ∧
        (w.replica ()).reads 0 = some 0 ∧ (w.replica ()).reads 1 = some 1) = true :=
    Run.exists_reachable_of_perform (l := [.enterPull (), .read () 0, .train, .startPush 1,
      .write 1 1, .copy 1 1, .read () 1, .recordPull ()]) (by decide +kernel)
  exact ⟨w, hreach, of_decide_eq_true hw⟩

/-- Rank 1 writes between the two reads, and the pull is torn. -/
theorem pull_off_by_one_at_most_torn :
    ∃ w : WeightSystem (Fin 2) (Fin 2) Unit, (w.replica ()).reads 1 = some 1 ∧
      ∀ s ∈ twoRankPlan.pull (), (w.replica ()).reads s = some (w.replica ()).version ∨
        (w.replica ()).reads s = some ((w.replica ()).version + 1) ∧ ¬ Alone twoRankPlan s := by
  obtain ⟨w, hreach, hw⟩ : ∃ w, Run.Reachable (exec twoRankPlan)
      (fun w a => w.Enabled twoRankPlan a) init w ∧
      decide ((w.replica ()).phase = .recorded ∧ (w.replica ()).reads 1 = some 1) = true :=
    Run.exists_reachable_of_perform (l := [.enterPull (), .read () 0, .train, .startPush 1,
      .write 1 1, .copy 1 1, .read () 1, .recordPull ()]) (by decide +kernel)
  obtain ⟨hrecorded, hread⟩ := of_decide_eq_true hw
  exact ⟨w, hread, pull_off_by_one_at_most hreach () hrecorded⟩

end WeightSystem

end Psrl
