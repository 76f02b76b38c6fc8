import Mathlib.Data.Finset.SDiff
import Mathlib.Data.Fintype.Basic
import Psrl.Lib.Python
import Psrl.Lib.Run

/-!
# Psrl.Coordinator.Routing

Who pauses and resumes routing: the `SLEEP` and `WAKE_UP` commands
(`CommandHandlerMixin._command_handler_loop`), `sync_with_ps` and `check_and_migrate`
(`SyncAndMigrateMixin`).

Each operation runs to completion before the next one starts, and any of its remote calls may
raise. The operations are programs over the cluster with Python's exceptions, so that a state
is left behind on every exit path; which calls raise is given to each of them beforehand. Only
what matters for the switch is kept: which replicas sleep, which are quarantined, and the
value last given to `_set_routing_loop_running`. A replica is quarantined from a `fail_sync` that
reaches it to the `resume_after_sync` of a later sync.

A command whose remote calls raise kills the handler loop, and so do the instance calls of the
`ABORT` command of a migration; a command sent to a dead loop never completes, so such an
operation is not among those that run to completion (`Enabled`).
-/

namespace Psrl

open Py

/-- The cluster as the coordinator sees it. -/
structure Cluster (Replica : Type) where
  asleep : Finset Replica
  quarantined : Finset Replica
  /-- the value last given to `_set_routing_loop_running` -/
  routing : Bool
  handlerAlive : Bool

namespace Cluster

variable {Replica : Type}

/-- The state a coroutine leaves behind, whether or not it raises. -/
def after (s : Cluster Replica) (operation : Coroutine (Cluster Replica) Unit) :
    Cluster Replica :=
  (Coroutine.perform s operation).2

/-- Routing runs whenever some replica is awake and not quarantined. -/
def Good (replicas : Finset Replica) (s : Cluster Replica) : Prop :=
  (∃ p ∈ replicas, p ∉ s.asleep ∧ p ∉ s.quarantined) → s.routing = true

theorem good_iff {replicas : Finset Replica} {s : Cluster Replica} : Good replicas s ↔
    s.routing = true ∨ ∀ p ∈ replicas, p ∈ s.asleep ∨ p ∈ s.quarantined := by
  have hnone : (¬ ∃ p ∈ replicas, p ∉ s.asleep ∧ p ∉ s.quarantined) ↔
      ∀ p ∈ replicas, p ∈ s.asleep ∨ p ∈ s.quarantined := by
    push Not
    simp only [or_iff_not_imp_left]
  rw [← hnone, Good, or_comm, ← imp_iff_not_or]

/-- A remote call without an effect on the cluster. -/
def remote (fails : Bool) : Coroutine (Cluster Replica) Unit :=
  if fails then throw (.runtimeError "remote call failed") else pure ()

/-- `_set_routing_loop_running`. -/
def setRoutingLoopRunning (running fails : Bool) : Coroutine (Cluster Replica) Unit := do
  modify fun s => { s with routing := running }
  remote fails

@[simp] theorem perform_remote (s : Cluster Replica) (fails : Bool) :
    Coroutine.perform s (remote fails) =
      (if fails then .error (.runtimeError "remote call failed") else .ok (), s) := by
  cases fails <;> rfl

@[simp] theorem perform_setRoutingLoopRunning (s : Cluster Replica) (running fails : Bool) :
    Coroutine.perform s (setRoutingLoopRunning running fails) =
      (if fails then .error (.runtimeError "remote call failed") else .ok (),
        { s with routing := running }) := by
  cases fails <;> rfl

/-- How the remote calls of a `SLEEP` or `WAKE_UP` command go. -/
structure SwitchEnv (Replica : Type) where
  routingFails : Bool
  /-- the replicas whose call raises -/
  failing : Finset Replica
  /-- the replicas that change their state although their call raises -/
  changed : Finset Replica

/-- How the remote calls of a sync go. -/
structure SyncEnv (Replica : Type) where
  isSleepingFails : Bool
  pauseRoutingFails : Bool
  pauseForSyncFails : Bool
  /-- the sync waits for interrupted requests to loop back -/
  waitsLoopBack : Bool
  loopBackFails : Bool
  publishFails : Bool
  resumeRoutingFails : Bool
  /-- posting `/workers/pause` for the failed replicas raises -/
  pauseWorkersFails : Bool
  resumeRoutingAgainFails : Bool
  /-- `_finish_gateway_sync` raises before it resumes the replicas -/
  finishFails : Bool
  pauseWorkersAgainFails : Bool
  /-- the replicas whose `fail_sync` raises before it closes them -/
  unreached : Finset Replica
  /-- the replicas whose `resume_after_sync` raises before it opens them -/
  unopened : Finset Replica

/-- A call of a sync raises before routing is resumed. -/
def SyncEnv.breaks (env : SyncEnv Replica) : Bool :=
  env.pauseForSyncFails || (env.waitsLoopBack && env.loopBackFails) || env.publishFails

/-- How the remote calls of a migration go. -/
structure MigrateEnv where
  checkFails : Bool
  pauseRoutingFails : Bool
  waitsLoopBack : Bool
  loopBackFails : Bool
  resumeRoutingFails : Bool

/-- An iteration of the handler loop: an exception ends the loop. -/
def handle (command : Coroutine (Cluster Replica) Unit) : Coroutine (Cluster Replica) Unit := do
  try command
  catch e =>
    modify fun s => { s with handlerAlive := false }
    throw e

theorem perform_handle (s : Cluster Replica) (command : Coroutine (Cluster Replica) Unit) :
    Coroutine.perform s (handle command) = match Coroutine.perform s command with
      | (.ok (), s') => (.ok (), s')
      | (.error e, s') => (.error e, { s' with handlerAlive := false }) := by
  unfold handle
  rw [Coroutine.perform_tryCatch]
  rcases Coroutine.perform s command with ⟨_ | _, s'⟩
  · rfl
  · rfl

/-- The part of `sync_with_ps` inside its `try`. -/
def publishAndResume (env : SyncEnv Replica) : Coroutine (Cluster Replica) Unit := do
  remote env.pauseForSyncFails
  if env.waitsLoopBack then
    remote env.loopBackFails
  remote env.publishFails
  setRoutingLoopRunning true env.resumeRoutingFails

theorem perform_publishAndResume (s : Cluster Replica) (env : SyncEnv Replica) :
    Coroutine.perform s (publishAndResume env) =
      if env.breaks then (.error (.runtimeError "remote call failed"), s)
      else (if env.resumeRoutingFails then .error (.runtimeError "remote call failed") else .ok (),
        { s with routing := true }) := by
  unfold publishAndResume SyncEnv.breaks
  cases env.pauseForSyncFails
  · cases env.waitsLoopBack <;> cases env.loopBackFails <;> cases env.publishFails <;>
      simp [Coroutine.perform_bind]
  · simp [Coroutine.perform_bind]

variable [DecidableEq Replica]

/-- The replicas whose state a command changes. -/
def SwitchEnv.moved (env : SwitchEnv Replica) (ids : Finset Replica) : Finset Replica :=
  (ids \ env.failing) ∪ (ids ∩ env.changed)

section Switch

variable (env : SwitchEnv Replica) (ids : Finset Replica)

/-- `asyncio.gather` of one call for each replica. -/
def gather : Coroutine (Cluster Replica) Unit :=
  remote (decide (¬ Disjoint ids env.failing))

/-- The `SLEEP` command. -/
def sleepCommand : Coroutine (Cluster Replica) Unit := do
  setRoutingLoopRunning false env.routingFails
  modify fun s => { s with asleep := s.asleep ∪ env.moved ids }
  gather env ids

/-- The `WAKE_UP` command. -/
def wakeUpCommand : Coroutine (Cluster Replica) Unit := do
  modify fun s => { s with asleep := s.asleep \ env.moved ids }
  gather env ids
  setRoutingLoopRunning true env.routingFails

end Switch

section Completion

variable (env : SyncEnv Replica) (replicas : Finset Replica)

/-- `fail_sync` on the replicas; its exceptions are swallowed. -/
def failSync : Coroutine (Cluster Replica) Unit :=
  modify fun s => { s with quarantined := s.quarantined ∪ (replicas \ env.unreached) }

/-- `resume_after_sync` on the replicas ends their quarantine. -/
def resumeAfterSync : Coroutine (Cluster Replica) Unit := do
  modify fun s => { s with quarantined := s.quarantined \ (replicas \ env.unopened) }
  remote (decide (¬ Disjoint replicas env.unopened))

/-- `_quarantine_failed_replicas`. -/
def quarantineFailedReplicas : Coroutine (Cluster Replica) Unit := do
  failSync env replicas
  remote env.pauseWorkersFails
  setRoutingLoopRunning true env.resumeRoutingAgainFails

/-- `_finish_gateway_sync`. -/
def finishGatewaySync : Coroutine (Cluster Replica) Unit := do
  try
    remote env.finishFails
    resumeAfterSync env replicas
  catch e =>
    failSync env replicas
    remote env.pauseWorkersAgainFails
    throw e

/-- `sync_with_ps` and its completion, once the replicas that are awake are known. -/
def syncReplicas : Coroutine (Cluster Replica) Unit := do
  -- outside of the `try`: a pause that raises is not undone
  setRoutingLoopRunning false env.pauseRoutingFails
  try publishAndResume env
  catch e =>
    quarantineFailedReplicas env replicas
    throw e
  finishGatewaySync env replicas

end Completion

/-- `sync_with_ps`. -/
def syncWithPs (env : SyncEnv Replica) (ids : Finset Replica) :
    Coroutine (Cluster Replica) Unit := do
  remote env.isSleepingFails
  let s ← get
  if ids ⊆ s.asleep then
    return
  syncReplicas env (ids \ s.asleep)

/-- `check_and_migrate`, with the instances `_check_should_migrate` finds. -/
def checkAndMigrate (env : MigrateEnv) (ids : Finset Replica) :
    Coroutine (Cluster Replica) Unit := do
  remote env.checkFails
  if ids ≠ ∅ then
    setRoutingLoopRunning false env.pauseRoutingFails
    if env.waitsLoopBack then
      remote env.loopBackFails
    setRoutingLoopRunning true env.resumeRoutingFails

inductive Action (Replica : Type)
  | sleep (env : SwitchEnv Replica) (ids : Finset Replica)
  | wakeUp (env : SwitchEnv Replica) (ids : Finset Replica)
  | sync (env : SyncEnv Replica) (ids : Finset Replica)
  | migrate (env : MigrateEnv) (ids : Finset Replica)

def exec (s : Cluster Replica) : Action Replica → Except PyError (Cluster Replica)
  | .sleep env ids => .ok (s.after (handle (sleepCommand env ids)))
  | .wakeUp env ids => .ok (s.after (handle (wakeUpCommand env ids)))
  | .sync env ids => .ok (s.after (syncWithPs env ids))
  | .migrate env ids => .ok (s.after (checkAndMigrate env ids))

/-- Commands complete only while the handler loop is alive. -/
def Enabled (s : Cluster Replica) : Action Replica → Prop
  | .sleep _ _ | .wakeUp _ _ => s.handlerAlive = true
  | .sync _ _ => True
  | .migrate env ids => env.checkFails = true ∨ ids = ∅ ∨ env.pauseRoutingFails = true ∨
      s.handlerAlive = true

/-! ### What the operations do to the switch -/

theorem after_sleep (s : Cluster Replica) (env : SwitchEnv Replica) (ids : Finset Replica) :
    (s.after (handle (sleepCommand env ids))).routing = false ∧
    (s.after (handle (sleepCommand env ids))).quarantined = s.quarantined ∧
    (s.after (handle (sleepCommand env ids))).asleep =
      if env.routingFails then s.asleep else s.asleep ∪ env.moved ids := by
  unfold after
  rw [perform_handle]
  unfold sleepCommand gather
  cases hfails : env.routingFails <;>
    by_cases hdisjoint : Disjoint ids env.failing <;>
      simp [Coroutine.perform_bind, hdisjoint]

theorem after_wakeUp (s : Cluster Replica) (env : SwitchEnv Replica) (ids : Finset Replica) :
    (s.after (handle (wakeUpCommand env ids))).routing =
      (if Disjoint ids env.failing then true else s.routing) ∧
    (s.after (handle (wakeUpCommand env ids))).quarantined = s.quarantined ∧
    (s.after (handle (wakeUpCommand env ids))).asleep = s.asleep \ env.moved ids := by
  unfold after
  rw [perform_handle]
  unfold wakeUpCommand gather
  cases hfails : env.routingFails <;>
    by_cases hdisjoint : Disjoint ids env.failing <;>
      simp [Coroutine.perform_bind, hdisjoint]

/-- The replicas that are quarantined once routing is on and `_finish_gateway_sync` is over. -/
def SyncEnv.finished (env : SyncEnv Replica) (replicas quarantined : Finset Replica) :
    Finset Replica :=
  if env.finishFails then quarantined ∪ (replicas \ env.unreached)
  else if Disjoint replicas env.unopened then quarantined \ (replicas \ env.unopened)
  else quarantined \ (replicas \ env.unopened) ∪ (replicas \ env.unreached)

/-- What a sync does: routing is resumed unless the pause raised or the quarantine of a broken sync
did not get to it. -/
theorem after_syncReplicas (s : Cluster Replica) (env : SyncEnv Replica)
    (replicas : Finset Replica) : s.after (syncReplicas env replicas) = { s with
      routing := !env.pauseRoutingFails && !(env.breaks && env.pauseWorkersFails)
      quarantined := if env.pauseRoutingFails then s.quarantined
        else if env.breaks || env.resumeRoutingFails then
          s.quarantined ∪ (replicas \ env.unreached)
        else env.finished replicas s.quarantined } := by
  unfold after syncReplicas finishGatewaySync quarantineFailedReplicas failSync resumeAfterSync
    SyncEnv.finished
  simp only [Coroutine.perform_bind, Coroutine.perform_tryCatch, perform_publishAndResume,
    perform_setRoutingLoopRunning, perform_remote, Coroutine.perform_modify]
  cases env.pauseRoutingFails
  case true => simp
  case false =>
    cases env.breaks
    case true => cases env.pauseWorkersFails <;> cases env.resumeRoutingAgainFails <;> simp
    case false =>
      cases env.resumeRoutingFails
      case true => cases env.pauseWorkersFails <;> cases env.resumeRoutingAgainFails <;> simp
      case false =>
        by_cases hopened : Disjoint replicas env.unopened <;> cases env.finishFails <;>
          cases env.pauseWorkersAgainFails <;> simp [hopened]

/-- A sync that asks in vain or finds its replicas asleep changes nothing. -/
theorem after_sync_skip {s : Cluster Replica} {env : SyncEnv Replica} {ids : Finset Replica}
    (h : env.isSleepingFails = true ∨ ids ⊆ s.asleep) : s.after (syncWithPs env ids) = s := by
  unfold after syncWithPs
  cases hasks : env.isSleepingFails with
  | true => simp [Coroutine.perform_bind]
  | false =>
      have hnone : ids ⊆ s.asleep := by simpa [hasks] using h
      simp [Coroutine.perform_bind, hnone]

theorem after_sync {s : Cluster Replica} {env : SyncEnv Replica} {ids : Finset Replica}
    (hasks : env.isSleepingFails = false) (hids : ¬ ids ⊆ s.asleep) :
    s.after (syncWithPs env ids) = s.after (syncReplicas env (ids \ s.asleep)) := by
  unfold after syncWithPs
  simp [Coroutine.perform_bind, hasks, hids]

theorem after_migrate (s : Cluster Replica) (env : MigrateEnv) (ids : Finset Replica) :
    s.after (checkAndMigrate env ids) =
      if env.checkFails ∨ ids = ∅ then s
      else { s with
        routing := !env.pauseRoutingFails && !(env.waitsLoopBack && env.loopBackFails) } := by
  unfold after checkAndMigrate
  by_cases hids : ids = ∅
  · cases env.checkFails <;> simp [hids]
  · cases env.checkFails <;> cases env.pauseRoutingFails <;> cases env.waitsLoopBack <;>
      cases env.loopBackFails <;> simp [Coroutine.perform_bind, hids]

/-! ### Runs -/

section Runs

variable {replicas : Finset Replica} {s s' : Cluster Replica}

/-- When an operation leaves routing running, or no replica to route to: a `SLEEP` command
only in the second way, the others in the first way unless a call raises at the wrong
place. -/
def Keeps (replicas : Finset Replica) (s : Cluster Replica) : Action Replica → Prop
  | .sleep env ids => ∀ p ∈ replicas, p ∈ s.asleep ∨ p ∈ s.quarantined ∨
      env.routingFails = false ∧ p ∈ env.moved ids
  | .wakeUp env ids => s.routing = true ∨ Disjoint ids env.failing ∨
      ∀ p ∈ replicas, p ∈ s.asleep ∧ p ∉ env.moved ids ∨ p ∈ s.quarantined
  | .sync env ids => env.isSleepingFails = true ∨ ids ⊆ s.asleep ∨
      (env.pauseRoutingFails = false ∧ (env.breaks && env.pauseWorkersFails) = false) ∨
      ∀ p ∈ replicas, p ∈ s.asleep ∨ p ∈ s.quarantined ∨
        env.pauseRoutingFails = false ∧ p ∈ ids ∧ p ∉ env.unreached
  | .migrate env ids => env.checkFails = true ∨ ids = ∅ ∨
      (env.pauseRoutingFails = false ∧ (env.waitsLoopBack && env.loopBackFails) = false) ∨
      ∀ p ∈ replicas, p ∈ s.asleep ∨ p ∈ s.quarantined

instance (a : Action Replica) : Decidable (Keeps replicas s a) := by
  cases a <;> unfold Keeps <;> infer_instance

instance (a : Action Replica) : Decidable (s.Enabled a) := by
  cases a <;> unfold Enabled <;> infer_instance

theorem good_sync_iff (hgood : Good replicas s) (env : SyncEnv Replica) (ids : Finset Replica) :
    Good replicas (s.after (syncWithPs env ids)) ↔ Keeps replicas s (.sync env ids) := by
  by_cases hskip : env.isSleepingFails = true ∨ ids ⊆ s.asleep
  · rw [after_sync_skip hskip]
    exact iff_of_true hgood (or_assoc.mp (.inl hskip))
  · obtain ⟨hasks, hids⟩ : env.isSleepingFails = false ∧ ¬ ids ⊆ s.asleep := by simpa using hskip
    rw [after_sync hasks hids, after_syncReplicas, good_iff]
    simp only [Keeps, hasks, hids, Bool.false_eq_true, false_or]
    cases hpause : env.pauseRoutingFails with
    | true => simp
    | false =>
        cases hstuck : env.breaks && env.pauseWorkersFails with
        | false => simp
        | true =>
            have hbreaks : env.breaks = true := by simp_all
            have hmem : ∀ p, p ∈ s.asleep ∨ p ∈ s.quarantined ∨
                (p ∈ ids ∧ p ∉ s.asleep) ∧ p ∉ env.unreached ↔
                p ∈ s.asleep ∨ p ∈ s.quarantined ∨ p ∈ ids ∧ p ∉ env.unreached := by
              intro p
              tauto
            simp [hbreaks, hmem]

theorem good_migrate_iff (hgood : Good replicas s) (env : MigrateEnv) (ids : Finset Replica) :
    Good replicas (s.after (checkAndMigrate env ids)) ↔ Keeps replicas s (.migrate env ids) := by
  rw [after_migrate]
  split
  · rename_i hskip
    exact iff_of_true hgood (or_assoc.mp (.inl hskip))
  · rename_i hskip
    obtain ⟨hchecks, hids⟩ : env.checkFails = false ∧ ids ≠ ∅ := by simpa using hskip
    rw [good_iff]
    simp only [Keeps, hchecks, hids, Bool.false_eq_true, false_or]
    cases env.pauseRoutingFails <;> cases env.waitsLoopBack <;> simp

/-- **One operation.** From a good state an operation leads to a good state exactly if it
meets the condition. -/
theorem good_exec_iff (hgood : Good replicas s) {a : Action Replica}
    (hexec : s.exec a = .ok s') : Good replicas s' ↔ Keeps replicas s a := by
  cases a with
  | sleep env ids =>
      cases hexec
      obtain ⟨hrouting, hquarantined, hasleep⟩ := after_sleep s env ids
      rw [good_iff, hrouting, hquarantined, hasleep]
      unfold Keeps
      cases hfails : env.routingFails <;> simp [hfails, or_comm, or_left_comm]
  | wakeUp env ids =>
      cases hexec
      obtain ⟨hrouting, hquarantined, hasleep⟩ := after_wakeUp s env ids
      rw [good_iff, hrouting, hquarantined, hasleep]
      unfold Keeps
      by_cases hdisjoint : Disjoint ids env.failing <;> simp [hdisjoint]
  | sync env ids => cases hexec; exact good_sync_iff hgood env ids
  | migrate env ids => cases hexec; exact good_migrate_iff hgood env ids

/-- **Routing is never left paused** in a run whose operations all meet the condition; and in
such a run the condition is exact for the next operation. -/
theorem routing_never_left_paused
    (hreach : Run.Reachable exec (fun s a => s.Enabled a ∧ Keeps replicas s a)
      ⟨∅, ∅, true, true⟩ s) :
    Good replicas s ∧ ∀ a s', s.Enabled a → s.exec a = .ok s' →
      (Good replicas s' ↔ Keeps replicas s a) := by
  have hgood : Good replicas s := by
    refine hreach.invariant (fun _ => rfl) fun s a s' hgood hallowed hexec => ?_
    exact (good_exec_iff hgood hexec).mpr hallowed.2
  exact ⟨hgood, fun a s' _ hexec => good_exec_iff hgood hexec⟩

/-- Both replicas are put to sleep and one is woken up again. -/
theorem routing_never_left_paused_sleep_all :
    ∃ s : Cluster (Fin 2), s.asleep = {0} ∧ s.routing = true ∧ Good {0, 1} s := by
  obtain ⟨s, hreach, hs⟩ : ∃ s : Cluster (Fin 2), Run.Reachable exec
      (fun s a => s.Enabled a ∧ Keeps {0, 1} s a) ⟨∅, ∅, true, true⟩ s ∧
      decide (s.asleep = {0} ∧ s.routing = true) = true :=
    Run.exists_reachable_of_perform
      (l := [.sleep ⟨false, ∅, ∅⟩ {0, 1}, .wakeUp ⟨false, ∅, ∅⟩ {1}]) (by decide +kernel)
  obtain ⟨hasleep, hrouting⟩ := of_decide_eq_true hs
  exact ⟨s, hasleep, hrouting, (routing_never_left_paused hreach).1⟩

/-- One of two replicas is put to sleep, without any failure: the other one is awake, and
routing stays paused. -/
theorem routing_paused_after_partial_sleep :
    ∃ s : Cluster (Fin 2), Run.Reachable exec (fun s a => s.Enabled a) ⟨∅, ∅, true, true⟩ s ∧
      1 ∉ s.asleep ∧ 1 ∉ s.quarantined ∧ s.routing = false := by
  obtain ⟨s, hreach, hs⟩ : ∃ s : Cluster (Fin 2), Run.Reachable exec
      (fun s a => s.Enabled a) ⟨∅, ∅, true, true⟩ s ∧
      decide (1 ∉ s.asleep ∧ 1 ∉ s.quarantined ∧ s.routing = false) = true :=
    Run.exists_reachable_of_perform (l := [.sleep ⟨false, ∅, ∅⟩ {0}]) (by decide +kernel)
  exact ⟨s, hreach, of_decide_eq_true hs⟩

end Runs

end Cluster

end Psrl
