import Psrl.Lib.Python
import Psrl.Lib.Run

/-!
# Psrl.Weights.PushThread

How a train worker pushes its weights and learns that the push is over
(`psrl/workers/train/base_train_worker.py`, NIXL mode).

`nixl_push_model` starts a thread that performs a fixed sequence of remote operations and sets
an event at its end; `wait_for_nixl_push_completion` waits for the event if it is given a
timeout and for the end of the thread if it is not. An operation that raises ends the thread,
and nobody receives the exception.

The thread runs between the steps of the worker. What a waiter sees depends on how far the
thread gets meanwhile, so a wait that may time out is given the number of steps the thread
takes during it.
-/

namespace Psrl

open Py

abbrev ShardIdx := List Nat

/-- `ps_handle_to_precision_transfer_key_and_shards_list`: what each client has to copy. -/
abbrev MergedTransfers := Dict String (List (String × List ShardIdx))

/-- The operations of the wait thread that can raise. -/
inductive PushOp
  | getPsWorkerHandle (client : String)
  | clientWrite (agent client key : String) (version : Nat)
  | wait (key : String) (version : Nat) (client : String)
  /-- `transfer_train_to_gen_merged` on every client, and waiting for all of them -/
  | transferTrainToGenMerged (transfers : MergedTransfers)
  | barrier
  | pushModelStateDictNixl (version : Nat)
  | clearIntermediateCachedData

/-- The remote side during one push: what it answers, and which operations raise. -/
structure PushEnv where
  beforePush : Except PyError Unit
  afterPush : Except PyError Unit
  getPsModelVersion : Except PyError Nat
  getPsNixlAgentNames : Except PyError (List String)
  getPsNixlTrainStorageClientNames : Except PyError (List String)
  /-- the shards `client_write` of a key to a client transfers -/
  shardsToTransfer : String → String → List ShardIdx
  perform : PushOp → Except PyError Unit

inductive ThreadPhase
  | running (rest : List PushOp)
  /-- the event is set, the thread is about to end -/
  | signalled
  | ended
  | raised (error : PyError)

structure WaitThread where
  perform : PushOp → Except PyError Unit
  /-- the operations that returned -/
  log : List PushOp
  phase : ThreadPhase

namespace WaitThread

variable (t : WaitThread)

/-- `Thread.is_alive`. -/
def isAlive : Bool :=
  match t.phase with
  | .running _ | .signalled => true
  | .ended | .raised _ => false

/-- The next step of the thread. A step of a thread that is over does nothing. -/
def step : WaitThread :=
  match t.phase with
  | .running [] => { t with phase := .signalled }
  | .running (op :: rest) =>
      match t.perform op with
      | .ok () => { t with log := t.log ++ [op], phase := .running rest }
      | .error e =>
          { t with phase := .raised (.runtimeError ("Error in NIXL wait thread: " ++ e.text)) }
  | .signalled => { t with phase := .ended }
  | .ended | .raised _ => t

/-- The steps that are left to the thread at most. -/
def stepsLeft : Nat :=
  match t.phase with
  | .running rest => rest.length + 2
  | .signalled => 1
  | .ended | .raised _ => 0

/-- No operation of the thread has raised, and none that is left will. -/
def Succeeds : Prop :=
  match t.phase with
  | .running rest => ∀ op ∈ rest, t.perform op = .ok ()
  | .signalled | .ended => True
  | .raised _ => False

/-- The event is set. -/
def HasSignalled : Prop := t.phase = .signalled ∨ t.phase = .ended

/-- As long as it has not raised, the thread has performed `program` but for what is left. -/
def Performs (program : List PushOp) (t : WaitThread) : Prop :=
  match t.phase with
  | .running rest => t.log ++ rest = program
  | .signalled | .ended => t.log = program
  | .raised _ => True

theorem succeeds_step (t : WaitThread) : t.step.Succeeds ↔ t.Succeeds := by
  obtain ⟨perform, log, phase⟩ := t
  cases phase with
  | running rest =>
      cases rest with
      | nil => simp [step, Succeeds]
      | cons op rest => cases hop : perform op <;> simp [step, Succeeds, hop]
  | _ => simp [step, Succeeds]

theorem stepsLeft_step (t : WaitThread) : t.step.stepsLeft ≤ t.stepsLeft - 1 := by
  obtain ⟨perform, log, phase⟩ := t
  cases phase with
  | running rest =>
      cases rest with
      | nil => simp [step, stepsLeft]
      | cons op rest => cases hop : perform op <;> simp [step, stepsLeft, hop]
  | _ => simp [step, stepsLeft]

theorem HasSignalled.step {t : WaitThread} (h : t.HasSignalled) : t.step.HasSignalled := by
  rcases h with h | h <;> simp [WaitThread.step, HasSignalled, h]

theorem Performs.step {program : List PushOp} {t : WaitThread} (h : t.Performs program) :
    t.step.Performs program := by
  obtain ⟨perform, log, phase⟩ := t
  cases phase with
  | running rest =>
      cases rest with
      | nil => simpa [WaitThread.step, Performs] using h
      | cons op rest =>
          cases hop : perform op with
          | ok _ => simpa [WaitThread.step, Performs, hop] using h
          | error e => simp [WaitThread.step, Performs, hop]
  | _ => exact h

theorem iterate_step {P : WaitThread → Prop} (hstep : ∀ t, P t → P t.step) (n : Nat)
    {t : WaitThread} (h : P t) : P (step^[n] t) := by
  induction n generalizing t with
  | zero => exact h
  | succ n ih => exact ih (hstep t h)

theorem stepsLeft_iterate (n : Nat) (t : WaitThread) :
    (step^[n] t).stepsLeft ≤ t.stepsLeft - n := by
  induction n generalizing t with
  | zero => simp
  | succ n ih =>
      have h := ih t.step
      have h' := stepsLeft_step t
      rw [Function.iterate_succ_apply]
      omega

theorem ended_or_raised_of_stepsLeft {t : WaitThread} (h : t.stepsLeft = 0) :
    t.phase = .ended ∨ ∃ e, t.phase = .raised e := by
  unfold stepsLeft at h
  split at h
  all_goals simp_all

/-- A thread that has taken all its steps is over, and it ended exactly if none of its
operations raised. -/
theorem run_to_end (t : WaitThread) : (step^[t.stepsLeft] t).isAlive = false ∧
    ((step^[t.stepsLeft] t).phase = .ended ↔ t.Succeeds) := by
  have hleft : (step^[t.stepsLeft] t).stepsLeft = 0 := by
    have := stepsLeft_iterate t.stepsLeft t
    omega
  have hsucceeds : (step^[t.stepsLeft] t).Succeeds ↔ t.Succeeds :=
    iterate_step (P := fun t' => t'.Succeeds ↔ t.Succeeds)
      (fun t' h => (succeeds_step t').trans h) _ Iff.rfl
  rcases ended_or_raised_of_stepsLeft hleft with h | ⟨e, h⟩
  · simpa [isAlive, Succeeds, h] using hsucceeds
  · simpa [isAlive, Succeeds, h] using hsucceeds

end WaitThread

structure TrainWorker where
  workerRank : Nat
  /-- the keys of `unified_state_dict` -/
  unifiedStateDict : List String
  cachedAgentNames : Option (List String) := none
  cachedClientNames : Option (List String) := none
  /-- the keys of `_cached_ps_worker_handles` -/
  cachedWorkerHandles : List String := []
  waitThread : Option WaitThread := none
  waitCompleted : Bool := false

namespace TrainWorker

variable (w : TrainWorker)

/-! ### The program of the thread -/

/-- The writes of one key, with the handles fetched on the way. -/
def writeOps (key : String) (version : Nat) :
    List String → List (String × String) → List PushOp × List String
  | handles, [] => ([], handles)
  | handles, (agent, client) :: targets =>
      if client ∈ handles then
        let (ops, handles) := writeOps key version handles targets
        (.clientWrite agent client key version :: ops, handles)
      else
        let (ops, handles) := writeOps key version (client :: handles) targets
        (.getPsWorkerHandle client :: .clientWrite agent client key version :: ops, handles)

/-- The targets of a key that receive a shard: `wait_operations`. -/
def waitOperations (env : PushEnv) (targets : List (String × String)) (key : String) :
    List (String × List ShardIdx) :=
  (targets.map fun target => (target.2, env.shardsToTransfer key target.2)).filter
    fun operation => !operation.2.isEmpty

/-- Remember that a client has to copy the shards of a key. -/
def addTransfer (key : String) (merged : MergedTransfers) (operation : String × List ShardIdx) :
    MergedTransfers :=
  merged.set operation.1 ((merged.get? operation.1).getD [] ++ [(key, operation.2)])

/-- The loop over the keys: its operations and the merged transfers it collects. -/
def keyLoop (env : PushEnv) (version : Nat) (targets : List (String × String)) :
    List String → List String → MergedTransfers → List PushOp × MergedTransfers
  | _, [], merged => ([], merged)
  | handles, key :: keys, merged =>
      let (writes, handles) := writeOps key version handles targets
      let operations := waitOperations env targets key
      let waits := operations.map fun operation => PushOp.wait key version operation.1
      let (ops, merged) := keyLoop env version targets handles keys
        (operations.foldl (addTransfer key) merged)
      (writes ++ waits ++ ops, merged)

/-- `zip(self._cached_ps_nixl_agent_names, self._cached_ps_nixl_train_storage_client_names)`. -/
def targets : List (String × String) :=
  (w.cachedAgentNames.getD []).zip (w.cachedClientNames.getD [])

/-- `wait_all_operations`, up to setting the event. -/
def waitAllOperations (env : PushEnv) (version : Nat) : List PushOp :=
  let (ops, merged) := keyLoop env version w.targets w.cachedWorkerHandles w.unifiedStateDict .empty
  ops ++ [.transferTrainToGenMerged merged, .barrier] ++
    (if w.workerRank = 0 then [.pushModelStateDictNixl version] else []) ++
    [.clearIntermediateCachedData]

/-! ### The worker and its thread -/

/-- One step of the thread, with what it does to the worker. -/
def threadStep : TrainWorker :=
  match w.waitThread with
  | none => w
  | some t =>
      { w with
        waitThread := some t.step
        waitCompleted := match t.phase with
          | .running [] => true
          | _ => w.waitCompleted
        cachedWorkerHandles := match t.phase with
          | .running (.getPsWorkerHandle client :: _) =>
              match t.perform (.getPsWorkerHandle client) with
              | .ok () => client :: w.cachedWorkerHandles
              | .error _ => w.cachedWorkerHandles
          | _ => w.cachedWorkerHandles }

/-- `self.nixl_wait_thread.join()`: the thread runs until it is over. -/
def join : TrainWorker :=
  threadStep^[w.waitThread.elim 0 WaitThread.stepsLeft] w

/-- The first lines of `nixl_push_model`: the version to push, and the names of the targets.
A call that raises keeps the names it has fetched. -/
def prepare (env : PushEnv) : Except PyError Nat × TrainWorker :=
  match env.getPsModelVersion with
  | .error e => (.error e, w)
  | .ok current =>
    match w.cachedAgentNames.elim env.getPsNixlAgentNames .ok with
    | .error e => (.error e, w)
    | .ok agents =>
      match w.cachedClientNames.elim env.getPsNixlTrainStorageClientNames .ok with
      | .error e => (.error e, { w with cachedAgentNames := some agents })
      | .ok clients =>
        (.ok (current + 1),
          { w with cachedAgentNames := some agents, cachedClientNames := some clients })

/-- `nixl_push_model`. -/
def nixlPushModel (env : PushEnv) : Except PyError Unit × TrainWorker :=
  match w.prepare env with
  | (.error e, w) => (.error e, w)
  | (.ok version, w) =>
    if w.waitThread.any WaitThread.isAlive then
      (.error (.runtimeError ("Previous NIXL wait thread is still running, "
        ++ "you should wait for it to complete before calling nixl_push_model again.")), w)
    else
      (.ok (), { w with
        waitThread := some ⟨env.perform, [], .running (w.waitAllOperations env version)⟩
        waitCompleted := false })

/-- `wait_for_nixl_push_completion`. A timeout is given by the steps the thread takes while
the worker waits for the event and while it joins the thread. -/
def waitForNixlPushCompletion (timeout : Option (Nat × Nat)) : Bool × TrainWorker :=
  if w.waitThread.isNone then (true, w)
  else
    match timeout with
    | some (waiting, joining) =>
        let w := threadStep^[waiting] w
        if w.waitCompleted then
          let w := threadStep^[joining] w
          (!w.waitThread.any WaitThread.isAlive, w)
        else (false, w)
    | none =>
        let w := w.join
        (!w.waitThread.any WaitThread.isAlive, w)

/-- `push_model`. -/
def pushModel (env : PushEnv) : Except PyError Unit × TrainWorker :=
  match env.beforePush with
  | .error e => (.error e, w)
  | .ok () =>
    match w.nixlPushModel env with
    | (.error e, w) => (.error e, w)
    | (.ok (), w) => (env.afterPush, (w.waitForNixlPushCompletion none).2)

/-! ### What the program of the thread contains -/

theorem clientWrite_mem_writeOps {agent client key : String} {version : Nat} :
    ∀ {targets : List (String × String)} {handles : List String}, (agent, client) ∈ targets →
      .clientWrite agent client key version ∈ (writeOps key version handles targets).1
  | (agent', client') :: targets, handles, h => by
      unfold writeOps
      split
      all_goals
        rcases List.mem_cons.mp h with heq | h
        · cases heq
          simp
        · simp [clientWrite_mem_writeOps h]

/-- The merged transfers have a client copy the shards of a key. -/
def Copies (merged : MergedTransfers) (client key : String) (shards : List ShardIdx) : Prop :=
  ∃ l, merged.get? client = some l ∧ (key, shards) ∈ l

theorem Copies.addTransfer {merged : MergedTransfers} {client key key' : String}
    {shards : List ShardIdx} (h : Copies merged client key shards)
    (operation : String × List ShardIdx) :
    Copies (addTransfer key' merged operation) client key shards := by
  obtain ⟨l, hl, hmem⟩ := h
  unfold Copies TrainWorker.addTransfer
  rw [Dict.get?_set]
  split
  · rename_i heq
    subst heq
    exact ⟨_, rfl, by simp [hl, hmem]⟩
  · exact ⟨l, hl, hmem⟩

theorem Copies.addTransfers {merged : MergedTransfers} {client key key' : String}
    {shards : List ShardIdx} (h : Copies merged client key shards)
    (operations : List (String × List ShardIdx)) :
    Copies (operations.foldl (TrainWorker.addTransfer key') merged) client key shards := by
  induction operations generalizing merged with
  | nil => exact h
  | cons operation operations ih => exact ih (h.addTransfer operation)

theorem copies_addTransfers {merged : MergedTransfers} {client key : String}
    {shards : List ShardIdx} {operations : List (String × List ShardIdx)}
    (h : (client, shards) ∈ operations) :
    Copies (operations.foldl (addTransfer key) merged) client key shards := by
  induction operations generalizing merged with
  | nil => cases h
  | cons operation operations ih =>
      rcases List.mem_cons.mp h with rfl | h
      · have hnew : Copies (addTransfer key merged (client, shards)) client key shards :=
          ⟨_, Dict.get?_set_self _ _ _, by simp⟩
        exact hnew.addTransfers operations
      · exact ih h

section KeyLoop

variable {env : PushEnv} {version : Nat} {targets : List (String × String)}

theorem Copies.keyLoop {client key : String} {shards : List ShardIdx} (keys : List String) :
    ∀ {handles : List String} {merged : MergedTransfers}, Copies merged client key shards →
      Copies (keyLoop env version targets handles keys merged).2 client key shards := by
  induction keys with
  | nil => intro handles merged h; exact h
  | cons key' keys ih => intro handles merged h; exact ih (h.addTransfers _)

theorem mem_waitOperations {key : String} {target : String × String} (htarget : target ∈ targets)
    (hshards : env.shardsToTransfer key target.2 ≠ []) :
    (target.2, env.shardsToTransfer key target.2) ∈ waitOperations env targets key := by
  unfold waitOperations
  simp only [List.mem_filter, List.mem_map]
  exact ⟨⟨target, htarget, rfl⟩, by simpa using hshards⟩

/-- Every planned write is issued, awaited if it moves a shard, and then copied. -/
theorem keyLoop_spec (env : PushEnv) (version : Nat) {key : String} {target : String × String}
    (htarget : target ∈ targets)
    (keys : List String) : ∀ (handles : List String) (merged : MergedTransfers), key ∈ keys →
      .clientWrite target.1 target.2 key version ∈
          (keyLoop env version targets handles keys merged).1 ∧
      (env.shardsToTransfer key target.2 ≠ [] →
        .wait key version target.2 ∈ (keyLoop env version targets handles keys merged).1 ∧
        Copies (keyLoop env version targets handles keys merged).2 target.2 key
          (env.shardsToTransfer key target.2)) := by
  induction keys with
  | nil => intro handles merged h; cases h
  | cons key' keys ih =>
      intro handles merged h
      simp only [keyLoop]
      rcases List.mem_cons.mp h with rfl | h
      · refine ⟨?_, fun hshards => ⟨?_, ?_⟩⟩
        · simp [clientWrite_mem_writeOps htarget]
        · have hmem := mem_waitOperations htarget hshards
          simp only [List.mem_append, List.mem_map]
          exact .inl (.inr ⟨_, hmem, rfl⟩)
        · exact (copies_addTransfers (mem_waitOperations htarget hshards)).keyLoop keys
      · obtain ⟨hwrite, hwait⟩ := ih (writeOps key' version handles targets).2
          ((waitOperations env targets key').foldl (addTransfer key') merged) h
        refine ⟨by simp [hwrite], fun hshards => ⟨by simp [(hwait hshards).1], (hwait hshards).2⟩⟩

end KeyLoop

/-- The planned writes of the worker have completed and were copied to the generation
buffers, and the worker has passed the barrier. -/
structure Delivered (w : TrainWorker) (env : PushEnv) (version : Nat) (log : List PushOp) :
    Prop where
  written : ∀ key ∈ w.unifiedStateDict, ∀ target ∈ w.targets,
    .clientWrite target.1 target.2 key version ∈ log ∧
      (env.shardsToTransfer key target.2 ≠ [] → .wait key version target.2 ∈ log)
  copied : ∀ key ∈ w.unifiedStateDict, ∀ target ∈ w.targets,
    env.shardsToTransfer key target.2 ≠ [] →
      ∃ merged, .transferTrainToGenMerged merged ∈ log ∧
        Copies merged target.2 key (env.shardsToTransfer key target.2)
  barrier : .barrier ∈ log
  recorded : w.workerRank = 0 → .pushModelStateDictNixl version ∈ log

theorem delivered_waitAllOperations (w : TrainWorker) (env : PushEnv) (version : Nat) :
    Delivered w env version (w.waitAllOperations env version) where
  written key hkey target htarget := by
    obtain ⟨hwrite, hwait⟩ := keyLoop_spec env version htarget w.unifiedStateDict
      w.cachedWorkerHandles .empty hkey
    exact ⟨by simp [waitAllOperations, hwrite],
      fun hshards => by simp [waitAllOperations, (hwait hshards).1]⟩
  copied key hkey target htarget hshards := by
    obtain ⟨-, hwait⟩ := keyLoop_spec env version htarget w.unifiedStateDict
      w.cachedWorkerHandles .empty hkey
    exact ⟨_, by simp [waitAllOperations], (hwait hshards).2⟩
  barrier := by simp [waitAllOperations]
  recorded hrank := by simp [waitAllOperations, hrank]

/-! ### Waiting for the thread -/

section Threads

variable {w : TrainWorker}

theorem waitThread_threadStep (w : TrainWorker) :
    w.threadStep.waitThread = w.waitThread.map WaitThread.step := by
  unfold threadStep
  cases hthread : w.waitThread <;> simp [hthread]

theorem waitThread_iterate (n : Nat) (w : TrainWorker) :
    (threadStep^[n] w).waitThread = w.waitThread.map WaitThread.step^[n] := by
  induction n generalizing w with
  | zero => simp
  | succ n ih =>
      rw [Function.iterate_succ_apply, ih, waitThread_threadStep, Option.map_map]
      rfl

/-- What a step of the thread leaves alone. -/
structure SamePlan (w w' : TrainWorker) : Prop where
  workerRank : w'.workerRank = w.workerRank
  unifiedStateDict : w'.unifiedStateDict = w.unifiedStateDict
  targets : w'.targets = w.targets

theorem samePlan_threadStep (w : TrainWorker) : SamePlan w w.threadStep := by
  unfold threadStep
  split <;> exact ⟨rfl, rfl, rfl⟩

theorem samePlan_iterate (n : Nat) (w : TrainWorker) : SamePlan w (threadStep^[n] w) := by
  induction n generalizing w with
  | zero => exact ⟨rfl, rfl, rfl⟩
  | succ n ih =>
      have h := samePlan_threadStep w
      have h' := ih w.threadStep
      exact ⟨h'.1.trans h.1, h'.2.trans h.2, h'.3.trans h.3⟩

theorem SamePlan.delivered {w w' : TrainWorker} (h : SamePlan w w') {env : PushEnv}
    {version : Nat} {log : List PushOp} (hdelivered : Delivered w env version log) :
    Delivered w' env version log where
  written := by rw [h.unifiedStateDict, h.targets]; exact hdelivered.written
  copied := by rw [h.unifiedStateDict, h.targets]; exact hdelivered.copied
  barrier := hdelivered.barrier
  recorded := by rw [h.workerRank]; exact hdelivered.recorded

/-- The event is set only by a thread that has performed all its operations. -/
def EventOk (w : TrainWorker) : Prop :=
  w.waitCompleted = true → ∃ t, w.waitThread = some t ∧ t.HasSignalled

theorem EventOk.threadStep (h : w.EventOk) : w.threadStep.EventOk := by
  intro hcompleted
  cases hthread : w.waitThread with
  | none =>
      have hsame : w.threadStep = w := by simp [TrainWorker.threadStep, hthread]
      rw [hsame] at hcompleted ⊢
      exact h hcompleted
  | some t =>
      refine ⟨t.step, by rw [waitThread_threadStep, hthread]; rfl, ?_⟩
      simp only [TrainWorker.threadStep, hthread] at hcompleted
      split at hcompleted
      · rename_i hphase
        exact .inl (by simp [WaitThread.step, hphase])
      · obtain ⟨t', ht', hsignalled⟩ := h hcompleted
        obtain rfl : t = t' := by simpa [hthread] using ht'
        exact hsignalled.step

theorem EventOk.iterate (n : Nat) (h : w.EventOk) : (TrainWorker.threadStep^[n] w).EventOk := by
  induction n generalizing w with
  | zero => exact h
  | succ n ih => exact ih h.threadStep

/-- After `join()` the thread is over. -/
theorem waitThread_join {t : WaitThread} (hthread : w.waitThread = some t) :
    w.join.waitThread = some (WaitThread.step^[t.stepsLeft] t) := by
  simp [join, waitThread_iterate, hthread]

theorem EventOk.prepare (h : w.EventOk) (env : PushEnv) : (w.prepare env).2.EventOk := by
  unfold TrainWorker.prepare
  split
  · exact h
  · split
    · exact h
    · split <;> exact h

theorem EventOk.nixlPushModel (h : w.EventOk) (env : PushEnv) :
    (w.nixlPushModel env).2.EventOk := by
  have hprepare := h.prepare env
  unfold TrainWorker.nixlPushModel
  split <;> rename_i heq <;> rw [heq] at hprepare
  · exact hprepare
  · split
    · exact hprepare
    · intro hcompleted
      cases hcompleted

theorem EventOk.waitForNixlPushCompletion (h : w.EventOk) (timeout : Option (Nat × Nat)) :
    (w.waitForNixlPushCompletion timeout).2.EventOk := by
  unfold TrainWorker.waitForNixlPushCompletion
  split
  · exact h
  · split
    · dsimp only
      split
      · exact (h.iterate _).iterate _
      · exact h.iterate _
    · exact h.iterate _

theorem EventOk.pushModel (h : w.EventOk) (env : PushEnv) : (w.pushModel env).2.EventOk := by
  have hpush := h.nixlPushModel env
  unfold TrainWorker.pushModel
  split
  · exact h
  · split <;> rename_i heq <;> rw [heq] at hpush
    · exact hpush
    · exact hpush.waitForNixlPushCompletion none

end Threads

/-! ### Runs -/

/-- What happens to a worker: a call of the trainer, or a step of the thread. -/
inductive Action
  | pushModel (env : PushEnv)
  | nixlPushModel (env : PushEnv)
  | waitForNixlPushCompletion (timeout : Option (Nat × Nat))
  | threadStep

def exec (w : TrainWorker) : Action → Except PyError TrainWorker
  | .pushModel env => .ok (w.pushModel env).2
  | .nixlPushModel env => .ok (w.nixlPushModel env).2
  | .waitForNixlPushCompletion timeout => .ok (w.waitForNixlPushCompletion timeout).2
  | .threadStep => .ok w.threadStep

/-- The states of a worker that starts without a thread. -/
def Reachable (rank : Nat) (keys : List String) : TrainWorker → Prop :=
  Run.Reachable exec (fun _ _ => True) ⟨rank, keys, none, none, [], none, false⟩

theorem Reachable.eventOk {rank : Nat} {keys : List String} {w : TrainWorker}
    (h : Reachable rank keys w) : w.EventOk := by
  refine Run.Reachable.invariant (P := EventOk) ?_ ?_ h
  · intro hcompleted
    cases hcompleted
  · intro w a w' hw _ hexec
    cases a with
    | pushModel env => cases hexec; exact hw.pushModel env
    | nixlPushModel env => cases hexec; exact hw.nixlPushModel env
    | waitForNixlPushCompletion timeout =>
        cases hexec
        exact hw.waitForNixlPushCompletion timeout
    | threadStep => cases hexec; exact hw.threadStep

/-- The thread of the worker ran to its end and delivered the weights. -/
def PushDone (w : TrainWorker) (env : PushEnv) : Prop :=
  ∃ t version, w.waitThread = some t ∧ t.phase = .ended ∧ Delivered w env version t.log

/-- No operation of the thread that a push starts raises. -/
def PushSucceeds (w : TrainWorker) (env : PushEnv) : Prop :=
  ∀ version w', w.prepare env = (.ok version, w') →
    ∀ op ∈ w'.waitAllOperations env version, env.perform op = .ok ()

/-- No operation of the thread has raised or will raise. -/
def ThreadSucceeds (w : TrainWorker) : Prop := ∀ t, w.waitThread = some t → t.Succeeds

theorem nixlPushModel_eq_ok {w w' : TrainWorker} {env : PushEnv}
    (h : w.nixlPushModel env = (.ok (), w')) :
    ∃ version w1, w.prepare env = (.ok version, w1) ∧ w' = { w1 with
      waitThread := some ⟨env.perform, [], .running (w1.waitAllOperations env version)⟩
      waitCompleted := false } := by
  unfold nixlPushModel at h
  split at h
  · cases h
  · rename_i version w1 hprepare
    split at h
    · cases h
    · cases h
      exact ⟨version, w1, hprepare, rfl⟩

theorem waitForNixlPushCompletion_none {w : TrainWorker} {t : WaitThread}
    (hthread : w.waitThread = some t) :
    w.waitForNixlPushCompletion none = (true, w.join) := by
  have hover := (WaitThread.run_to_end t).1
  simp [waitForNixlPushCompletion, hthread, waitThread_join, hover]

/-- A push that returns is done exactly if no operation of its thread raised. -/
theorem pushDone_iff {w w' : TrainWorker} {env : PushEnv}
    (h : w.pushModel env = (.ok (), w')) : w'.PushDone env ↔ w.PushSucceeds env := by
  unfold pushModel at h
  split at h
  · cases h
  split at h
  · cases h
  rename_i w1 hpush
  obtain ⟨version, w0, hprepare, rfl⟩ := nixlPushModel_eq_ok hpush
  rw [waitForNixlPushCompletion_none rfl, Prod.mk.injEq] at h
  obtain ⟨-, rfl⟩ := h
  set t : WaitThread := ⟨env.perform, [], .running (w0.waitAllOperations env version)⟩ with ht
  have hthread :
      ({ w0 with waitThread := some t, waitCompleted := false } : TrainWorker).join.waitThread
      = some (WaitThread.step^[t.stepsLeft] t) := waitThread_join rfl
  have hsucceeds : t.Succeeds ↔ w.PushSucceeds env := by
    constructor
    · intro hall version' w' hprepare'
      rw [hprepare] at hprepare'
      cases hprepare'
      exact hall
    · intro hall
      exact hall version w0 hprepare
  rw [← hsucceeds, ← (WaitThread.run_to_end t).2]
  constructor
  · rintro ⟨t', version', hthread', hended, -⟩
    rw [hthread, Option.some.injEq] at hthread'
    rwa [hthread']
  · intro hended
    have hlog : (WaitThread.step^[t.stepsLeft] t).Performs (w0.waitAllOperations env version) :=
      WaitThread.iterate_step (fun _ h => h.step) _ (by simp [WaitThread.Performs, ht])
    simp only [WaitThread.Performs, hended] at hlog
    refine ⟨_, version, hthread, hended, ?_⟩
    rw [hlog]
    have hdelivered := delivered_waitAllOperations w0 env version
    exact (samePlan_iterate _ _).delivered ⟨hdelivered.1, hdelivered.2, hdelivered.3, hdelivered.4⟩

theorem ended_of_timeout {w w' : TrainWorker} (hevent : w.EventOk) {t : WaitThread}
    (hthread : w.waitThread = some t) {steps : Nat × Nat}
    (h : w.waitForNixlPushCompletion (some steps) = (true, w')) :
    ∀ t', w'.waitThread = some t' → t'.phase = .ended := by
  intro t' ht'
  simp only [waitForNixlPushCompletion, hthread, Option.isNone_some, Bool.false_eq_true,
    if_false] at h
  split at h
  · rename_i hcompleted
    rw [Prod.mk.injEq] at h
    obtain ⟨hover, rfl⟩ := h
    -- the event was set by the thread, which goes on to its end
    obtain ⟨t1, ht1, hsignalled⟩ := (hevent.iterate steps.1) hcompleted
    have hlast : t'.HasSignalled := by
      rw [waitThread_iterate, ht1, Option.map_some, Option.some.injEq] at ht'
      exact ht' ▸ WaitThread.iterate_step (fun _ h => h.step) _ hsignalled
    rcases hlast with hphase | hphase
    · simp [ht', WaitThread.isAlive, hphase] at hover
    · exact hphase
  · cases h

/-- Waiting without a timeout reports a thread as done whether or not it raised. -/
theorem wait_reports_iff {w w' : TrainWorker} (hevent : w.EventOk)
    {timeout : Option (Nat × Nat)} (h : w.waitForNixlPushCompletion timeout = (true, w')) :
    (∀ t, w'.waitThread = some t → t.phase = .ended) ↔
      timeout ≠ none ∨ w.ThreadSucceeds := by
  cases hthread : w.waitThread with
  | none =>
      have hsame : w' = w := by simpa [waitForNixlPushCompletion, hthread] using h.symm
      simp [hsame, ThreadSucceeds, hthread]
  | some t =>
      cases timeout with
      | none =>
          rw [waitForNixlPushCompletion_none hthread, Prod.mk.injEq] at h
          obtain ⟨-, rfl⟩ := h
          simp [waitThread_join hthread, (WaitThread.run_to_end t).2, ThreadSucceeds, hthread]
      | some steps =>
          refine iff_of_true (fun t' ht' => ?_) (.inl (by simp))
          exact ended_of_timeout hevent hthread h t' ht'

/-- **A push that failed is never reported as done**, as long as nobody waits for a thread
that raises without a timeout: then `push_model` returns only when the weights are delivered
and `wait_for_nixl_push_completion` answers `True` only when the thread ran to its end. The
condition is exact. -/
theorem push_reported_done_iff {rank : Nat} {keys : List String} {w : TrainWorker}
    (hreach : Reachable rank keys w) :
    (∀ env w', w.pushModel env = (.ok (), w') → (w'.PushDone env ↔ w.PushSucceeds env)) ∧
    ∀ timeout w', w.waitForNixlPushCompletion timeout = (true, w') →
      ((∀ t, w'.waitThread = some t → t.phase = .ended) ↔
        timeout ≠ none ∨ w.ThreadSucceeds) :=
  ⟨fun _ _ h => pushDone_iff h, fun _ _ h => wait_reports_iff hreach.eventOk h⟩

/-- One client that receives one shard of every key; `perform` says what raises. -/
def oneClientEnv (perform : PushOp → Except PyError Unit) : PushEnv where
  beforePush := .ok ()
  afterPush := .ok ()
  getPsModelVersion := .ok 0
  getPsNixlAgentNames := .ok ["agent"]
  getPsNixlTrainStorageClientNames := .ok ["client"]
  shardsToTransfer _ _ := [[0]]
  perform := perform

/-- The worker of rank 0 with one parameter. -/
def oneKeyWorker : TrainWorker where
  workerRank := 0
  unifiedStateDict := ["weight"]

theorem push_reported_done_one_client :
    ∃ w', oneKeyWorker.pushModel (oneClientEnv fun _ => .ok ()) = (.ok (), w') ∧
      w'.PushDone (oneClientEnv fun _ => .ok ()) := by
  have hstart : Reachable 0 ["weight"] oneKeyWorker := .start
  exact ⟨_, rfl, ((push_reported_done_iff hstart).1 _ _ rfl).mpr fun _ _ _ _ _ => rfl⟩

/-- The write of the only shard fails while it is awaited: the push returns, and a further
wait without a timeout answers `True`. -/
theorem push_reported_done_after_failed_wait :
    ∃ env w', oneKeyWorker.pushModel env = (.ok (), w') ∧ ¬ w'.PushDone env ∧
      (w'.waitForNixlPushCompletion none).1 = true := by
  refine ⟨oneClientEnv fun op => match op with
    | .wait _ _ _ => .error (.runtimeError "transfer failed")
    | _ => .ok (), _, rfl, ?_, rfl⟩
  rintro ⟨t, version, hthread, hended, -⟩
  cases hthread
  cases hended

end TrainWorker

end Psrl
