import Psrl.Elastic.Topology

/-!
# Psrl.Elastic.Executor

**Scaling the roles up and down** (`ElasticExecutor` in `utils/elastic_rm/elastic_executor.py`).

The executor keeps a status flag for every instance of every role and model, next to the status in
the topology, and works through two queues of tasks, each in its own loop: a scale-up task puts
instances of other roles to sleep and wakes instances of its own role, a scale-down task puts
instances of its role to sleep. The commands of a task run concurrently (`asyncio.gather`); a
command that reports success changes flag and status.

The steps of the model are what the loops and their commands do between two awaits. What the
engines report, KV-cache usage and queued work, is given with the step that reads it, and so is
what a command reports.
-/

namespace Psrl

open Py

/-- A task of one of the queues. -/
structure ScaleTask (Role : Type) where
  roleName : Role
  modelName : String
  numInstances : Int
  preferredInstanceIds : List (String × Nat)

structure ElasticExecutor (Role : Type) where
  roles : List (Role × String)
  /-- `instances_status_flags`, by role and model -/
  instancesStatusFlags : Dict (Role × String) (Dict (String × Nat) InstanceStatus)
  topology : ClusterTopology Role
  /-- `max(0, min_awake_per_role)` of the policy -/
  minAwakePerRole : Nat

/-- `l[:n]`. -/
def pySliceTo {α : Type} (l : List α) (n : Int) : List α :=
  l.take (if 0 ≤ n then n.toNat else l.length - n.natAbs)

namespace ElasticExecutor

variable {Role : Type} [DecidableEq Role] (e : ElasticExecutor Role)

/-- `setdefault(role_name, {}).setdefault(model_name, {})`. -/
def addRole (flags : Dict (Role × String) (Dict (String × Nat) InstanceStatus))
    (group : Role × String) : Dict (Role × String) (Dict (String × Nat) InstanceStatus) :=
  match flags.get? group with
  | some _ => flags
  | none => flags.set group .empty

def new (roles : List (Role × String)) (minAwakePerRole : Nat) : ElasticExecutor Role where
  roles := roles
  instancesStatusFlags := roles.foldl addRole .empty
  topology := .empty
  minAwakePerRole := minAwakePerRole

def roleStatus (group : Role × String) : Dict (String × Nat) InstanceStatus :=
  (e.instancesStatusFlags.get? group).getD .empty

/-- The instances of a role and model with a status, in the order of the flags. -/
def idsWith (group : Role × String) (status : InstanceStatus) : List (String × Nat) :=
  ((e.roleStatus group).items.filter fun item => item.2 = status).map Prod.fst

/-- The flag of an instance. -/
def flag (key : InstanceIdentifier Role) : Option InstanceStatus :=
  (e.roleStatus (key.role, key.modelName)).get? key.instanceId

/-- Flag and status of an instance are set. -/
def setStatus (key : InstanceIdentifier Role)
    (status : InstanceStatus) : Except PyError (ElasticExecutor Role) := do
  let flags ← e.instancesStatusFlags.get (key.role, key.modelName)
  let topology ← e.topology.setStatus key status
  return { e with
    instancesStatusFlags := e.instancesStatusFlags.set (key.role, key.modelName)
      (flags.set key.instanceId status)
    topology := topology }

/-! ### Registration and bootstrap -/

def registerInstance (order : SetOrder GPUSlot) (group : Role × String)
    (e : ElasticExecutor Role) (instance_ : (String × Nat) × Finset GPUSlot) :
    ElasticExecutor Role :=
  { e with
    instancesStatusFlags := e.instancesStatusFlags.set group
      ((e.roleStatus group).set instance_.1 .asleep)
    topology := e.topology.register order ⟨group.1, group.2, instance_.1⟩ instance_.2 .asleep }

def registerRole (order : SetOrder GPUSlot) (e : ElasticExecutor Role) (group : Role × String)
    (instanceIds : List (String × Nat)) (gpuSlotsPerInstance : List (Finset GPUSlot)) :
    Except PyError (ElasticExecutor Role) :=
  if instanceIds.length ≠ gpuSlotsPerInstance.length then
    .error (.valueError (s!"instance_ids ({instanceIds.length}) and gpu_slots_per_instance "
      ++ s!"({gpuSlotsPerInstance.length}) must have the same length."))
  else .ok ((instanceIds.zip gpuSlotsPerInstance).foldl (registerInstance order group)
    { e with instancesStatusFlags := addRole e.instancesStatusFlags group })

def selectInitialAwakeIds (group : Role × String) (targetAwakeNum minAwakeNum : Int) :
    Except PyError (List (String × Nat) × ElasticExecutor Role) := do
  let selected ← e.topology.selectNonConflictingAwakeIds group.1 group.2 (e.roleStatus group).keys
    targetAwakeNum minAwakeNum
  let e ← selected.foldlM (fun e id => e.setStatus ⟨group.1, group.2, id⟩ .awaken) e
  return (selected, e)

/-! ### Which instances to wake and to put to sleep -/

/-- The asleep instances a task may wake: the preferred ones, or any without one of them. -/
def candidateIds (task : ScaleTask Role) : List (String × Nat) :=
  let allAsleepIds := e.idsWith (task.roleName, task.modelName) .asleep
  let preferredAvailable := allAsleepIds.filter (· ∈ task.preferredInstanceIds)
  if preferredAvailable = [] then allAsleepIds else preferredAvailable

/-- Those without an awake instance of another role on their GPUs. -/
def clearIds (task : ScaleTask Role) (ids : List (String × Nat)) : List (String × Nat) :=
  ids.filter fun id =>
    !e.topology.hasOtherRoleAwakenOnSharedGpu ⟨task.roleName, task.modelName, id⟩

/-- The candidates that are clear, or all asleep instances that are. -/
def filteredIds (task : ScaleTask Role) : List (String × Nat) :=
  if e.clearIds task (e.candidateIds task) = [] ∧ task.preferredInstanceIds ≠ [] then
    e.clearIds task (e.idsWith (task.roleName, task.modelName) .asleep)
  else e.clearIds task (e.candidateIds task)

/-- `_find_instances_to_scaled_up`; `None` is the empty list. -/
def findInstancesToScaledUp (task : ScaleTask Role) : List (InstanceIdentifier Role) :=
  (pySliceTo (e.filteredIds task) task.numInstances).map
    (InstanceIdentifier.mk task.roleName task.modelName)

/-- How many instances of a role and model may be put to sleep for another role. -/
def maxRemovable (targetRole : Role) (group : Role × String) : Nat :=
  if group.1 = targetRole then 0
  else (e.idsWith group .awaken).length - e.minAwakePerRole

/-- The awake instances of other roles that have some to spare. -/
def candidates (targetRole : Role) : List (InstanceIdentifier Role) :=
  e.roles.flatMap fun group => if e.maxRemovable targetRole group = 0 then [] else
    (e.idsWith group .awaken).map (InstanceIdentifier.mk group.1 group.2)

def removableBudget (targetRole : Role) : Dict (Role × String) Nat :=
  e.roles.foldl (fun budget group => if e.maxRemovable targetRole group = 0 then budget else
    budget.set group (e.maxRemovable targetRole group)) .empty

/-- The loop that picks candidates within the budget of their role and model. -/
def pickLoop (numInstances : Int) : List (InstanceIdentifier Role) →
    List (InstanceIdentifier Role) → Dict (Role × String) Nat → List (InstanceIdentifier Role)
  | [], picked, _ => picked
  | candidate :: rest, picked, budget =>
      let left := (budget.get? (candidate.role, candidate.modelName)).getD 0
      if left = 0 then pickLoop numInstances rest picked budget
      else if ((picked ++ [candidate]).length : Int) ≥ numInstances then picked ++ [candidate]
      else pickLoop numInstances rest (picked ++ [candidate])
        (budget.set (candidate.role, candidate.modelName) (left - 1))

variable {Usage : Type} [LinearOrder Usage]

/-- `_find_instances_to_scaled_down_for_other_roles`; `None` is the empty list. -/
def findInstancesToScaledDownForOtherRoles
    (usage : InstanceIdentifier Role → Usage) (task : ScaleTask Role) :
    List (InstanceIdentifier Role) :=
  pickLoop task.numInstances
    ((e.candidates task.roleName).insertionSort fun a b => usage a ≤ usage b) []
    (e.removableBudget task.roleName)

/-- `_find_instances_to_scaled_down_in_role`; `None` is the empty list. -/
def findInstancesToScaledDownInRole
    (usage : InstanceIdentifier Role → Usage) (task : ScaleTask Role) :
    List (InstanceIdentifier Role) :=
  let key := InstanceIdentifier.mk task.roleName task.modelName
  let allAwakeIds := e.idsWith (task.roleName, task.modelName) .awaken
  let maxScalableDown : Int := allAwakeIds.length - e.minAwakePerRole
  if maxScalableDown ≤ 0 then []
  else
    let preferredAvailable := allAwakeIds.filter (· ∈ task.preferredInstanceIds)
    let candidateIds := if preferredAvailable = [] then allAwakeIds else preferredAvailable
    let sorted := candidateIds.insertionSort fun a b => usage (key a) ≤ usage (key b)
    (pySliceTo sorted (min task.numInstances maxScalableDown)).map key

/-- The guard of `_scale_down_instance`: `SLEEP` is sent unless too few instances of its role and
model are awake, or it is the last one and has work (`busy`). -/
def maySleep (key : InstanceIdentifier Role) (busy : Bool) : Bool :=
  let awakenCount := (e.idsWith (key.role, key.modelName) .awaken).length
  if awakenCount ≤ e.minAwakePerRole then false
  else if e.minAwakePerRole = 0 ∧ awakenCount = 1 ∧ busy = true then false
  else true

end ElasticExecutor

/-! ### The two loops -/

/-- Where the call for one instance of a task is. -/
inductive ScaleStage
  | scheduled
  | sent
  | finished
  deriving DecidableEq

/-- A call of `_scale_up_instance` or `_scale_down_instance`. -/
structure ScaleJob (Role : Type) where
  key : InstanceIdentifier Role
  stage : ScaleStage

inductive ScaleUpPhase (Role : Type)
  | idle
  | sleeping (task : ScaleTask Role) (jobs : List (ScaleJob Role))
  | waking (task : ScaleTask Role) (jobs : List (ScaleJob Role))
  /-- `_interrupt_waiting_after_scale_up` -/
  | interrupting

inductive ScaleDownPhase (Role : Type)
  | idle
  | sleeping (jobs : List (ScaleJob Role))

/-- The executor with its two loops. -/
structure ElasticLoops (Role : Type) where
  executor : ElasticExecutor Role
  up : ScaleUpPhase Role
  down : ScaleDownPhase Role

namespace ElasticLoops

variable {Role : Type} [DecidableEq Role] {Usage : Type} [LinearOrder Usage]

def start (e : ElasticExecutor Role) : ElasticLoops Role := ⟨e, .idle, .idle⟩

/-- The calls of a `gather`. -/
def jobsFor (keys : List (InstanceIdentifier Role)) : List (ScaleJob Role) :=
  keys.map fun key => ⟨key, .scheduled⟩

def ScaleJobsFinished (jobs : List (ScaleJob Role)) : Prop := ∀ job ∈ jobs, job.stage = .finished

instance (jobs : List (ScaleJob Role)) : Decidable (ScaleJobsFinished jobs) :=
  inferInstanceAs (Decidable (∀ job ∈ jobs, _))

/-- `_scale_down_instance` up to its command. -/
def startSleep (e : ElasticExecutor Role) (jobs : List (ScaleJob Role)) (i : Nat) (busy : Bool) :
    List (ScaleJob Role) :=
  jobs.modify i fun job =>
    { job with stage := if e.maySleep job.key busy = true then .sent else .finished }

/-- `_scale_up_instance` up to its command. -/
def startWake (jobs : List (ScaleJob Role)) (i : Nat) : List (ScaleJob Role) :=
  jobs.modify i fun job => { job with stage := .sent }

/-- The end of a call: with a result the new status is recorded. -/
def reply (e : ElasticExecutor Role) (jobs : List (ScaleJob Role)) (i : Nat)
    (status : InstanceStatus) (ok : Bool) :
    Except PyError (ElasticExecutor Role × List (ScaleJob Role)) := do
  match jobs[i]? with
  | none => return (e, jobs)
  | some job =>
      let e ← if ok = true then e.setStatus job.key status else pure e
      return (e, jobs.modify i fun job => { job with stage := .finished })

/-- The scale-up loop looks for instances to wake. -/
def wake (s : ElasticLoops Role) (task : ScaleTask Role) : ElasticLoops Role :=
  match s.executor.findInstancesToScaledUp task with
  | [] => { s with up := .idle }
  | keys => { s with up := .waking task (jobsFor keys) }

/-- The scale-up loop takes a task. -/
def takeUp (s : ElasticLoops Role) (usage : InstanceIdentifier Role → Usage)
    (task : ScaleTask Role) : ElasticLoops Role :=
  match s.executor.findInstancesToScaledDownForOtherRoles usage task with
  | [] => s.wake task
  | keys => { s with up := .sleeping task (jobsFor keys) }

/-- The scale-down loop takes a task. -/
def takeDown (s : ElasticLoops Role) (usage : InstanceIdentifier Role → Usage)
    (task : ScaleTask Role) : ElasticLoops Role :=
  match s.executor.findInstancesToScaledDownInRole usage task with
  | [] => s
  | keys => { s with down := .sleeping (jobsFor keys) }

inductive Action (Role Usage : Type)
  | takeUp (usage : InstanceIdentifier Role → Usage) (task : ScaleTask Role)
  | startSleepUp (i : Nat) (busy : Bool)
  | replySleepUp (i : Nat) (ok : Bool)
  /-- all instances of other roles are done with, and the loop goes on -/
  | sleptUp
  | startWake (i : Nat)
  | replyWake (i : Nat) (ok : Bool)
  | wokenUp
  | interrupted
  | takeDown (usage : InstanceIdentifier Role → Usage) (task : ScaleTask Role)
  | startSleepDown (i : Nat) (busy : Bool)
  | replySleepDown (i : Nat) (ok : Bool)
  | sleptDown

/-- What the action needs of the jobs of its phase. -/
def HasStage (jobs : List (ScaleJob Role)) (i : Nat) (stage : ScaleStage) : Prop :=
  ∃ job ∈ jobs[i]?, job.stage = stage

instance (jobs : List (ScaleJob Role)) (i : Nat) (stage : ScaleStage) :
    Decidable (HasStage jobs i stage) :=
  inferInstanceAs (Decidable (∃ job ∈ jobs[i]?, _))

def exec (s : ElasticLoops Role) : Action Role Usage → Except PyError (ElasticLoops Role)
  | .takeUp usage task => .ok (s.takeUp usage task)
  | .startSleepUp i busy =>
      match s.up with
      | .sleeping task jobs =>
          .ok { s with up := .sleeping task (startSleep s.executor jobs i busy) }
      | _ => .ok s
  | .replySleepUp i ok =>
      match s.up with
      | .sleeping task jobs => do
          let (e, jobs) ← reply s.executor jobs i .asleep ok
          return { s with executor := e, up := .sleeping task jobs }
      | _ => .ok s
  | .sleptUp =>
      match s.up with
      | .sleeping task _ => .ok (s.wake task)
      | _ => .ok s
  | .startWake i =>
      match s.up with
      | .waking task jobs => .ok { s with up := .waking task (startWake jobs i) }
      | _ => .ok s
  | .replyWake i ok =>
      match s.up with
      | .waking task jobs => do
          let (e, jobs) ← reply s.executor jobs i .awaken ok
          return { s with executor := e, up := .waking task jobs }
      | _ => .ok s
  | .wokenUp =>
      match s.up with
      | .waking _ _ => .ok { s with up := .interrupting }
      | _ => .ok s
  | .interrupted => .ok { s with up := .idle }
  | .takeDown usage task => .ok (s.takeDown usage task)
  | .startSleepDown i busy =>
      match s.down with
      | .sleeping jobs => .ok { s with down := .sleeping (startSleep s.executor jobs i busy) }
      | _ => .ok s
  | .replySleepDown i ok =>
      match s.down with
      | .sleeping jobs => do
          let (e, jobs) ← reply s.executor jobs i .asleep ok
          return { s with executor := e, down := .sleeping jobs }
      | _ => .ok s
  | .sleptDown => .ok { s with down := .idle }

/-- A loop takes a task when it is done with the last one; a `gather` is over when all its calls
are. -/
def Allowed (s : ElasticLoops Role) : Action Role Usage → Prop
  | .takeUp _ _ => match s.up with | .idle => True | _ => False
  | .startSleepUp i _ =>
      match s.up with | .sleeping _ jobs => HasStage jobs i .scheduled | _ => False
  | .replySleepUp i _ => match s.up with | .sleeping _ jobs => HasStage jobs i .sent | _ => False
  | .sleptUp => match s.up with | .sleeping _ jobs => ScaleJobsFinished jobs | _ => False
  | .startWake i => match s.up with | .waking _ jobs => HasStage jobs i .scheduled | _ => False
  | .replyWake i _ => match s.up with | .waking _ jobs => HasStage jobs i .sent | _ => False
  | .wokenUp => match s.up with | .waking _ jobs => ScaleJobsFinished jobs | _ => False
  | .interrupted => match s.up with | .interrupting => True | _ => False
  | .takeDown _ _ => match s.down with | .idle => True | _ => False
  | .startSleepDown i _ =>
      match s.down with | .sleeping jobs => HasStage jobs i .scheduled | _ => False
  | .replySleepDown i _ => match s.down with | .sleeping jobs => HasStage jobs i .sent | _ => False
  | .sleptDown => match s.down with | .sleeping jobs => ScaleJobsFinished jobs | _ => False

instance (s : ElasticLoops Role) (a : Action Role Usage) : Decidable (s.Allowed a) := by
  cases a <;> unfold Allowed <;> dsimp only <;> split <;> infer_instance

end ElasticLoops

/-! ### Registration and bootstrap of a cluster -/

namespace ElasticExecutor

/-- What is done before the loops start. -/
inductive SetupAction (Role : Type)
  | register (group : Role × String) (instanceIds : List (String × Nat))
      (gpuSlotsPerInstance : List (Finset GPUSlot))
  | select (group : Role × String) (targetAwakeNum minAwakeNum : Int)

variable {Role : Type} [DecidableEq Role]

def setup (order : SetOrder GPUSlot) (e : ElasticExecutor Role) :
    SetupAction Role → Except PyError (ElasticExecutor Role)
  | .register group instanceIds gpuSlotsPerInstance =>
      e.registerRole order group instanceIds gpuSlotsPerInstance
  | .select group targetAwakeNum minAwakeNum => do
      let (_, e) ← e.selectInitialAwakeIds group targetAwakeNum minAwakeNum
      return e

end ElasticExecutor

end Psrl
