import Psrl.Coordinator.Commands

/-!
# Psrl.Coordinator.Elastic

The bookkeeping of the `ElasticExecutor` (`psrl/utils/elastic_rm/elastic_executor.py`) against
the coordinators it commands.

`_scale_up_instance` and `_scale_down_instance` send a `WAKE_UP` or `SLEEP` command to the
coordinator of the instance's role and model and wait for the result of `exec_command`; with a
result they record the new state, in `instances_status_flags` and in the topology. Each
coordinator is a `CommandSystem` of its own, with any other callers besides the executor, and
everything is interleaved from `await` to `await`.
-/

namespace Psrl

open Py

inductive InstanceStatus
  | asleep
  | awaken
  deriving DecidableEq

structure InstanceInfo where
  gpuSlots : Finset (Option String × Nat)
  status : InstanceStatus
  deriving DecidableEq

/-- The state a coordinator puts an instance in by executing a command: the whole replica of
each named instance sleeps or wakes up. -/
def CoordinatorCommand.puts (instanceId : String × Nat) : CoordinatorCommand → Option InstanceStatus
  | .sleep ids => if instanceId.1 ∈ ids.map Prod.fst then some .asleep else none
  | .wakeUp ids => if instanceId.1 ∈ ids.map Prod.fst then some .awaken else none
  | .abort _ _ => none

/-- A call of `_scale_up_instance` (target `awaken`) or `_scale_down_instance` (target
`asleep`) that has sent its command. -/
structure ScaleCall where
  instanceId : String × Nat
  target : InstanceStatus
  finished : Bool
  deriving DecidableEq

def ScaleCall.command (call : ScaleCall) : CoordinatorCommand :=
  match call.target with
  | .awaken => .wakeUp [call.instanceId]
  | .asleep => .sleep [call.instanceId]

theorem ScaleCall.puts_command (call : ScaleCall) :
    call.command.puts call.instanceId = some call.target := by
  obtain ⟨instanceId, target, finished⟩ := call
  cases target <;> simp [ScaleCall.command, CoordinatorCommand.puts]

/-- The result of a scaling command is `None`. -/
theorem ScaleCall.run_eq_none {call : ScaleCall} {reply : Nat} {result : Option Nat}
    (hrun : coordinatorHandler.run call.command reply = .ok result) : result = none := by
  obtain ⟨instanceId, target, finished⟩ := call
  cases target <;> cases hrun <;> rfl

structure ElasticConfig where
  minAwakePerRole : Nat
  /-- `coordinator_command_timeout_s` is set -/
  hasCommandTimeout : Bool

/-- The executor and its coordinators, one for each `Group` of role and model. -/
structure ElasticSystem (Group : Type) where
  coordinators : Group → CommandSystem CoordinatorCommand Nat
  instancesStatusFlags : Group → Dict (String × Nat) InstanceStatus
  /-- `ClusterTopology.instances` -/
  topology : Dict (Group × String × Nat) InstanceInfo
  /-- the scaling calls, under the number of their command -/
  calls : Group → Nat → Option ScaleCall

namespace ElasticSystem

variable {Group : Type}

/-- The executor after registration and bootstrap, which set the flags and the topology. -/
def start (flags : Group → Dict (String × Nat) InstanceStatus)
    (topology : Dict (Group × String × Nat) InstanceInfo) : ElasticSystem Group where
  coordinators _ := .init
  instancesStatusFlags := flags
  topology := topology
  calls _ _ := none

section Steps

variable [DecidableEq Group]

/-- `ClusterTopology.set_status`. -/
def setStatus (topology : Dict (Group × String × Nat) InstanceInfo) (g : Group)
    (instanceId : String × Nat) (status : InstanceStatus) :
    Except PyError (Dict (Group × String × Nat) InstanceInfo) :=
  match topology.get? (g, instanceId) with
  | none => .error (.keyError "Instance is not registered.")
  | some info => .ok (topology.set (g, instanceId) { info with status })

/-- `_await_elastic_coordinator_command` up to its `await`, for a scaling call. -/
def awaitCommand (cfg : ElasticConfig) (w : ElasticSystem Group) (g : Group) (call : ScaleCall) :
    ElasticSystem Group :=
  let coordinator := w.coordinators g
  { w with
    coordinators := Function.update w.coordinators g
      (coordinator.execCommand call.command cfg.hasCommandTimeout true)
    calls := Function.update w.calls g
      (Function.update (w.calls g) coordinator.commandCounter (some call)) }

/-- What `exec_command` returned: the stored result, or `None` after a timeout. -/
def answer : CallerState Nat → Option Nat
  | .returned result => result
  | _ => none

/-- `exec_command` has returned. -/
def isOver : CallerState Nat → Bool
  | .returned _ | .gaveUp => true
  | _ => false

/-- The end of a scaling call, with the result of its command. -/
def record (w : ElasticSystem Group) (g : Group) (id : Nat) (call : ScaleCall)
    (result : Option Nat) : Except PyError (ElasticSystem Group) := do
  let w' := { w with
    calls := Function.update w.calls g
      (Function.update (w.calls g) id (some { call with finished := true })) }
  match result with
  | none => return w'
  | some _ =>
      let topology ← setStatus w.topology g call.instanceId call.target
      return { w' with
        instancesStatusFlags := Function.update w.instancesStatusFlags g
          ((w.instancesStatusFlags g).set call.instanceId call.target)
        topology := topology }

def awakenCount (w : ElasticSystem Group) (g : Group) : Nat :=
  (w.instancesStatusFlags g).items.countP fun item => item.2 = .awaken

inductive Action (Group : Type)
  | scaleUpInstance (g : Group) (instanceId : String × Nat)
  /-- with the running and waiting requests of the instance -/
  | scaleDownInstance (g : Group) (instanceId : String × Nat) (runningN waitingN : Nat)
  /-- a step of a coordinator or of one of its callers -/
  | coordinator (g : Group) (a : CommandSystem.Action CoordinatorCommand Nat)
  /-- a scaling call gets the result of its `exec_command` -/
  | resume (g : Group) (id : Nat)

def Enabled (w : ElasticSystem Group) : Action Group → Prop
  | .scaleUpInstance _ _ | .scaleDownInstance _ _ _ _ => True
  | .coordinator g a => (w.coordinators g).Enabled a
  | .resume g id => (w.calls g id).any (fun call => !call.finished) ∧
      isOver ((w.coordinators g).caller id)

instance (w : ElasticSystem Group) (a : Action Group) : Decidable (w.Enabled a) := by
  cases a <;> unfold Enabled <;> infer_instance

def exec (cfg : ElasticConfig) (w : ElasticSystem Group) :
    Action Group → Except PyError (ElasticSystem Group)
  | .scaleUpInstance g instanceId =>
      .ok (w.awaitCommand cfg g ⟨instanceId, .awaken, false⟩)
  | .scaleDownInstance g instanceId runningN waitingN =>
      if w.awakenCount g ≤ cfg.minAwakePerRole then .ok w
      else if cfg.minAwakePerRole = 0 ∧ w.awakenCount g = 1 ∧ (0 < runningN ∨ 0 < waitingN) then
        .ok w
      else .ok (w.awaitCommand cfg g ⟨instanceId, .asleep, false⟩)
  | .coordinator g a => do
      let coordinator ← (w.coordinators g).exec coordinatorHandler a
      return { w with coordinators := Function.update w.coordinators g coordinator }
  | .resume g id =>
      match w.calls g id with
      | none => .ok w
      | some call => w.record g id call (answer ((w.coordinators g).caller id))

/-- Flags and topology both have an instance in a state. -/
def Recorded (w : ElasticSystem Group) (g : Group) (instanceId : String × Nat)
    (status : InstanceStatus) : Prop :=
  (w.instancesStatusFlags g).get? instanceId = some status ∧
    (w.topology.get? (g, instanceId)).map InstanceInfo.status = some status

instance (w : ElasticSystem Group) (g : Group) (instanceId : String × Nat)
    (status : InstanceStatus) : Decidable (w.Recorded g instanceId status) := by
  unfold Recorded; infer_instance

end Steps

/-! ### The bookkeeping never changes -/

section Invariant

variable {w : ElasticSystem Group}
  {flags : Group → Dict (String × Nat) InstanceStatus}
  {topology : Dict (Group × String × Nat) InstanceInfo}

/-- The coordinators keep their histories, each scaling call stands for its command there, and
flags and topology are the initial ones. -/
structure Inv (flags : Group → Dict (String × Nat) InstanceStatus)
    (topology : Dict (Group × String × Nat) InstanceInfo) (w : ElasticSystem Group) : Prop where
  history : ∀ g, (w.coordinators g).History coordinatorHandler
  issued : ∀ g id call, w.calls g id = some call →
    (id, call.command) ∈ (w.coordinators g).enqueued
  flags_eq : w.instancesStatusFlags = flags
  topology_eq : w.topology = topology

theorem Inv.start : Inv flags topology (start flags topology) where
  history _ := CommandSystem.History.init
  issued _ _ _ hcall := by cases hcall
  flags_eq := rfl
  topology_eq := rfl

/-- What a coordinator answers to a scaling call is `None`. -/
theorem Inv.executed_of_returned (hinv : Inv flags topology w) {g : Group} {id : Nat}
    {call : ScaleCall} {result : Option Nat} (hcall : w.calls g id = some call)
    (hreturned : (w.coordinators g).caller id = .returned result) :
    ((id, call.command), result) ∈ (w.coordinators g).executed ∧ result = none := by
  have hist := hinv.history g
  obtain ⟨command, hmem⟩ := hist.returned id result hreturned
  have henqueued : (id, command) ∈ (w.coordinators g).enqueued := by
    rw [hist.fifo]
    exact List.mem_append_left _ (List.mem_map_of_mem hmem)
  obtain rfl := hist.command_unique henqueued (hinv.issued g id call hcall)
  obtain ⟨reply, hrun⟩ := hist.answered _ hmem
  exact ⟨hmem, ScaleCall.run_eq_none hrun⟩

theorem Inv.answer_eq_none (hinv : Inv flags topology w) {g : Group} {id : Nat}
    {call : ScaleCall} (hcall : w.calls g id = some call) :
    answer ((w.coordinators g).caller id) = none := by
  cases hcaller : (w.coordinators g).caller id with
  | returned result => exact (hinv.executed_of_returned hcall hcaller).2
  | _ => rfl

/-- A step of a coordinator forgets no command. -/
theorem enqueued_subset_exec {c c' : CommandSystem CoordinatorCommand Nat}
    {a : CommandSystem.Action CoordinatorCommand Nat}
    (hexec : c.exec coordinatorHandler a = .ok c') : c.enqueued ⊆ c'.enqueued := by
  cases a with
  | execCommand command hasTimeout blocking =>
      cases hexec
      exact List.subset_append_left _ _
  | takeCommand =>
      simp only [CommandSystem.exec] at hexec
      split at hexec <;> cases hexec <;> exact List.Subset.refl _
  | finishCommand reply =>
      cases hhandler : c.handler with
      | running id command =>
          simp only [CommandSystem.exec, hhandler] at hexec
          split at hexec
          · rename_i result _
            obtain ⟨results, events, state, hreport, -⟩ :=
              CommandSystem.report_cases coordinatorHandler c id result
            rw [hreport] at hexec
            cases hexec
            exact List.Subset.refl _
          · cases hexec
            exact List.Subset.refl _
      | _ =>
          simp only [CommandSystem.exec, hhandler] at hexec
          cases hexec
          exact List.Subset.refl _
  | _ => cases hexec; exact List.Subset.refl _

variable [DecidableEq Group] {cfg : ElasticConfig} {w' : ElasticSystem Group}

theorem Inv.awaitCommand (hinv : Inv flags topology w) (g : Group) (call : ScaleCall) :
    Inv flags topology (w.awaitCommand cfg g call) := by
  refine { hinv with history := ?_, issued := ?_ }
  · intro g'
    by_cases hg : g' = g
    · subst hg
      simpa [ElasticSystem.awaitCommand] using (hinv.history g').execCommand _ _ _
    · simpa [ElasticSystem.awaitCommand, hg] using hinv.history g'
  · intro g' id call' hcall
    by_cases hg : g' = g
    · subst hg
      simp only [ElasticSystem.awaitCommand, Function.update_self, Function.update_apply] at hcall ⊢
      split at hcall
      · rename_i hid
        cases hcall
        simp [CommandSystem.execCommand, hid]
      · exact List.mem_append_left _ (hinv.issued g' id call' hcall)
    · simp only [ElasticSystem.awaitCommand, Function.update_of_ne hg] at hcall ⊢
      exact hinv.issued g' id call' hcall

theorem Inv.coordinator (hinv : Inv flags topology w) {g : Group}
    {a : CommandSystem.Action CoordinatorCommand Nat} {c : CommandSystem CoordinatorCommand Nat}
    (henabled : (w.coordinators g).Enabled a)
    (hexec : (w.coordinators g).exec coordinatorHandler a = .ok c) :
    Inv flags topology { w with coordinators := Function.update w.coordinators g c } := by
  refine { hinv with history := ?_, issued := ?_ }
  · intro g'
    by_cases hg : g' = g
    · subst hg
      simpa using (hinv.history g').exec henabled hexec
    · simpa [hg] using hinv.history g'
  · intro g' id call hcall
    have hissued := hinv.issued g' id call hcall
    by_cases hg : g' = g
    · subst hg
      simpa using enqueued_subset_exec hexec hissued
    · simpa [hg] using hissued

/-- The end of a scaling call only closes the call. -/
theorem Inv.resume (hinv : Inv flags topology w) {g : Group} {id : Nat} {call : ScaleCall}
    (hcall : w.calls g id = some call)
    (hrecord : w.record g id call (answer ((w.coordinators g).caller id)) = .ok w') :
    Inv flags topology w' := by
  rw [hinv.answer_eq_none hcall] at hrecord
  cases hrecord
  refine { hinv with issued := ?_ }
  intro g' id' call' hcall'
  by_cases hg : g' = g
  · subst hg
    simp only [Function.update_self, Function.update_apply] at hcall'
    split at hcall'
    · rename_i hid
      cases hcall'
      rw [hid]
      exact hinv.issued g' id call hcall
    · exact hinv.issued g' id' call' hcall'
  · simp only [Function.update_of_ne hg] at hcall'
    exact hinv.issued g' id' call' hcall'

theorem Inv.exec (hinv : Inv flags topology w) {a : Action Group} (henabled : w.Enabled a)
    (hexec : w.exec cfg a = .ok w') : Inv flags topology w' := by
  cases a with
  | scaleUpInstance g instanceId => cases hexec; exact hinv.awaitCommand g _
  | scaleDownInstance g instanceId runningN waitingN =>
      simp only [ElasticSystem.exec] at hexec
      split at hexec
      · cases hexec; exact hinv
      · split at hexec
        · cases hexec; exact hinv
        · cases hexec; exact hinv.awaitCommand g _
  | coordinator g a =>
      obtain ⟨c, hc, heq⟩ := bind_eq_ok.mp hexec
      cases heq
      exact hinv.coordinator henabled hc
  | resume g id =>
      cases hcall : w.calls g id with
      | none =>
          simp only [ElasticSystem.exec, hcall] at hexec
          cases hexec
          exact hinv
      | some call =>
          simp only [ElasticSystem.exec, hcall] at hexec
          exact hinv.resume hcall hexec

/-- **The executor's bookkeeping against the cluster.** In every run, a scaling call whose
command came back before its timeout had it executed, which put the instance in the state the
call asked for; flags and topology then have this state exactly if they had it in any earlier
state of the run, such as the one in which the call was made. -/
theorem bookkeeping_follows_iff {w0 : ElasticSystem Group}
    (hbefore : Run.Reachable (exec cfg) Enabled (start flags topology) w0)
    (hreach : Run.Reachable (exec cfg) Enabled w0 w) {g : Group} {id : Nat}
    {call : ScaleCall} {result : Option Nat} (hcall : w.calls g id = some call)
    (hreturned : (w.coordinators g).caller id = .returned result) :
    (∃ command, ((id, command), result) ∈ (w.coordinators g).executed ∧
      command.puts call.instanceId = some call.target) ∧
    (w.Recorded g call.instanceId call.target ↔ w0.Recorded g call.instanceId call.target) := by
  have hinv0 : Inv flags topology w0 :=
    hbefore.invariant Inv.start fun _ _ _ hinv henabled hexec => hinv.exec henabled hexec
  have hinv : Inv flags topology w :=
    hreach.invariant hinv0 fun _ _ _ hinv henabled hexec => hinv.exec henabled hexec
  refine ⟨⟨call.command, (hinv.executed_of_returned hcall hreturned).1, call.puts_command⟩, ?_⟩
  unfold Recorded
  rw [hinv.flags_eq, hinv.topology_eq, hinv0.flags_eq, hinv0.topology_eq]

end Invariant

/-- One group with one instance, in a state. -/
def oneInstance (status : InstanceStatus) : ElasticSystem Unit :=
  start (fun _ => Dict.empty.set ("replica", 0) status)
    (Dict.empty.set ((), "replica", 0) ⟨∅, status⟩)

/-- A scale-up from its call to its end. -/
def scaleUpRun : List (Action Unit) :=
  [.scaleUpInstance () ("replica", 0), .coordinator () .takeCommand,
    .coordinator () (.finishCommand 0), .coordinator () (.wake 0), .resume () 0]

/-- Waking up an instance that is recorded as awake. -/
theorem bookkeeping_follows_iff_awake : ∃ w : ElasticSystem Unit,
    Run.Reachable (exec ⟨0, true⟩) Enabled (oneInstance .awaken) w ∧
    w.calls () 0 = some ⟨("replica", 0), .awaken, true⟩ ∧ w.Recorded () ("replica", 0) .awaken := by
  obtain ⟨w, hreach, hw⟩ : ∃ w : ElasticSystem Unit,
      Run.Reachable (exec ⟨0, true⟩) Enabled (oneInstance .awaken) w ∧
      decide (w.calls () 0 = some ⟨("replica", 0), .awaken, true⟩ ∧
        (w.coordinators ()).caller 0 = .returned none) = true :=
    Run.exists_reachable_of_perform (l := scaleUpRun) (by decide +kernel)
  obtain ⟨hcall, hreturned⟩ := of_decide_eq_true hw
  exact ⟨w, hreach, hcall,
    (bookkeeping_follows_iff .start hreach hcall hreturned).2.mpr (by decide)⟩

/-- The coordinator has executed a `WAKE_UP` command and has reported it, without a timeout on
the call: the executor has dropped the result, and flags and topology still have the instance
asleep. -/
theorem bookkeeping_stale_after_wake_up : ∃ w : ElasticSystem Unit,
    Run.Reachable (exec ⟨0, false⟩) Enabled (oneInstance .asleep) w ∧
    (w.coordinators ()).executed = [((0, .wakeUp [("replica", 0)]), none)] ∧
    (w.coordinators ()).caller 0 = .returned none ∧
    w.calls () 0 = some ⟨("replica", 0), .awaken, true⟩ ∧
    w.Recorded () ("replica", 0) .asleep := by
  obtain ⟨w, hreach, hw⟩ : ∃ w : ElasticSystem Unit,
      Run.Reachable (exec ⟨0, false⟩) Enabled (oneInstance .asleep) w ∧
      decide ((w.coordinators ()).executed = [((0, .wakeUp [("replica", 0)]), none)] ∧
        (w.coordinators ()).caller 0 = .returned none ∧
        w.calls () 0 = some ⟨("replica", 0), .awaken, true⟩ ∧
        w.Recorded () ("replica", 0) .asleep) = true :=
    Run.exists_reachable_of_perform (l := scaleUpRun) (by decide +kernel)
  exact ⟨w, hreach, of_decide_eq_true hw⟩

end ElasticSystem

end Psrl
