import Psrl.Elastic.Exclusive
import Psrl.Lib.First

/-!
# Psrl.Elastic.ScaleUp

**What a scale-up task takes.** The policy emits tasks for one instance
(`ScalingAction.num_instances` is always left at 1), the instance to wake being the preferred one.
The scale-up loop first puts to sleep the least used instance that other roles can spare, wherever
it is, and then looks for an instance to wake. Whether the two meet on a GPU is not checked.

`scaleUp` is one task from beginning to end, and the loop takes it there if the scale-down loop does
nothing in between (`reachable_scaleUp`).
-/

namespace Psrl

open Py

/-! ### The free-GPU branch of the policy -/

/-- `InstanceSignal`, as far as the branch reads it. -/
structure InstanceSignal (Role : Type) where
  key : InstanceIdentifier Role
  isAwaken : Bool
  gpuKeys : Option (Finset GPUSlot)

section Policy

variable {Role : Type} [DecidableEq Role]

/-- `_build_instance_signals`. -/
def ElasticExecutor.buildInstanceSignals (e : ElasticExecutor Role) : List (InstanceSignal Role) :=
  e.instancesStatusFlags.items.flatMap fun (group, flags) => flags.items.map fun (id, status) =>
    let key : InstanceIdentifier Role := ⟨group.1, group.2, id⟩
    let slots := e.topology.getGpuSlots key
    ⟨key, status = .awaken, if slots = ∅ then none else some slots⟩

/-- `_pick_scale_up_candidate_on_free_gpu`. -/
def pickScaleUpCandidateOnFreeGpu {Mu : Type} [LinearOrder Mu]
    (fullRoleSignals otherRoleSignals : List (InstanceSignal Role))
    (instanceMu : InstanceIdentifier Role → Mu) : Option (InstanceSignal Role) :=
  let otherAwakeGpuKeys := otherRoleSignals.foldl
    (fun (keys : Finset GPUSlot) (s : InstanceSignal Role) =>
      if s.isAwaken = true then keys ∪ s.gpuKeys.getD ∅ else keys) ∅
  let freeCandidates := fullRoleSignals.filter fun s =>
    !s.isAwaken && decide (s.gpuKeys.getD ∅ ≠ ∅ ∧ Disjoint (s.gpuKeys.getD ∅) otherAwakeGpuKeys)
  (freeCandidates.insertionSort fun a b => instanceMu b.key ≤ instanceMu a.key).head?

/-- The task of an action that scales up for one signal. -/
def scaleUpTask (s : InstanceSignal Role) : ScaleTask Role :=
  ⟨s.key.role, s.key.modelName, 1, [s.key.instanceId]⟩

end Policy

namespace ElasticExecutor

variable {Role : Type} [DecidableEq Role] {Usage : Type} [LinearOrder Usage]

/-- What the engines and the commands report while a task is worked on. -/
structure Reports (Role Usage : Type) where
  usage : InstanceIdentifier Role → Usage
  busy : InstanceIdentifier Role → Bool
  sleepOk : InstanceIdentifier Role → Bool
  wakeOk : InstanceIdentifier Role → Bool

variable (e : ElasticExecutor Role) (reports : Reports Role Usage) (task : ScaleTask Role)

/-- The instances of other roles a task puts to sleep. -/
def sleptFor : List (InstanceIdentifier Role) :=
  (e.findInstancesToScaledDownForOtherRoles reports.usage task).filter fun key =>
    e.maySleep key (reports.busy key) && reports.sleepOk key

/-- The instances a task wakes. -/
def wokenBy : List (InstanceIdentifier Role) :=
  (e.findInstancesToScaledUp task).filter reports.wakeOk

/-- `set_status` for one instance after another. -/
def setStatuses (keys : List (InstanceIdentifier Role))
    (status : InstanceStatus) : Except PyError (ElasticExecutor Role) :=
  keys.foldlM (fun e key => e.setStatus key status) e

/-- One scale-up task: the instances it put to sleep and those it woke. -/
def scaleUp : Except PyError (List (InstanceIdentifier Role) × List (InstanceIdentifier Role) ×
      ElasticExecutor Role) := do
  let e₁ ← e.setStatuses (e.sleptFor reports task) .asleep
  let e₂ ← e₁.setStatuses (e₁.wokenBy reports task) .awaken
  return (e.sleptFor reports task, e₁.wokenBy reports task, e₂)

variable {e reports task} {e₁ : ElasticExecutor Role} {key v t : InstanceIdentifier Role}

/-! ### The instance that is put to sleep -/

theorem get?_removableBudget {role : Role} {group : Role × String} (hmem : group ∈ e.roles)
    (hpos : e.maxRemovable role group ≠ 0) :
    (e.removableBudget role).get? group = some (e.maxRemovable role group) := by
  have hloop : ∀ {roles : List (Role × String)} {budget : Dict (Role × String) Nat},
      (group ∈ roles ∨ budget.get? group = some (e.maxRemovable role group)) →
        (roles.foldl (fun budget group => if e.maxRemovable role group = 0 then budget else
          budget.set group (e.maxRemovable role group)) budget).get? group =
            some (e.maxRemovable role group) := by
    intro roles
    induction roles with
    | nil => exact fun h => h.resolve_left List.not_mem_nil
    | cons group' roles ih =>
        intro budget h
        rw [List.foldl_cons]
        refine ih ?_
        rw [List.mem_cons] at h
        by_cases hzero : e.maxRemovable role group' = 0
        · rw [if_pos hzero]
          rcases h with (rfl | h) | h
          · exact absurd hzero hpos
          · exact .inl h
          · exact .inr h
        · rw [if_neg hzero, Dict.get?_set]
          rcases h with (rfl | h) | h
          · exact .inr (if_pos rfl)
          · exact .inl h
          · refine .inr ?_
            split
            · rename_i heq
              rw [heq]
            · exact h
  exact hloop (.inl hmem)

theorem budget_of_mem_candidates {role : Role} (hmem : key ∈ e.candidates role) :
    ((e.removableBudget role).get? (key.role, key.modelName)).getD 0 ≠ 0 := by
  obtain ⟨group, hgroup, hin⟩ := List.mem_flatMap.mp hmem
  split at hin
  · exact absurd hin List.not_mem_nil
  · rename_i hpos
    obtain ⟨id, -, rfl⟩ := List.mem_map.mp hin
    show ((e.removableBudget role).get? group).getD 0 ≠ 0
    rw [get?_removableBudget hgroup hpos]
    exact hpos

/-- A task for one instance picks the first of the least used candidates. -/
theorem mem_findForOtherRoles_one (hone : task.numInstances = 1)
    {usage : InstanceIdentifier Role → Usage} :
    v ∈ e.findInstancesToScaledDownForOtherRoles usage task ↔
      IsFirstLeast usage (e.candidates task.roleName) v := by
  unfold findInstancesToScaledDownForOtherRoles
  cases hsort : (e.candidates task.roleName).insertionSort fun a b => usage a ≤ usage b with
  | nil =>
      have hnil : e.candidates task.roleName = [] := by
        have hperm := List.perm_insertionSort (fun a b => usage a ≤ usage b)
          (e.candidates task.roleName)
        rw [hsort] at hperm
        exact hperm.symm.eq_nil
      refine ⟨fun h => absurd h List.not_mem_nil, fun ⟨before, after, h, _⟩ => ?_⟩
      simp [hnil] at h
  | cons first rest =>
      have hfirst := isFirstLeast_head_insertionSort hsort
      have hmem : first ∈ e.candidates task.roleName := by
        obtain ⟨before, after, h, -⟩ := hfirst
        simp [h]
      unfold pickLoop
      dsimp only
      rw [if_neg (budget_of_mem_candidates hmem), if_pos (by simp [hone]), List.nil_append,
        List.mem_singleton]
      exact ⟨fun h => h ▸ hfirst, fun h => h.unique hfirst⟩

theorem findForOtherRoles_eq_singleton (hone : task.numInstances = 1)
    {usage : InstanceIdentifier Role → Usage}
    (hmem : v ∈ e.findInstancesToScaledDownForOtherRoles usage task) :
    e.findInstancesToScaledDownForOtherRoles usage task = [v] := by
  unfold findInstancesToScaledDownForOtherRoles at hmem ⊢
  cases hsort : (e.candidates task.roleName).insertionSort fun a b => usage a ≤ usage b with
  | nil =>
      rw [hsort] at hmem
      exact absurd hmem List.not_mem_nil
  | cons first rest =>
      have hin : first ∈ e.candidates task.roleName := by
        obtain ⟨before, after, h, -⟩ := isFirstLeast_head_insertionSort hsort
        simp [h]
      rw [hsort] at hmem
      unfold pickLoop at hmem ⊢
      dsimp only at hmem ⊢
      rw [if_neg (budget_of_mem_candidates hin), if_pos (by simp [hone]), List.nil_append] at hmem ⊢
      rw [List.mem_singleton.mp hmem]

variable (e reports task)

/-- The instance the task puts to sleep: the first of the least used instances that other roles
can spare, unless it is the last one and has work, or its command fails. -/
def Spared (v : InstanceIdentifier Role) : Prop :=
  IsFirstLeast reports.usage (e.candidates task.roleName) v ∧
    e.maySleep v (reports.busy v) = true ∧ reports.sleepOk v = true

/-! ### The instance that is woken -/

/-- With `v` asleep, no awake instance of another role is on a GPU of `t`. -/
def ClearWithout (v t : InstanceIdentifier Role) : Prop :=
  ∀ other, e.topology.Awake other → other ≠ v → other.role ≠ t.role →
    Disjoint (e.topology.getGpuSlots t) (e.topology.getGpuSlots other)

/-- The asleep instances in the order the task tries them: the preferred ones before the others. -/
def inOrder : List (String × Nat) :=
  e.candidateIds task ++
    if task.preferredInstanceIds = [] then [] else e.idsWith (task.roleName, task.modelName) .asleep

/-- The instance the task wakes after `v` fell asleep: the first one that is clear. -/
def WakesWithout (v t : InstanceIdentifier Role) : Prop :=
  ∃ id, t = ⟨task.roleName, task.modelName, id⟩ ∧
    IsFirst (fun id => e.ClearWithout v ⟨task.roleName, task.modelName, id⟩) (e.inOrder task) id

theorem head?_filteredIds :
    (e.filteredIds task).head? = (e.clearIds task (e.inOrder task)).head? := by
  unfold filteredIds inOrder clearIds
  rw [List.filter_append, List.head?_append]
  cases hcand : (e.candidateIds task).filter fun id =>
      !e.topology.hasOtherRoleAwakenOnSharedGpu ⟨task.roleName, task.modelName, id⟩ with
  | nil =>
      by_cases hpreferred : task.preferredInstanceIds = []
      · simp [hpreferred]
      · simp [hpreferred]
  | cons id rest => simp

variable {e reports task}

theorem mem_findUp_one (hone : task.numInstances = 1) :
    t ∈ e.findInstancesToScaledUp task ↔ ∃ id, t = ⟨task.roleName, task.modelName, id⟩ ∧
      (e.clearIds task (e.inOrder task)).head? = some id := by
  rw [← head?_filteredIds]
  unfold findInstancesToScaledUp pySliceTo
  rw [hone]
  cases e.filteredIds task with
  | nil => simp
  | cons id rest => simp

/-- A flag of another role does not matter for the ids of a role. -/
theorem idsWith_setStatus {status status' : InstanceStatus} (hset : e.setStatus v status = .ok e₁)
    {group : Role × String} (hne : group ≠ (v.role, v.modelName)) :
    e₁.idsWith group status' = e.idsWith group status' := by
  unfold setStatus at hset
  obtain ⟨flags, -, hset⟩ := bind_eq_ok.mp hset
  obtain ⟨topology, -, hset⟩ := bind_eq_ok.mp hset
  cases hset
  unfold idsWith
  rw [roleStatus_set, if_neg hne]

/-- After an instance of another role fell asleep. -/
theorem mem_findUp_slept (hone : task.numInstances = 1)
    (hset : e.setStatus v .asleep = .ok e₁) (h₁ : Consistent e₁)
    (hstatus : ClusterTopology.StatusSet e.topology v .asleep e₁.topology)
    (hrole : v.role ≠ task.roleName) :
    t ∈ e₁.findInstancesToScaledUp task ↔ e.WakesWithout task v t := by
  have hids : e₁.idsWith (task.roleName, task.modelName) .asleep =
      e.idsWith (task.roleName, task.modelName) .asleep :=
    idsWith_setStatus hset fun heq => hrole (congrArg Prod.fst heq).symm
  have horder : e₁.inOrder task = e.inOrder task := by
    unfold inOrder candidateIds
    rw [hids]
  have hclear : ∀ k, e₁.topology.Clear k ↔ e.ClearWithout v k := by
    intro k
    refine forall_congr' fun other => ?_
    rw [hstatus.awake_iff, hstatus.slots, hstatus.slots]
    by_cases heq : other = v
    · simp [heq]
    · simp [heq]
  rw [mem_findUp_one hone, horder]
  refine exists_congr fun id => and_congr_right fun _ => ?_
  unfold clearIds
  rw [head?_filter_eq_some_iff]
  refine IsFirst.congr fun id' _ => ?_
  rw [Bool.not_eq_true', h₁.exact.hasOtherRole_eq_false_iff, hclear]

/-! ### One task -/

/-- Statuses of registered instances are set one after another. -/
theorem Consistent.setStatuses (status : InstanceStatus) :
    ∀ {keys : List (InstanceIdentifier Role)} {e : ElasticExecutor Role}, Consistent e →
      (∀ key ∈ keys, e.Registered key) →
      ∃ e', e.setStatuses keys status = .ok e' ∧ Consistent e'
  | [], e, h, _ => ⟨e, rfl, h⟩
  | key :: keys, e, h, hreg => by
      obtain ⟨e₁, hok, h₁, hset⟩ := h.setStatus (hreg key (List.mem_cons_self ..)) status
      obtain ⟨e', hfold, h'⟩ := h₁.setStatuses status fun k hk =>
        (hreg k (List.mem_cons_of_mem _ hk)).statusSet hset
      refine ⟨e', ?_, h'⟩
      unfold ElasticExecutor.setStatuses at hfold ⊢
      rw [List.foldlM_cons, hok, ok_bind, hfold]

theorem setStatuses_singleton (e : ElasticExecutor Role) (key : InstanceIdentifier Role)
    (status : InstanceStatus) : e.setStatuses [key] status = e.setStatus key status := by
  unfold setStatuses
  rw [List.foldlM_cons]
  cases e.setStatus key status with
  | error err => rfl
  | ok e' => rfl

theorem mem_sleptFor (hone : task.numInstances = 1) :
    v ∈ e.sleptFor reports task ↔ e.Spared reports task v := by
  unfold sleptFor
  rw [List.mem_filter, mem_findForOtherRoles_one hone, Bool.and_eq_true]
  rfl

theorem sleptFor_eq_singleton (hone : task.numInstances = 1)
    (hmem : v ∈ e.sleptFor reports task) : e.sleptFor reports task = [v] := by
  obtain ⟨hfound, hkept⟩ := List.mem_filter.mp hmem
  unfold sleptFor
  rw [findForOtherRoles_eq_singleton hone hfound]
  exact List.filter_cons_of_pos hkept

theorem Consistent.of_mem_sleptFor (h : Consistent e) (hmem : v ∈ e.sleptFor reports task) :
    v.role ≠ task.roleName ∧ e.Registered v := by
  obtain ⟨hrole, hflag⟩ := mem_findForOtherRoles (List.mem_filter.mp hmem).1
  exact ⟨hrole, h.registered_of_flag hflag⟩

omit [LinearOrder Usage] in
theorem Consistent.of_mem_wokenBy (h : Consistent e) (hmem : t ∈ e.wokenBy reports task) :
    e.Registered t :=
  h.registered_of_flag (mem_findInstancesToScaledUp (List.mem_filter.mp hmem).1).2.1

/-- What a task for one instance puts to sleep and wakes. -/
theorem scaleUp_spec (h : Consistent e) (hone : task.numInstances = 1)
    (reports : Reports Role Usage) :
    ∃ slept woken e', e.scaleUp reports task = .ok (slept, woken, e') ∧
      (∀ v, v ∈ slept ↔ e.Spared reports task v) ∧
      ∀ v ∈ slept, ∀ t, t ∈ woken ↔ e.WakesWithout task v t ∧ reports.wakeOk t = true := by
  obtain ⟨e₁, hok₁, h₁⟩ := h.setStatuses .asleep fun v (hv : v ∈ e.sleptFor reports task) =>
    (h.of_mem_sleptFor hv).2
  obtain ⟨e₂, hok₂, -⟩ := h₁.setStatuses .awaken fun t (ht : t ∈ e₁.wokenBy reports task) =>
    h₁.of_mem_wokenBy ht
  refine ⟨e.sleptFor reports task, e₁.wokenBy reports task, e₂, ?_, fun v => mem_sleptFor hone,
    fun v hv t => ?_⟩
  · unfold scaleUp
    rw [hok₁, ok_bind, hok₂]
    rfl
  · obtain ⟨hrole, hreg⟩ := h.of_mem_sleptFor hv
    obtain ⟨e₁', hset, -, hstatus⟩ := h.setStatus hreg .asleep
    rw [sleptFor_eq_singleton hone hv, setStatuses_singleton, hset] at hok₁
    cases hok₁
    unfold wokenBy
    rw [List.mem_filter, mem_findUp_slept hone hset h₁ hstatus hrole]

/-- Two instances share a GPU. -/
def Share (e : ElasticExecutor Role) (v t : InstanceIdentifier Role) : Prop :=
  ¬ Disjoint (e.topology.getGpuSlots v) (e.topology.getGpuSlots t)

end ElasticExecutor

namespace ElasticLoops

open ElasticExecutor

variable {Role : Type} [DecidableEq Role] {Usage : Type} [LinearOrder Usage]
  {e e₁ e₂ : ElasticExecutor Role} {s : ElasticLoops Role} {task : ScaleTask Role}
  {reports : Reports Role Usage} {down : ScaleDownPhase Role}

/-! ### A task as a run of the loop -/

/-- The end of the only call of a `gather`. -/
theorem reply_singleton {key : InstanceIdentifier Role} {status : InstanceStatus} {ok : Bool}
    (hset : e.setStatuses (if ok = true then [key] else []) status = .ok e₁) :
    reply e [⟨key, .sent⟩] 0 status ok = .ok (e₁, [⟨key, .finished⟩]) := by
  cases ok with
  | false =>
      cases hset
      rfl
  | true =>
      rw [if_pos rfl, setStatuses_singleton] at hset
      simp only [reply, List.getElem?_cons_zero, if_true, hset]
      rfl

omit [DecidableEq Role] in
theorem finished_singleton (key : InstanceIdentifier Role) :
    ScaleJobsFinished [⟨key, .finished⟩] := by
  simp [ScaleJobsFinished]

/-- The second half of a task. -/
theorem reachable_wake (up : ScaleUpPhase Role) (hone : task.numInstances = 1)
    (hok : e₁.setStatuses (e₁.wokenBy reports task) .awaken = .ok e₂) :
    Run.Reachable exec (Allowed : _ → Action Role Usage → Prop) (wake ⟨e₁, up, down⟩ task)
      ⟨e₂, .idle, down⟩ := by
  have hlength : (e₁.findInstancesToScaledUp task).length ≤ 1 := by
    simp [findInstancesToScaledUp, pySliceTo, hone]
  unfold wokenBy at hok
  unfold wake
  dsimp only
  generalize e₁.findInstancesToScaledUp task = keys at hok hlength
  match keys, hlength with
  | [], _ =>
      cases hok
      exact .start
  | [t], _ =>
      rw [List.filter_singleton, Bool.cond_eq_ite] at hok
      have hsent : Run.Reachable exec (Allowed : _ → Action Role Usage → Prop)
          ⟨e₁, .waking task (jobsFor [t]), down⟩ ⟨e₁, .waking task [⟨t, .sent⟩], down⟩ :=
        Run.Reachable.start.step (a := .startWake 0)
          (show HasStage [⟨t, .scheduled⟩] 0 .scheduled from ⟨_, rfl, rfl⟩) rfl
      have hwoken : Run.Reachable exec (Allowed : _ → Action Role Usage → Prop)
          ⟨e₁, .waking task (jobsFor [t]), down⟩ ⟨e₂, .waking task [⟨t, .finished⟩], down⟩ := by
        refine hsent.step (a := .replyWake 0 (reports.wakeOk t))
          (show HasStage [⟨t, .sent⟩] 0 .sent from ⟨_, rfl, rfl⟩) ?_
        simp only [exec, reply_singleton hok]
        rfl
      exact (hwoken.step (a := Action.wokenUp) (finished_singleton t) rfl).step
        (a := .interrupted) trivial rfl

/-- The loop works on a task as `scaleUp` does, if the other loop does nothing meanwhile. -/
theorem reachable_scaleUp {slept woken : List (InstanceIdentifier Role)}
    (hidle : s.up = .idle) (hone : task.numInstances = 1)
    (hok : s.executor.scaleUp reports task = .ok (slept, woken, e₂)) :
    Run.Reachable exec (Allowed : _ → Action Role Usage → Prop) s { s with executor := e₂ } := by
  obtain ⟨e, up, down⟩ := s
  cases hidle
  obtain ⟨e₁, hok₁, hok⟩ := bind_eq_ok.mp hok
  obtain ⟨_, hok₂, hok⟩ := bind_eq_ok.mp hok
  cases hok
  have htake : Run.Reachable exec (Allowed : _ → Action Role Usage → Prop) ⟨e, .idle, down⟩
      (takeUp ⟨e, .idle, down⟩ reports.usage task) :=
    Run.Reachable.start.step (a := .takeUp reports.usage task) trivial rfl
  refine htake.trans ?_
  unfold takeUp
  dsimp only
  cases hfind : e.findInstancesToScaledDownForOtherRoles reports.usage task with
  | nil =>
      have hnone : e.sleptFor reports task = [] := by rw [sleptFor, hfind, List.filter_nil]
      rw [hnone] at hok₁
      cases hok₁
      exact reachable_wake _ hone hok₂
  | cons v rest =>
      have hsingle := findForOtherRoles_eq_singleton hone (hfind ▸ List.mem_cons_self ..)
      rw [sleptFor, hsingle] at hok₁
      obtain rfl : rest = [] := (List.cons.inj (hfind.symm.trans hsingle)).2
      have hstart : Run.Reachable exec (Allowed : _ → Action Role Usage → Prop)
          ⟨e, .sleeping task (jobsFor [v]), down⟩
          ⟨e, .sleeping task (startSleep e (jobsFor [v]) 0 (reports.busy v)), down⟩ :=
        Run.Reachable.start.step (a := .startSleepUp 0 (reports.busy v))
          (show HasStage [⟨v, .scheduled⟩] 0 .scheduled from ⟨_, rfl, rfl⟩) rfl
      -- the guard of the call lets the command through, or the call is over
      have hslept : Run.Reachable exec (Allowed : _ → Action Role Usage → Prop)
          ⟨e, .sleeping task (jobsFor [v]), down⟩ ⟨e₁, .sleeping task [⟨v, .finished⟩], down⟩ := by
        cases hmay : e.maySleep v (reports.busy v) with
        | false =>
            simp only [List.filter_singleton, hmay, Bool.false_and, cond_false] at hok₁
            cases hok₁
            simpa [startSleep, jobsFor, hmay] using hstart
        | true =>
            simp only [List.filter_singleton, hmay, Bool.true_and, Bool.cond_eq_ite] at hok₁
            refine hstart.step (a := .replySleepUp 0 (reports.sleepOk v)) ?_ ?_
            · exact ⟨⟨v, .sent⟩, by simp [startSleep, jobsFor, hmay], rfl⟩
            · simp [exec, startSleep, jobsFor, hmay, reply_singleton hok₁]
      exact (hslept.step (a := Action.sleptUp) (finished_singleton v) rfl).trans
        (reachable_wake _ hone hok₂)

/-- **What a scale-up task takes.** In every state the loops reach: an idle scale-up loop comes to
what `scaleUp` returns; what a task of the policy puts to sleep shares a GPU with what it wakes
exactly if the least used instance other roles can spare is on a GPU of the instance that is then
the first one clear; nothing is put to sleep exactly if other roles have nothing to spare, wherever
the preferred instance is; and something is woken in exchange exactly if some instance is clear
without the spared one. -/
theorem scaleUp_takes_iff {order : SetOrder GPUSlot} {roles : List (Role × String)}
    {minAwakePerRole : Nat}
    (hsetup : Run.Reachable (setup order) (fun _ _ => True) (new roles minAwakePerRole) e)
    (hreach : Run.Reachable exec (Allowed : ElasticLoops Role → Action Role Usage → Prop)
      (start e) s) (reports : Reports Role Usage) (task : ScaleTask Role)
    (hone : task.numInstances = 1) :
    ∃ slept woken e', s.executor.scaleUp reports task = .ok (slept, woken, e') ∧
      (s.up = .idle → Run.Reachable exec (Allowed : _ → Action Role Usage → Prop) s
        { s with executor := e' }) ∧
      ((∀ v ∈ slept, ∃ t ∈ woken, s.executor.Share v t) ↔
        ∀ v, s.executor.Spared reports task v → ∃ t, s.executor.WakesWithout task v t ∧
          reports.wakeOk t = true ∧ s.executor.Share v t) ∧
      (slept = [] ↔ ∀ v, ¬ s.executor.Spared reports task v) ∧
      ((slept ≠ [] → woken ≠ []) ↔
        ∀ v, s.executor.Spared reports task v → ∃ t, s.executor.WakesWithout task v t ∧
          reports.wakeOk t = true) := by
  have hinv := Inv.of_reachable hsetup hreach
  obtain ⟨slept, woken, e', hok, hslept, hwoken⟩ := scaleUp_spec hinv.consistent hone reports
  refine ⟨slept, woken, e', hok, fun hidle => reachable_scaleUp hidle hone hok, ?_, ?_, ?_⟩
  · refine forall_congr' fun v => ?_
    rw [← hslept v]
    refine imp_congr_right fun hv => exists_congr fun t => ?_
    rw [hwoken v hv t, and_assoc]
  · rw [List.eq_nil_iff_forall_not_mem]
    exact forall_congr' fun v => not_congr (hslept v)
  · constructor
    · intro hsome v hv
      have hv := (hslept v).mpr hv
      obtain ⟨t, ht⟩ := List.exists_mem_of_ne_nil woken (hsome (List.ne_nil_of_mem hv))
      exact ⟨t, (hwoken v hv t).mp ht⟩
    · intro hsome hne
      obtain ⟨v, hv⟩ := List.exists_mem_of_ne_nil slept hne
      obtain ⟨t, ht⟩ := hsome v ((hslept v).mp hv)
      exact List.ne_nil_of_mem ((hwoken v hv t).mpr ht)

/-- The engines of role `false` are used by their number, and every command succeeds. -/
def quietReports : Reports Bool Nat where
  usage key := key.instanceId.2
  busy _ := false
  sleepOk _ := true
  wakeOk _ := true

/-- Two instances of role `false` on the GPUs `0` and `1`, both awake; one of role `true` on
GPU `2`, awake, and another one on the given GPUs, asleep. -/
def fourInstances (slots : Finset GPUSlot) : List (SetupAction Bool) :=
  [.register (false, "m") [("a", 0), ("a", 1)] [{(none, 0)}, {(none, 1)}],
    .register (true, "m") [("b", 0), ("b", 1)] [{(none, 2)}, slots],
    .select (false, "m") 2 2, .select (true, "m") 1 1]

/-- The task for the second instance of role `true`. -/
def forSecond : ScaleTask Bool := ⟨true, "m", 1, [("b", 1)]⟩

/-- The instance to wake is on the GPU of the one that is spared. -/
theorem scaleUp_takes_iff_transfer :
    ∃ (e : ElasticExecutor Bool) (slept woken : List (InstanceIdentifier Bool))
      (e' : ElasticExecutor Bool),
      Run.Reachable (setup slotOrder) (fun _ _ => True) (new [(false, "m"), (true, "m")] 1) e ∧
      e.scaleUp quietReports forSecond = .ok (slept, woken, e') ∧ slept = [⟨false, "m", "a", 0⟩] ∧
      ∀ v, e.Spared quietReports forSecond v →
        ∃ t, e.WakesWithout forSecond v t ∧ e.Share v t := by
  have h : ((Run.perform (setup slotOrder) (fun _ _ => True) (new [(false, "m"), (true, "m")] 1)
      (fourInstances {(none, 0)})).bind fun e =>
        (e.scaleUp quietReports forSecond).toOption.map fun (slept, woken, _) =>
          decide (slept = [⟨false, "m", "a", 0⟩] ∧ ∀ v ∈ slept, ∃ t ∈ woken,
            ¬ Disjoint (e.topology.getGpuSlots v) (e.topology.getGpuSlots t))) = some true := by
    decide +kernel
  obtain ⟨e, hsetup, h⟩ := Option.bind_eq_some_iff.mp h
  have hsetup := Run.Reachable.perform .start hsetup
  obtain ⟨slept, woken, e', hok, -, hiff, -⟩ :=
    scaleUp_takes_iff hsetup .start quietReports forSecond rfl
  have hok : e.scaleUp quietReports forSecond = .ok (slept, woken, e') := hok
  rw [hok] at h
  obtain ⟨hslept, hshare⟩ := of_decide_eq_true (Option.some.inj h)
  refine ⟨e, slept, woken, e', hsetup, hok, hslept, fun v hv => ?_⟩
  obtain ⟨t, hwakes, -, hshares⟩ := hiff.mp hshare v hv
  exact ⟨t, hwakes, hshares⟩

/-- Two clusters. In the first one the instance to wake is chosen because its GPU is free, and an
instance on another GPU is put to sleep for it. In the second one the instance to wake is on the
GPUs of both instances of the other role: one of them is put to sleep, and none is woken. -/
theorem scaleUp_takes_needlessly :
    (∃ (e e' : ElasticExecutor Bool) (signal : InstanceSignal Bool),
      Run.Reachable (setup slotOrder) (fun _ _ => True) (new [(false, "m"), (true, "m")] 1) e ∧
      pickScaleUpCandidateOnFreeGpu (e.buildInstanceSignals.filter (·.key.role))
        (e.buildInstanceSignals.filter (!·.key.role)) (fun _ => 0) = some signal ∧
      scaleUpTask signal = forSecond ∧
      e.scaleUp quietReports forSecond =
        .ok ([⟨false, "m", "a", 0⟩], [⟨true, "m", "b", 1⟩], e') ∧
      Disjoint (e.topology.getGpuSlots ⟨false, "m", "a", 0⟩)
        (e.topology.getGpuSlots ⟨true, "m", "b", 1⟩)) ∧
    ∃ e e' : ElasticExecutor Bool,
      Run.Reachable (setup slotOrder) (fun _ _ => True) (new [(false, "m"), (true, "m")] 1) e ∧
      e.scaleUp quietReports forSecond = .ok ([⟨false, "m", "a", 0⟩], [], e') := by
  constructor
  · have h : ((Run.perform (setup slotOrder) (fun _ _ => True) (new [(false, "m"), (true, "m")] 1)
        (fourInstances {(none, 3)})).bind fun e => (pickScaleUpCandidateOnFreeGpu
          (e.buildInstanceSignals.filter (·.key.role)) (e.buildInstanceSignals.filter (!·.key.role))
          (fun _ => 0)).bind fun signal => (e.scaleUp quietReports forSecond).toOption.map
            fun (slept, woken, _) => decide ((signal.key = ⟨true, "m", "b", 1⟩) ∧
              slept = [⟨false, "m", "a", 0⟩] ∧ woken = [⟨true, "m", "b", 1⟩] ∧
              Disjoint (e.topology.getGpuSlots ⟨false, "m", "a", 0⟩)
                (e.topology.getGpuSlots ⟨true, "m", "b", 1⟩))) = some true := by
      decide +kernel
    obtain ⟨e, hsetup, h⟩ := Option.bind_eq_some_iff.mp h
    obtain ⟨signal, hsignal, h⟩ := Option.bind_eq_some_iff.mp h
    obtain ⟨⟨slept, woken, e'⟩, hok, h⟩ := Option.map_eq_some_iff.mp h
    obtain ⟨hkey, rfl, rfl, hdisjoint⟩ := of_decide_eq_true h
    refine ⟨e, e', signal, Run.Reachable.perform .start hsetup, hsignal, ?_, ?_, hdisjoint⟩
    · unfold scaleUpTask
      rw [hkey]
      rfl
    · exact toOption_eq_some_iff.mp hok
  · have h : ((Run.perform (setup slotOrder) (fun _ _ => True) (new [(false, "m"), (true, "m")] 1)
        (fourInstances {(none, 0), (none, 1)})).bind fun e =>
          (e.scaleUp quietReports forSecond).toOption.map fun (slept, woken, _) =>
            decide (slept = [⟨false, "m", "a", 0⟩] ∧ woken = [])) = some true := by
      decide +kernel
    obtain ⟨e, hsetup, h⟩ := Option.bind_eq_some_iff.mp h
    obtain ⟨⟨slept, woken, e'⟩, hok, h⟩ := Option.map_eq_some_iff.mp h
    obtain ⟨rfl, rfl⟩ := of_decide_eq_true h
    exact ⟨e, e', Run.Reachable.perform .start hsetup, toOption_eq_some_iff.mp hok⟩

end ElasticLoops

end Psrl
