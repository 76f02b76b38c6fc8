import Psrl.Elastic.Executor

/-!
# Psrl.Elastic.Exclusive

**No two roles on one GPU.** An instance to wake is checked against the awake instances of other
roles, and its status is set only after its command was answered. In between nothing can get in its
way: the scale-up loop works on one task at a time, whose instances all have the same role, and the
scale-down loop only puts instances to sleep. So every instance of a task that is still to be
woken stays clear (`Inv.ready`), and waking it keeps the use of the GPUs exclusive.
-/

namespace Psrl

open Py

namespace ElasticExecutor

variable {Role : Type} [DecidableEq Role] {e e' : ElasticExecutor Role}
  {key : InstanceIdentifier Role} {status : InstanceStatus}

/-- The reverse index is exact, and the flags are the statuses of the topology. -/
structure Consistent (e : ElasticExecutor Role) : Prop where
  exact : e.topology.Exact
  agree : ∀ key, e.flag key = (e.topology.instances.get? key).map (·.status)

def Registered (e : ElasticExecutor Role) (key : InstanceIdentifier Role) : Prop :=
  (e.topology.instances.get? key).isSome = true

theorem Consistent.registered_iff (h : Consistent e) :
    e.Registered key ↔ (e.flag key).isSome = true := by
  rw [h.agree, Option.isSome_map]
  rfl

theorem roleStatus_set (flags : Dict (String × Nat) InstanceStatus) (group group' : Role × String)
    (topology : ClusterTopology Role) :
    roleStatus { e with
      instancesStatusFlags := e.instancesStatusFlags.set group flags
      topology := topology } group' = if group' = group then flags else e.roleStatus group' := by
  unfold roleStatus
  dsimp only
  rw [Dict.get?_set]
  by_cases heq : group' = group
  · rw [if_pos heq, if_pos heq, Option.getD_some]
  · rw [if_neg heq, if_neg heq]

/-- One flag of a role and model is set. -/
theorem flag_set (group : Role × String) (id : String × Nat) (topology : ClusterTopology Role)
    (status : InstanceStatus) :
    flag { e with
      instancesStatusFlags := e.instancesStatusFlags.set group ((e.roleStatus group).set id status)
      topology := topology } key =
        if key = ⟨group.1, group.2, id⟩ then some status else e.flag key := by
  obtain ⟨role, modelName, id'⟩ := key
  unfold flag
  rw [roleStatus_set]
  by_cases hgroup : (role, modelName) = group
  · subst hgroup
    rw [if_pos rfl, Dict.get?_set]
    by_cases hid : id' = id
    · simp [hid]
    · simp [hid]
  · have hne : (⟨role, modelName, id'⟩ : InstanceIdentifier Role) ≠ ⟨group.1, group.2, id⟩ := by
      intro heq
      cases heq
      exact hgroup rfl
    rw [if_neg hgroup, if_neg hne]

/-- A registered instance gets a new status. -/
theorem Consistent.setStatus (h : Consistent e) (hreg : e.Registered key)
    (status : InstanceStatus) :
    ∃ e', e.setStatus key status = .ok e' ∧ Consistent e' ∧
      ClusterTopology.StatusSet e.topology key status e'.topology := by
  obtain ⟨topology, htopology, hset⟩ := ClusterTopology.setStatus_ok hreg
  obtain ⟨st, hflag⟩ := Option.isSome_iff_exists.mp (h.registered_iff.mp hreg)
  obtain ⟨flags, hflags⟩ : ∃ flags,
      e.instancesStatusFlags.get? (key.role, key.modelName) = some flags := by
    unfold flag roleStatus at hflag
    cases hget : e.instancesStatusFlags.get? (key.role, key.modelName) with
    | none =>
        rw [hget] at hflag
        cases hflag
    | some flags => exact ⟨flags, rfl⟩
  have hstatus : e.roleStatus (key.role, key.modelName) = flags := by
    rw [roleStatus, hflags, Option.getD_some]
  unfold ElasticExecutor.setStatus
  rw [Dict.get_eq_ok.mpr hflags, ok_bind, htopology, ok_bind]
  refine ⟨_, rfl, ⟨h.exact.setStatus hset, fun other => ?_⟩, hset⟩
  rw [hset.status, ← h.agree, ← hstatus]
  exact flag_set (key.role, key.modelName) key.instanceId topology status

/-! ### Registration and bootstrap -/

theorem roleStatus_addRole (group group' : Role × String) :
    roleStatus { e with instancesStatusFlags := addRole e.instancesStatusFlags group } group' =
      e.roleStatus group' := by
  unfold roleStatus addRole
  dsimp only
  cases hget : e.instancesStatusFlags.get? group with
  | some flags => rfl
  | none =>
      dsimp only
      rw [Dict.get?_set]
      split
      · rename_i heq
        rw [heq, hget]
        rfl
      · rfl

theorem get?_foldl_addRole {roles : List (Role × String)} {group : Role × String} :
    ((roles.foldl addRole .empty).get? group).getD .empty =
      (.empty : Dict (String × Nat) InstanceStatus) := by
  refine List.foldlRecOn roles addRole
    (motive := fun flags : Dict (Role × String) (Dict (String × Nat) InstanceStatus) =>
      (flags.get? group).getD .empty = .empty) rfl fun flags hflags group' _ => ?_
  unfold addRole
  split
  · exact hflags
  · rw [Dict.get?_set]
    split
    · rfl
    · exact hflags

theorem Consistent.new (roles : List (Role × String)) (minAwakePerRole : Nat) :
    Consistent (new roles minAwakePerRole) where
  exact := .empty
  agree key := by
    unfold flag roleStatus ElasticExecutor.new
    dsimp only
    rw [get?_foldl_addRole]
    rfl

theorem Consistent.registerInstance (h : Consistent e) (order : SetOrder GPUSlot)
    (group : Role × String) (instance_ : (String × Nat) × Finset GPUSlot) :
    Consistent (registerInstance order group e instance_) where
  exact := h.exact.register order _ _
  agree key := by
    show _ = ((e.topology.register order ⟨group.1, group.2, instance_.1⟩ instance_.2
      .asleep).instances.get? key).map _
    rw [ClusterTopology.get?_register]
    refine (flag_set group instance_.1 _ .asleep).trans ?_
    split
    · rfl
    · exact h.agree key

/-- Registered instances are asleep. -/
theorem exclusive_registerInstance (h : e.topology.Exclusive) (order : SetOrder GPUSlot)
    (group : Role × String) (instance_ : (String × Nat) × Finset GPUSlot) :
    (registerInstance order group e instance_).topology.Exclusive := by
  have hold : ∀ {k}, (registerInstance order group e instance_).topology.Awake k →
      e.topology.Awake k ∧ (registerInstance order group e instance_).topology.getGpuSlots k =
        e.topology.getGpuSlots k := by
    rintro k ⟨info, hget, hawake⟩
    have hget' := Option.mem_def.mp hget
    unfold ElasticExecutor.registerInstance at hget'
    rw [ClusterTopology.get?_register] at hget'
    split at hget'
    · cases hget'
      cases hawake
    · refine ⟨⟨info, hget', hawake⟩, ?_⟩
      unfold ClusterTopology.getGpuSlots
      rw [Option.mem_def.mp hget, hget']
  intro k hk other hother hrole
  rw [(hold hk).2, (hold hother).2]
  exact h k (hold hk).1 other (hold hother).1 hrole

theorem registerRole_keeps (h : Consistent e) (hex : e.topology.Exclusive)
    {order : SetOrder GPUSlot} {group : Role × String} {ids : List (String × Nat)}
    {slots : List (Finset GPUSlot)} (hok : e.registerRole order group ids slots = .ok e') :
    Consistent e' ∧ e'.topology.Exclusive := by
  unfold registerRole at hok
  split at hok
  · cases hok
  · cases hok
    refine List.foldlRecOn _ (registerInstance order group)
      (motive := fun e' => Consistent e' ∧ e'.topology.Exclusive) ⟨⟨h.exact, fun key => ?_⟩, hex⟩
      fun e' he' instance_ _ => ⟨he'.1.registerInstance order group instance_,
        exclusive_registerInstance he'.2 order group instance_⟩
    unfold flag
    rw [roleStatus_addRole]
    exact h.agree key

/-- Instances of one role that are registered and clear. -/
def Ready (e : ElasticExecutor Role) (role : Role) (key : InstanceIdentifier Role) : Prop :=
  key.role = role ∧ e.Registered key ∧ e.topology.Clear key

theorem Registered.statusSet {other : InstanceIdentifier Role} (h : e.Registered other)
    (hset : ClusterTopology.StatusSet e.topology key status e'.topology) : e'.Registered other := by
  have hstatus := hset.status other
  unfold Registered at h ⊢
  rw [← Option.isSome_map (f := (·.status)), hstatus]
  split
  · rfl
  · rw [Option.isSome_map]
    exact h

theorem Ready.wake {role : Role} {other : InstanceIdentifier Role} (h : e.Ready role other)
    (hrole : key.role = role)
    (hset : ClusterTopology.StatusSet e.topology key .awaken e'.topology) : e'.Ready role other :=
  ⟨h.1, h.2.1.statusSet hset, h.2.2.wake (hrole.trans h.1.symm) hset⟩

theorem Ready.sleep {role : Role} {other : InstanceIdentifier Role} (h : e.Ready role other)
    (hset : ClusterTopology.StatusSet e.topology key .asleep e'.topology) : e'.Ready role other :=
  ⟨h.1, h.2.1.statusSet hset, h.2.2.sleep hset⟩

/-- The bootstrap marks what it selected, one after another. -/
theorem foldlM_awaken (group : Role × String) : ∀ {ids : List (String × Nat)}
    {e e' : ElasticExecutor Role}, Consistent e → e.topology.Exclusive →
      (∀ id ∈ ids, e.Ready group.1 ⟨group.1, group.2, id⟩) →
      ids.foldlM (fun e id => e.setStatus ⟨group.1, group.2, id⟩ .awaken) e = .ok e' →
        Consistent e' ∧ e'.topology.Exclusive
  | [], e, e', h, hex, _, hok => by
      cases hok
      exact ⟨h, hex⟩
  | id :: ids, e, e', h, hex, hready, hok => by
      have hhead := hready id (List.mem_cons_self ..)
      obtain ⟨e₁, hok₁, h₁, hset⟩ := h.setStatus hhead.2.1 .awaken
      rw [List.foldlM_cons, hok₁, ok_bind] at hok
      exact foldlM_awaken group h₁ (hex.wake hhead.2.2 hset)
        (fun id' hid' => (hready id' (List.mem_cons_of_mem _ hid')).wake rfl hset) hok

theorem selectInitialAwakeIds_keeps (h : Consistent e) (hex : e.topology.Exclusive)
    {group : Role × String} {target minAwake : Int} {selected : List (String × Nat)}
    (hok : e.selectInitialAwakeIds group target minAwake = .ok (selected, e')) :
    Consistent e' ∧ e'.topology.Exclusive := by
  unfold selectInitialAwakeIds at hok
  obtain ⟨ids, hselect, hok⟩ := bind_eq_ok.mp hok
  obtain ⟨e₁, hfold, hok⟩ := bind_eq_ok.mp hok
  cases hok
  refine foldlM_awaken group h hex (fun id hid => ?_) hfold
  obtain ⟨hreg, hclear⟩ := ClusterTopology.clear_of_mem_select hselect hid
  exact ⟨rfl, hreg, hclear⟩

theorem setup_keeps (h : Consistent e ∧ e.topology.Exclusive) {order : SetOrder GPUSlot}
    {a : SetupAction Role} (hok : e.setup order a = .ok e') :
    Consistent e' ∧ e'.topology.Exclusive := by
  cases a with
  | register group ids slots => exact registerRole_keeps h.1 h.2 hok
  | select group target minAwake =>
      obtain ⟨⟨selected, e₁⟩, hselect, hok⟩ := bind_eq_ok.mp hok
      cases hok
      exact selectInitialAwakeIds_keeps h.1 h.2 hselect

/-! ### What the tasks choose -/

theorem flag_of_mem_idsWith {group : Role × String} {id : String × Nat}
    (hmem : id ∈ e.idsWith group status) : e.flag ⟨group.1, group.2, id⟩ = some status := by
  obtain ⟨⟨id', st⟩, hitem, rfl⟩ := List.mem_map.mp hmem
  obtain ⟨hin, hst⟩ := List.mem_filter.mp hitem
  obtain rfl : st = status := of_decide_eq_true hst
  exact Dict.get?_eq_some_iff.mpr hin

theorem Consistent.registered_of_flag (h : Consistent e) (hflag : e.flag key = some status) :
    e.Registered key := by
  rw [h.registered_iff, hflag]
  rfl

theorem mem_of_mem_pySliceTo {α : Type} {l : List α} {n : Int} {a : α} (h : a ∈ pySliceTo l n) :
    a ∈ l :=
  List.mem_of_mem_take h

theorem mem_of_mem_candidateIds {task : ScaleTask Role} {id : String × Nat}
    (hmem : id ∈ e.candidateIds task) : id ∈ e.idsWith (task.roleName, task.modelName) .asleep := by
  unfold candidateIds at hmem
  dsimp only at hmem
  split at hmem
  · exact hmem
  · exact (List.mem_filter.mp hmem).1

/-- The instances to wake are asleep and clear. -/
theorem mem_findInstancesToScaledUp {task : ScaleTask Role}
    (hmem : key ∈ e.findInstancesToScaledUp task) :
    key.role = task.roleName ∧ e.flag key = some .asleep ∧
      e.topology.hasOtherRoleAwakenOnSharedGpu key = false := by
  obtain ⟨id, hid, rfl⟩ := List.mem_map.mp hmem
  have hfiltered := mem_of_mem_pySliceTo hid
  have hboth : id ∈ e.idsWith (task.roleName, task.modelName) .asleep ∧
      (!e.topology.hasOtherRoleAwakenOnSharedGpu ⟨task.roleName, task.modelName, id⟩) = true := by
    unfold filteredIds at hfiltered
    split at hfiltered
    · exact List.mem_filter.mp hfiltered
    · obtain ⟨hcand, hclear⟩ := List.mem_filter.mp hfiltered
      exact ⟨mem_of_mem_candidateIds hcand, hclear⟩
  exact ⟨rfl, flag_of_mem_idsWith hboth.1, by simpa using hboth.2⟩

theorem Consistent.ready_of_mem_find (h : Consistent e) {task : ScaleTask Role}
    (hmem : key ∈ e.findInstancesToScaledUp task) : e.Ready task.roleName key := by
  obtain ⟨hrole, hflag, hclear⟩ := mem_findInstancesToScaledUp hmem
  exact ⟨hrole, h.registered_of_flag hflag, h.exact.hasOtherRole_eq_false_iff.mp hclear⟩

theorem mem_pickLoop {n : Int} : ∀ {candidates picked : List (InstanceIdentifier Role)}
    {budget : Dict (Role × String) Nat}, key ∈ pickLoop n candidates picked budget →
      key ∈ picked ∨ key ∈ candidates
  | [], _, _, hmem => .inl hmem
  | candidate :: rest, picked, budget, hmem => by
      have happend : key ∈ picked ++ [candidate] → key ∈ picked ∨ key ∈ candidate :: rest := by
        intro hin
        rcases List.mem_append.mp hin with hold | hnew
        · exact .inl hold
        · exact .inr (List.mem_cons.mpr (.inl (List.mem_singleton.mp hnew)))
      unfold pickLoop at hmem
      dsimp only at hmem
      split at hmem
      · exact (mem_pickLoop hmem).imp id (List.mem_cons_of_mem _)
      split at hmem
      · exact happend hmem
      · rcases mem_pickLoop hmem with hin | hin
        · exact happend hin
        · exact .inr (List.mem_cons_of_mem _ hin)

theorem mem_candidates {role : Role} (hmem : key ∈ e.candidates role) :
    key.role ≠ role ∧ e.flag key = some .awaken := by
  obtain ⟨group, -, hin⟩ := List.mem_flatMap.mp hmem
  split at hin
  · exact absurd hin List.not_mem_nil
  · rename_i hremovable
    obtain ⟨id, hid, rfl⟩ := List.mem_map.mp hin
    refine ⟨fun heq => hremovable ?_, flag_of_mem_idsWith hid⟩
    exact if_pos heq

variable {Usage : Type} [LinearOrder Usage]

/-- Other roles put awake instances to sleep. -/
theorem mem_findForOtherRoles {usage : InstanceIdentifier Role → Usage} {task : ScaleTask Role}
    (hmem : key ∈ e.findInstancesToScaledDownForOtherRoles usage task) :
    key.role ≠ task.roleName ∧ e.flag key = some .awaken := by
  rcases mem_pickLoop hmem with hnil | hin
  · exact absurd hnil List.not_mem_nil
  · exact mem_candidates ((List.mem_insertionSort _).mp hin)

theorem mem_findInRole {usage : InstanceIdentifier Role → Usage} {task : ScaleTask Role}
    (hmem : key ∈ e.findInstancesToScaledDownInRole usage task) : e.flag key = some .awaken := by
  unfold findInstancesToScaledDownInRole at hmem
  dsimp only at hmem
  split at hmem
  · exact absurd hmem List.not_mem_nil
  · obtain ⟨id, hid, rfl⟩ := List.mem_map.mp hmem
    have hcand := (List.mem_insertionSort _).mp (mem_of_mem_pySliceTo hid)
    split at hcand
    · exact flag_of_mem_idsWith hcand
    · exact flag_of_mem_idsWith (List.mem_filter.mp hcand).1

end ElasticExecutor

/-! ### Runs of the two loops -/

namespace ElasticLoops

open ElasticExecutor

variable {Role : Type} [DecidableEq Role] {Usage : Type} [LinearOrder Usage]
  {e e' : ElasticExecutor Role} {s s' : ElasticLoops Role} {jobs jobs' : List (ScaleJob Role)}
  {status : InstanceStatus}

/-- The instances of some calls. -/
def keysOf (jobs : List (ScaleJob Role)) : List (InstanceIdentifier Role) := jobs.map (·.key)

omit [DecidableEq Role] in
theorem keysOf_jobsFor (keys : List (InstanceIdentifier Role)) : keysOf (jobsFor keys) = keys := by
  unfold keysOf jobsFor
  rw [List.map_map]
  exact List.map_id keys

omit [DecidableEq Role] in
/-- A call that goes on keeps its instance. -/
theorem keysOf_modify (stage : ScaleJob Role → ScaleStage) (i : Nat) :
    keysOf (jobs.modify i fun job => { job with stage := stage job }) = keysOf jobs := by
  unfold keysOf
  refine List.ext_getElem? fun j => ?_
  rw [List.getElem?_map, List.getElem?_map, List.getElem?_modify]
  cases jobs[j]? with
  | none => rfl
  | some job =>
      by_cases hij : i = j
      · simp [hij]
      · simp [hij]

/-- What the end of a call does: nothing, or the status of one of the instances changes. -/
theorem reply_ok (h : Consistent e) (hreg : ∀ key ∈ keysOf jobs, e.Registered key) (i : Nat)
    (status : InstanceStatus) (ok : Bool) :
    ∃ e' jobs', reply e jobs i status ok = .ok (e', jobs') ∧ keysOf jobs' = keysOf jobs ∧
      Consistent e' ∧ (e' = e ∨ ∃ key ∈ keysOf jobs,
        ClusterTopology.StatusSet e.topology key status e'.topology) := by
  unfold reply
  cases hget : jobs[i]? with
  | none => exact ⟨e, jobs, rfl, rfl, h, .inl rfl⟩
  | some job =>
      have hmem : job.key ∈ keysOf jobs := List.mem_map_of_mem (List.mem_of_getElem? hget)
      have hkeys : keysOf (jobs.modify i fun job => { job with stage := .finished }) =
          keysOf jobs :=
        keysOf_modify (fun _ => .finished) i
      cases ok with
      | false => exact ⟨e, _, rfl, hkeys, h, .inl rfl⟩
      | true =>
          obtain ⟨e', hset, h', hstatus⟩ := h.setStatus (hreg job.key hmem) status
          dsimp only
          rw [if_pos rfl, hset]
          exact ⟨e', _, rfl, hkeys, h', .inr ⟨job.key, hmem, hstatus⟩⟩

structure Inv (s : ElasticLoops Role) : Prop where
  consistent : Consistent s.executor
  exclusive : s.executor.topology.Exclusive
  /-- the instances of the task that is waking are clear -/
  ready : ∀ task jobs, s.up = .waking task jobs → ∀ key ∈ keysOf jobs,
    s.executor.Ready task.roleName key
  sleepUp : ∀ task jobs, s.up = .sleeping task jobs → ∀ key ∈ keysOf jobs,
    s.executor.Registered key
  sleepDown : ∀ jobs, s.down = .sleeping jobs → ∀ key ∈ keysOf jobs, s.executor.Registered key

namespace Inv

theorem start (h : Consistent e ∧ e.topology.Exclusive) : Inv (start e) where
  consistent := h.1
  exclusive := h.2
  ready _ _ hup := by cases hup
  sleepUp _ _ hup := by cases hup
  sleepDown _ hdown := by cases hdown

section

variable {task : ScaleTask Role} (h : Inv s)

include h

/-- The scale-up loop goes on without a change of the executor. -/
theorem setUp {up : ScaleUpPhase Role}
    (hready : ∀ task jobs, up = .waking task jobs → ∀ key ∈ keysOf jobs,
      s.executor.Ready task.roleName key)
    (hsleep : ∀ task jobs, up = .sleeping task jobs → ∀ key ∈ keysOf jobs,
      s.executor.Registered key) : Inv { s with up := up } :=
  ⟨h.consistent, h.exclusive, hready, hsleep, h.sleepDown⟩

theorem setDown {down : ScaleDownPhase Role}
    (hsleep : ∀ jobs, down = .sleeping jobs → ∀ key ∈ keysOf jobs, s.executor.Registered key) :
    Inv { s with down := down } :=
  ⟨h.consistent, h.exclusive, h.ready, h.sleepUp, hsleep⟩

theorem idleUp {up : ScaleUpPhase Role} (hwaking : ∀ task jobs, up ≠ .waking task jobs)
    (hsleeping : ∀ task jobs, up ≠ .sleeping task jobs) : Inv { s with up := up } :=
  h.setUp (fun task jobs hup => absurd hup (hwaking task jobs))
    fun task jobs hup => absurd hup (hsleeping task jobs)

/-- An instance has fallen asleep. -/
theorem slept {key : InstanceIdentifier Role} (hconsistent : Consistent e')
    (hset : ClusterTopology.StatusSet s.executor.topology key .asleep e'.topology) :
    Inv { s with executor := e' } where
  consistent := hconsistent
  exclusive := h.exclusive.sleep hset
  ready task jobs hup key hkey := (h.ready task jobs hup key hkey).sleep hset
  sleepUp task jobs hup key hkey := (h.sleepUp task jobs hup key hkey).statusSet hset
  sleepDown jobs hdown key hkey := (h.sleepDown jobs hdown key hkey).statusSet hset

/-- An instance of the task at hand has woken up. -/
theorem woken (hup : s.up = .waking task jobs) {key : InstanceIdentifier Role}
    (hkey : key ∈ keysOf jobs) (hconsistent : Consistent e')
    (hset : ClusterTopology.StatusSet s.executor.topology key .awaken e'.topology) :
    Inv { s with executor := e' } where
  consistent := hconsistent
  exclusive := h.exclusive.wake (h.ready task jobs hup key hkey).2.2 hset
  ready task' jobs' hup' key' hkey' := by
    have hup' : s.up = .waking task' jobs' := hup'
    rw [hup] at hup'
    cases hup'
    exact (h.ready task jobs hup key' hkey').wake (h.ready task jobs hup key hkey).1 hset
  sleepUp task' jobs' hup' := by
    have hup' : s.up = .sleeping task' jobs' := hup'
    rw [hup] at hup'
    cases hup'
  sleepDown jobs' hdown key' hkey' := (h.sleepDown jobs' hdown key' hkey').statusSet hset

theorem wake (task : ScaleTask Role) : Inv (s.wake task) := by
  unfold ElasticLoops.wake
  split
  · exact h.idleUp (fun _ _ hup => by cases hup) fun _ _ hup => by cases hup
  · refine h.setUp (fun task' jobs' hup key hkey => ?_) fun _ _ hup => by cases hup
    cases hup
    rw [keysOf_jobsFor] at hkey
    exact h.consistent.ready_of_mem_find hkey

theorem takeUp (usage : InstanceIdentifier Role → Usage) (task : ScaleTask Role) :
    Inv (s.takeUp usage task) := by
  unfold ElasticLoops.takeUp
  split
  · exact h.wake task
  · refine h.setUp (fun _ _ hup => by cases hup) fun task' jobs' hup key hkey => ?_
    cases hup
    rw [keysOf_jobsFor] at hkey
    exact h.consistent.registered_of_flag (mem_findForOtherRoles hkey).2

theorem takeDown (usage : InstanceIdentifier Role → Usage) (task : ScaleTask Role) :
    Inv (s.takeDown usage task) := by
  unfold ElasticLoops.takeDown
  split
  · exact h
  · refine h.setDown fun jobs' hdown key hkey => ?_
    cases hdown
    rw [keysOf_jobsFor] at hkey
    exact h.consistent.registered_of_flag (mem_findInRole hkey)

theorem replySleepUp (hup : s.up = .sleeping task jobs) (i : Nat) (ok : Bool) :
    ∃ e' jobs', reply s.executor jobs i .asleep ok = .ok (e', jobs') ∧
      Inv { s with executor := e', up := .sleeping task jobs' } := by
  obtain ⟨e', jobs', hok, hkeys, hconsistent, hchange⟩ :=
    reply_ok h.consistent (h.sleepUp task jobs hup) i .asleep ok
  have hinv : Inv { s with executor := e' } := by
    rcases hchange with rfl | ⟨key, -, hset⟩
    · exact h
    · exact h.slept hconsistent hset
  refine ⟨e', jobs', hok, hinv.setUp (fun _ _ hup' => by cases hup') fun task' jobs'' hup' => ?_⟩
  cases hup'
  rw [hkeys]
  exact hinv.sleepUp task jobs hup

theorem replySleepDown (hdown : s.down = .sleeping jobs) (i : Nat) (ok : Bool) :
    ∃ e' jobs', reply s.executor jobs i .asleep ok = .ok (e', jobs') ∧
      Inv { s with executor := e', down := .sleeping jobs' } := by
  obtain ⟨e', jobs', hok, hkeys, hconsistent, hchange⟩ :=
    reply_ok h.consistent (h.sleepDown jobs hdown) i .asleep ok
  have hinv : Inv { s with executor := e' } := by
    rcases hchange with rfl | ⟨key, -, hset⟩
    · exact h
    · exact h.slept hconsistent hset
  refine ⟨e', jobs', hok, hinv.setDown fun jobs'' hdown' => ?_⟩
  cases hdown'
  rw [hkeys]
  exact hinv.sleepDown jobs hdown

theorem replyWake (hup : s.up = .waking task jobs) (i : Nat) (ok : Bool) :
    ∃ e' jobs', reply s.executor jobs i .awaken ok = .ok (e', jobs') ∧
      Inv { s with executor := e', up := .waking task jobs' } := by
  obtain ⟨e', jobs', hok, hkeys, hconsistent, hchange⟩ :=
    reply_ok h.consistent (fun key hkey => (h.ready task jobs hup key hkey).2.1) i .awaken ok
  have hinv : Inv { s with executor := e' } := by
    rcases hchange with rfl | ⟨key, hkey, hset⟩
    · exact h
    · exact h.woken hup hkey hconsistent hset
  refine ⟨e', jobs', hok, hinv.setUp (fun task' jobs'' hup' => ?_) fun _ _ hup' => by cases hup'⟩
  cases hup'
  rw [hkeys]
  exact hinv.ready task jobs hup

/-- Every step returns and keeps the invariant. -/
theorem exec (a : Action Role Usage) : ∃ s', ElasticLoops.exec s a = .ok s' ∧ Inv s' := by
  cases a with
  | takeUp usage task => exact ⟨_, rfl, h.takeUp usage task⟩
  | startSleepUp i busy =>
      dsimp only [ElasticLoops.exec]
      split
      · rename_i task jobs hup
        refine ⟨_, rfl, h.setUp (fun _ _ hup' => by cases hup') fun task' jobs' hup' => ?_⟩
        cases hup'
        rw [startSleep, keysOf_modify]
        exact h.sleepUp task jobs hup
      · exact ⟨s, rfl, h⟩
  | replySleepUp i ok =>
      dsimp only [ElasticLoops.exec]
      split
      · rename_i hup
        obtain ⟨e', jobs', hok, hinv⟩ := h.replySleepUp hup i ok
        rw [hok]
        exact ⟨_, rfl, hinv⟩
      · exact ⟨s, rfl, h⟩
  | sleptUp =>
      dsimp only [ElasticLoops.exec]
      split
      · exact ⟨_, rfl, h.wake _⟩
      · exact ⟨s, rfl, h⟩
  | startWake i =>
      dsimp only [ElasticLoops.exec]
      split
      · rename_i task jobs hup
        refine ⟨_, rfl, h.setUp (fun task' jobs' hup' => ?_) fun _ _ hup' => by cases hup'⟩
        cases hup'
        rw [ElasticLoops.startWake, keysOf_modify]
        exact h.ready task jobs hup
      · exact ⟨s, rfl, h⟩
  | replyWake i ok =>
      dsimp only [ElasticLoops.exec]
      split
      · rename_i hup
        obtain ⟨e', jobs', hok, hinv⟩ := h.replyWake hup i ok
        rw [hok]
        exact ⟨_, rfl, hinv⟩
      · exact ⟨s, rfl, h⟩
  | wokenUp =>
      dsimp only [ElasticLoops.exec]
      split
      · exact ⟨_, rfl, h.idleUp (fun _ _ hup' => by cases hup') fun _ _ hup' => by cases hup'⟩
      · exact ⟨s, rfl, h⟩
  | interrupted =>
      exact ⟨_, rfl, h.idleUp (fun _ _ hup' => by cases hup') fun _ _ hup' => by cases hup'⟩
  | takeDown usage task => exact ⟨_, rfl, h.takeDown usage task⟩
  | startSleepDown i busy =>
      dsimp only [ElasticLoops.exec]
      split
      · rename_i jobs hdown
        refine ⟨_, rfl, h.setDown fun jobs' hdown' => ?_⟩
        cases hdown'
        rw [startSleep, keysOf_modify]
        exact h.sleepDown jobs hdown
      · exact ⟨s, rfl, h⟩
  | replySleepDown i ok =>
      dsimp only [ElasticLoops.exec]
      split
      · rename_i hdown
        obtain ⟨e', jobs', hok, hinv⟩ := h.replySleepDown hdown i ok
        rw [hok]
        exact ⟨_, rfl, hinv⟩
      · exact ⟨s, rfl, h⟩
  | sleptDown => exact ⟨_, rfl, h.setDown fun _ hdown => by cases hdown⟩

end

/-- The invariant in every state the loops reach after registration and bootstrap. -/
theorem of_reachable {order : SetOrder GPUSlot} {roles : List (Role × String)}
    {minAwakePerRole : Nat}
    (hsetup : Run.Reachable (setup order) (fun _ _ => True) (new roles minAwakePerRole) e)
    (hreach : Run.Reachable ElasticLoops.exec
      (Allowed : ElasticLoops Role → Action Role Usage → Prop) (ElasticLoops.start e) s) :
    Inv s := by
  have hstart : Consistent e ∧ e.topology.Exclusive :=
    hsetup.invariant ⟨.new roles minAwakePerRole, fun _ ⟨_, hget, _⟩ => by cases hget⟩
      fun _ _ _ he _ hok => setup_keeps he hok
  exact (hreach.safe (start hstart) fun _ a hs _ => hs.exec a).1

end Inv

/-- **One role on a GPU.** After registration and bootstrap, in every state the two loops reach, no
two awake instances of different roles share a GPU, flags and topology agree, the reverse index is
exact, and no step raises. -/
theorem gpus_exclusive {order : SetOrder GPUSlot} {roles : List (Role × String)}
    {minAwakePerRole : Nat}
    (hsetup : Run.Reachable (setup order) (fun _ _ => True) (new roles minAwakePerRole) e)
    (hreach : Run.Reachable exec (Allowed : ElasticLoops Role → Action Role Usage → Prop)
      (start e) s) :
    (∀ key key', s.executor.topology.Awake key → s.executor.topology.Awake key' →
      key.role ≠ key'.role → Disjoint (s.executor.topology.getGpuSlots key)
        (s.executor.topology.getGpuSlots key')) ∧
    (∀ key, s.executor.flag key = (s.executor.topology.instances.get? key).map (·.status)) ∧
    (∀ slot key, s.executor.topology.gpuToInstances.Has slot key ↔
      slot ∈ s.executor.topology.getGpuSlots key) ∧
    ∀ a : Action Role Usage, ∃ s', exec s a = .ok s' := by
  have h := Inv.of_reachable hsetup hreach
  refine ⟨fun key key' hkey hkey' hrole => h.exclusive key hkey key' hkey' hrole.symm,
    h.consistent.agree, h.consistent.exact, fun a => ?_⟩
  obtain ⟨s', hexec, -⟩ := h.exec a
  exact ⟨s', hexec⟩

/-- An order to loop over sets of GPUs. -/
def slotOrder : SetOrder GPUSlot :=
  (SetOrder.ofLinearOrder (WithBot String ×ₗ Nat)).comap toLex

/-- One instance of each of two roles, both on one GPU; the first one is awake. -/
def sharedGpu : List (SetupAction Bool) :=
  [.register (false, "m") [("a", 0)] [{(none, 0)}], .register (true, "m") [("b", 0)] [{(none, 0)}],
    .select (false, "m") 1 1]

/-- A task for the second role; its command is answered after those of the first role's instance. -/
def handOver : List (Action Bool Nat) :=
  [.takeUp (fun _ => 0) ⟨true, "m", 1, [("b", 0)]⟩, .startSleepUp 0 false, .replySleepUp 0 true,
    .sleptUp, .startWake 0, .replyWake 0 true, .wokenUp]

theorem gpus_exclusive_hand_over :
    ∃ (e : ElasticExecutor Bool) (s : ElasticLoops Bool),
      Run.Reachable (setup slotOrder) (fun _ _ => True) (new [(false, "m"), (true, "m")] 0) e ∧
      Run.Reachable exec (Allowed : ElasticLoops Bool → Action Bool Nat → Prop) (start e) s ∧
      e.topology.Awake ⟨false, "m", "a", 0⟩ ∧ s.executor.topology.Awake ⟨true, "m", "b", 0⟩ ∧
      ∀ key key', s.executor.topology.Awake key → s.executor.topology.Awake key' →
        key.role ≠ key'.role → Disjoint (s.executor.topology.getGpuSlots key)
          (s.executor.topology.getGpuSlots key') := by
  have h : ((Run.perform (setup slotOrder) (fun _ _ => True) (new [(false, "m"), (true, "m")] 0)
      sharedGpu).bind fun e => (Run.perform exec (Allowed : _ → Action Bool Nat → Prop) (start e)
        handOver).map fun s => decide (e.topology.Awake ⟨false, "m", "a", 0⟩ ∧
          s.executor.topology.Awake ⟨true, "m", "b", 0⟩)) = some true := by decide +kernel
  obtain ⟨e, hsetup, h⟩ := Option.bind_eq_some_iff.mp h
  obtain ⟨s, hrun, h⟩ := Option.map_eq_some_iff.mp h
  obtain ⟨hbefore, hafter⟩ := of_decide_eq_true h
  have hsetup := Run.Reachable.perform .start hsetup
  have hreach := Run.Reachable.perform .start hrun
  exact ⟨e, s, hsetup, hreach, hbefore, hafter, (gpus_exclusive hsetup hreach).1⟩

end ElasticLoops

end Psrl
