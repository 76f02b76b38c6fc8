import Mathlib.Data.Prod.Lex
import Mathlib.Data.String.Basic
import Mathlib.Order.WithBot
import Psrl.Coordinator.Elastic
import Psrl.Lib.Index

/-!
# Psrl.Elastic.Topology

**Which instance is on which GPU** (`utils/elastic_rm/cluster_topology.py`). The topology has a
forward index, from instances to their GPUs and status, and a reverse index from GPUs to instances.
The reverse index is maintained incrementally; as long as it is exact (`Exact`), the conflict check
says what it is for: no awake instance of another role is on a GPU of the instance (`Clear`).
-/

namespace Psrl

open Py

abbrev GPUSlot := Option String × Nat

structure InstanceIdentifier (Role : Type) where
  role : Role
  modelName : String
  instanceId : String × Nat
  deriving DecidableEq

structure ClusterTopology (Role : Type) where
  /-- forward index -/
  instances : Dict (InstanceIdentifier Role) InstanceInfo
  /-- reverse index -/
  gpuToInstances : Dict GPUSlot (Finset (InstanceIdentifier Role))

namespace ClusterTopology

variable {Role : Type} [DecidableEq Role] (order : SetOrder GPUSlot) (t : ClusterTopology Role)
  (key : InstanceIdentifier Role)

def empty : ClusterTopology Role := ⟨.empty, .empty⟩

/-! ### Registration -/

def removeFromReverseIndex : ClusterTopology Role :=
  match t.instances.get? key with
  | none => t
  | some info =>
      let index := (order.toList info.gpuSlots).foldl
        (fun (index : Dict GPUSlot (Finset (InstanceIdentifier Role))) slot =>
          index.discard slot key)
        t.gpuToInstances
      { t with gpuToInstances := index }

def addToReverseIndex : ClusterTopology Role :=
  match t.instances.get? key with
  | none => t
  | some info =>
      let index := (order.toList info.gpuSlots).foldl
        (fun (index : Dict GPUSlot (Finset (InstanceIdentifier Role))) slot => index.add slot key)
        t.gpuToInstances
      { t with gpuToInstances := index }

/-- `self.instances[key] = info`. -/
def setInfo (info : InstanceInfo) : ClusterTopology Role :=
  { t with instances := t.instances.set key info }

def register (gpuSlots : Finset GPUSlot) (status : InstanceStatus) : ClusterTopology Role :=
  -- `_remove_from_reverse_index` does nothing for an instance that is not registered
  ((t.removeFromReverseIndex order key).setInfo key ⟨gpuSlots, status⟩).addToReverseIndex order key

def updateGpuSlots (gpuSlots : Finset GPUSlot) : Except PyError (ClusterTopology Role) :=
  match t.instances.get? key with
  | none => .error (.keyError "Instance is not registered.")
  | some info => .ok (((t.removeFromReverseIndex order key).setInfo key
      ⟨gpuSlots, info.status⟩).addToReverseIndex order key)

/-! ### Status -/

def setStatus (status : InstanceStatus) : Except PyError (ClusterTopology Role) :=
  match t.instances.get? key with
  | none => .error (.keyError "Instance is not registered.")
  | some info => .ok (t.setInfo key ⟨info.gpuSlots, status⟩)

def getGpuSlots : Finset GPUSlot :=
  match t.instances.get? key with
  | none => ∅
  | some info => info.gpuSlots

/-- The instance is registered and awake. -/
def Awake : Prop :=
  ∃ info ∈ t.instances.get? key, info.status = .awaken

instance : Decidable (t.Awake key) :=
  inferInstanceAs (Decidable (∃ info ∈ t.instances.get? key, info.status = .awaken))

/-! ### Conflicts -/

def hasOtherRoleAwakenOnSharedGpu : Bool :=
  match t.instances.get? key with
  | none => false
  | some info => decide (∃ slot ∈ info.gpuSlots,
      ∃ other ∈ (t.gpuToInstances.get? slot).getD ∅, other.role ≠ key.role ∧ t.Awake other)

def getAwakenGpuSlots : Finset GPUSlot :=
  t.instances.items.foldl (fun occupied item =>
    if item.2.status = .awaken then occupied ∪ item.2.gpuSlots else occupied) ∅

/-- The order of tuples. -/
def idLe (a b : String × Nat) : Prop := a.1 < b.1 ∨ (a.1 = b.1 ∧ a.2 ≤ b.2)

instance : DecidableRel idLe := fun _ _ => inferInstanceAs (Decidable (_ ∨ _))

/-- The loop of `select_non_conflicting_awake_ids`. -/
def selectLoop (t : ClusterTopology Role) (role : Role) (modelName : String)
    (targetAwakeNum : Int) :
    List (String × Nat) → List (String × Nat) → Finset GPUSlot → List (String × Nat)
  | [], selected, _ => selected
  | id :: rest, selected, occupied =>
      match t.instances.get? ⟨role, modelName, id⟩ with
      | none => selectLoop t role modelName targetAwakeNum rest selected occupied
      | some info =>
          if info.gpuSlots ≠ ∅ ∧ ¬ Disjoint info.gpuSlots occupied then
            selectLoop t role modelName targetAwakeNum rest selected occupied
          else if ((selected ++ [id]).length : Int) ≥ targetAwakeNum then selected ++ [id]
          else selectLoop t role modelName targetAwakeNum rest (selected ++ [id])
            (occupied ∪ info.gpuSlots)

def selectNonConflictingAwakeIds (role : Role) (modelName : String)
    (instanceIds : List (String × Nat)) (targetAwakeNum minAwakeNum : Int) :
    Except PyError (List (String × Nat)) :=
  let selected := t.selectLoop role modelName targetAwakeNum (instanceIds.insertionSort idLe) []
    t.getAwakenGpuSlots
  if (selected.length : Int) < minAwakeNum then
    .error (.runtimeError ("Cannot select non-conflicting awake instances "
      ++ s!"(target={targetAwakeNum}, selected={selected.length}, min_required={minAwakeNum})."))
  else .ok selected

/-! ### The reverse index -/

variable {t t' : ClusterTopology Role} {key other : InstanceIdentifier Role}

/-- The reverse index has the GPUs of every instance, and nothing else. -/
def Exact (t : ClusterTopology Role) : Prop :=
  ∀ slot key, t.gpuToInstances.Has slot key ↔ slot ∈ t.getGpuSlots key

theorem Exact.empty : Exact (empty : ClusterTopology Role) := by
  intro slot key
  refine ⟨fun ⟨_, hget, _⟩ => ?_, fun hmem => ?_⟩
  · cases hget
  · exact absurd hmem (Finset.notMem_empty slot)

theorem instances_removeFromReverseIndex (order : SetOrder GPUSlot) :
    (t.removeFromReverseIndex order key).instances = t.instances := by
  unfold removeFromReverseIndex
  split <;> rfl

theorem instances_addToReverseIndex (order : SetOrder GPUSlot) :
    (t.addToReverseIndex order key).instances = t.instances := by
  unfold addToReverseIndex
  split <;> rfl

theorem has_removeFromReverseIndex (order : SetOrder GPUSlot) (h : Exact t) {slot : GPUSlot} :
    (t.removeFromReverseIndex order key).gpuToInstances.Has slot other ↔
      slot ∈ t.getGpuSlots other ∧ other ≠ key := by
  unfold removeFromReverseIndex
  cases hget : t.instances.get? key with
  | none =>
      dsimp only
      rw [h slot other]
      refine ⟨fun hmem => ⟨hmem, ?_⟩, And.left⟩
      rintro rfl
      rw [getGpuSlots, hget] at hmem
      exact Finset.notMem_empty slot hmem
  | some info =>
      dsimp only
      rw [Dict.has_foldl_discard_iff, order.mem_toList, h slot other]
      refine and_congr_right fun hmem =>
        ⟨fun hnot heq => hnot ⟨?_, heq⟩, fun hne hboth => hne hboth.2⟩
      rw [heq, getGpuSlots, hget] at hmem
      exact hmem

theorem has_addToReverseIndex (order : SetOrder GPUSlot) {slot : GPUSlot} :
    (t.addToReverseIndex order key).gpuToInstances.Has slot other ↔
      (slot ∈ t.getGpuSlots key ∧ other = key) ∨ t.gpuToInstances.Has slot other := by
  unfold addToReverseIndex getGpuSlots
  cases t.instances.get? key with
  | none => simp
  | some info =>
      dsimp only
      rw [Dict.has_foldl_add_iff, order.mem_toList]

theorem getGpuSlots_setInfo (t : ClusterTopology Role) (info : InstanceInfo) :
    (t.setInfo key info).getGpuSlots other =
      if other = key then info.gpuSlots else t.getGpuSlots other := by
  unfold getGpuSlots setInfo
  dsimp only
  rw [Dict.get?_set]
  by_cases heq : other = key
  · rw [if_pos heq, if_pos heq]
  · rw [if_neg heq, if_neg heq]

theorem getGpuSlots_congr (h : t'.instances = t.instances) :
    t'.getGpuSlots other = t.getGpuSlots other := by
  unfold getGpuSlots
  rw [h]

/-- The three steps that put an instance on other GPUs keep the index exact. -/
theorem Exact.place (h : Exact t) (order : SetOrder GPUSlot) (info : InstanceInfo) :
    Exact (((t.removeFromReverseIndex order key).setInfo key info).addToReverseIndex
      order key) := by
  intro slot other
  rw [has_addToReverseIndex, getGpuSlots_congr (instances_addToReverseIndex order),
    getGpuSlots_setInfo, getGpuSlots_setInfo, if_pos rfl,
    getGpuSlots_congr (instances_removeFromReverseIndex order)]
  show _ ∨ (t.removeFromReverseIndex order key).gpuToInstances.Has slot other ↔ _
  rw [has_removeFromReverseIndex order h]
  by_cases heq : other = key
  · simp [heq]
  · simp [heq]

theorem Exact.register (h : Exact t) (order : SetOrder GPUSlot) (gpuSlots : Finset GPUSlot)
    (status : InstanceStatus) : Exact (t.register order key gpuSlots status) :=
  h.place order _

theorem get?_register (order : SetOrder GPUSlot) (gpuSlots : Finset GPUSlot)
    (status : InstanceStatus) : (t.register order key gpuSlots status).instances.get? other =
      if other = key then some ⟨gpuSlots, status⟩ else t.instances.get? other := by
  unfold ClusterTopology.register
  rw [instances_addToReverseIndex]
  show ((t.removeFromReverseIndex order key).instances.set key ⟨gpuSlots, status⟩).get? other = _
  rw [Dict.get?_set, instances_removeFromReverseIndex]

/-- A new status leaves the placement as it is. -/
structure StatusSet (t : ClusterTopology Role) (key : InstanceIdentifier Role)
    (status : InstanceStatus) (t' : ClusterTopology Role) : Prop where
  slots : ∀ other, t'.getGpuSlots other = t.getGpuSlots other
  index : t'.gpuToInstances = t.gpuToInstances
  status : ∀ other, (t'.instances.get? other).map (·.status) =
    if other = key then some status else (t.instances.get? other).map (·.status)

theorem setStatus_ok {status : InstanceStatus} (hreg : (t.instances.get? key).isSome = true) :
    ∃ t', t.setStatus key status = .ok t' ∧ StatusSet t key status t' := by
  obtain ⟨info, hget⟩ := Option.isSome_iff_exists.mp hreg
  unfold setStatus
  rw [hget]
  refine ⟨_, rfl, fun other => ?_, rfl, fun other => ?_⟩
  · rw [getGpuSlots_setInfo]
    split
    · rename_i heq
      rw [heq, getGpuSlots, hget]
    · rfl
  · show ((t.instances.set key ⟨info.gpuSlots, status⟩).get? other).map _ = _
    rw [Dict.get?_set]
    split
    · rfl
    · rfl

theorem Exact.setStatus {status : InstanceStatus} (h : Exact t)
    (hset : StatusSet t key status t') : Exact t' := by
  intro slot other
  rw [hset.index, hset.slots]
  exact h slot other

/-! ### Exclusive use of GPUs -/

/-- No awake instance of another role is on a GPU of the instance. -/
def Clear (t : ClusterTopology Role) (key : InstanceIdentifier Role) : Prop :=
  ∀ other, t.Awake other → other.role ≠ key.role →
    Disjoint (t.getGpuSlots key) (t.getGpuSlots other)

/-- No two awake instances of different roles share a GPU. -/
def Exclusive (t : ClusterTopology Role) : Prop := ∀ key, t.Awake key → t.Clear key

/-- With an exact index the conflict check is right. -/
theorem Exact.hasOtherRole_eq_false_iff (h : Exact t) :
    t.hasOtherRoleAwakenOnSharedGpu key = false ↔ t.Clear key := by
  unfold hasOtherRoleAwakenOnSharedGpu Clear
  cases hget : t.instances.get? key with
  | none => simp [getGpuSlots, hget]
  | some info =>
      have hslots : t.getGpuSlots key = info.gpuSlots := by rw [getGpuSlots, hget]
      have hindex : ∀ slot other, other ∈ (t.gpuToInstances.get? slot).getD ∅ ↔
          slot ∈ t.getGpuSlots other := by
        intro slot other
        rw [← h slot other]
        unfold Dict.Has
        cases t.gpuToInstances.get? slot with
        | none => simp
        | some members => simp
      rw [hslots]
      dsimp only
      rw [decide_eq_false_iff_not]
      constructor
      · intro hnone other hawake hrole
        refine Finset.disjoint_left.mpr fun slot hmem hmem' => hnone ?_
        exact ⟨slot, hmem, other, (hindex slot other).mpr hmem', hrole, hawake⟩
      · rintro hclear ⟨slot, hmem, other, hother, hrole, hawake⟩
        exact Finset.disjoint_left.mp (hclear other hawake hrole) hmem
          ((hindex slot other).mp hother)

theorem awake_iff : t.Awake key ↔ (t.instances.get? key).map (·.status) = some .awaken := by
  unfold Awake
  cases t.instances.get? key with
  | none => simp
  | some info => simp

theorem StatusSet.awake_iff {status : InstanceStatus} (h : StatusSet t key status t') :
    t'.Awake other ↔ if other = key then status = .awaken else t.Awake other := by
  rw [ClusterTopology.awake_iff, h.status]
  split
  · simp
  · rw [ClusterTopology.awake_iff]

/-- An instance falls asleep. -/
theorem Clear.sleep (h : t.Clear other) (hset : StatusSet t key .asleep t') : t'.Clear other := by
  intro k hawake hrole
  rw [hset.awake_iff] at hawake
  split at hawake
  · cases hawake
  · rw [hset.slots, hset.slots]
    exact h k hawake hrole

theorem Exclusive.sleep (h : t.Exclusive) (hset : StatusSet t key .asleep t') : t'.Exclusive := by
  intro k hawake
  rw [hset.awake_iff] at hawake
  split at hawake
  · cases hawake
  · exact (h k hawake).sleep hset

/-- An instance wakes up: those of its own role stay clear. -/
theorem Clear.wake (h : t.Clear other) (hrole : key.role = other.role)
    (hset : StatusSet t key .awaken t') : t'.Clear other := by
  intro k hawake hne
  rw [hset.awake_iff] at hawake
  split at hawake
  · rename_i heq
    rw [heq] at hne
    exact absurd hrole hne
  · rw [hset.slots, hset.slots]
    exact h k hawake hne

/-- An instance that is clear wakes up. -/
theorem Exclusive.wake (h : t.Exclusive) (hclear : t.Clear key)
    (hset : StatusSet t key .awaken t') : t'.Exclusive := by
  intro k hawake other hother hrole
  rw [hset.slots, hset.slots]
  rw [hset.awake_iff] at hawake hother
  split at hawake
  · rename_i heq
    split at hother
    · rename_i heq'
      rw [heq, heq'] at hrole
      exact absurd rfl hrole
    · rw [heq] at hrole ⊢
      exact hclear other hother hrole
  · split at hother
    · rename_i heq
      rw [heq] at hrole ⊢
      exact (hclear k hawake hrole.symm).symm
    · exact h k hawake other hother hrole

/-! ### The bootstrap -/

omit [DecidableEq Role] in
theorem subset_foldl_slots {items : List (InstanceIdentifier Role × InstanceInfo)} :
    ∀ {occupied : Finset GPUSlot}, occupied ⊆ items.foldl (fun occupied item =>
      if item.2.status = .awaken then occupied ∪ item.2.gpuSlots else occupied) occupied := by
  induction items with
  | nil => exact fun {occupied} => Finset.Subset.refl occupied
  | cons item rest ih =>
      intro occupied
      rw [List.foldl_cons]
      refine Finset.Subset.trans ?_ ih
      split
      · exact Finset.subset_union_left
      · exact Finset.Subset.refl _

omit [DecidableEq Role] in
theorem mem_foldl_slots {items : List (InstanceIdentifier Role × InstanceInfo)} :
    ∀ {occupied : Finset GPUSlot} {item : InstanceIdentifier Role × InstanceInfo}, item ∈ items →
      item.2.status = .awaken → item.2.gpuSlots ⊆ items.foldl (fun occupied item =>
        if item.2.status = .awaken then occupied ∪ item.2.gpuSlots else occupied) occupied := by
  induction items with
  | nil => exact fun hmem => absurd hmem List.not_mem_nil
  | cons item' rest ih =>
      intro occupied item hmem hawake
      rw [List.foldl_cons]
      rcases List.mem_cons.mp hmem with rfl | hmem
      · rw [if_pos hawake]
        exact Finset.Subset.trans Finset.subset_union_right subset_foldl_slots
      · exact ih hmem hawake

theorem subset_getAwakenGpuSlots (h : t.Awake key) : t.getGpuSlots key ⊆ t.getAwakenGpuSlots := by
  obtain ⟨info, hget, hawake⟩ := h
  have hslots : t.getGpuSlots key = info.gpuSlots := by
    unfold getGpuSlots
    rw [Option.mem_def.mp hget]
  rw [hslots]
  exact mem_foldl_slots (Dict.get?_eq_some_iff.mp hget) hawake

/-- What is selected is registered and off the occupied GPUs. -/
theorem mem_selectLoop {role : Role} {modelName : String} {targetAwakeNum : Int} :
    ∀ {ids selected : List (String × Nat)} {occupied : Finset GPUSlot} {id : String × Nat},
      id ∈ t.selectLoop role modelName targetAwakeNum ids selected occupied →
        id ∈ selected ∨ ((t.instances.get? ⟨role, modelName, id⟩).isSome = true ∧
          Disjoint (t.getGpuSlots ⟨role, modelName, id⟩) occupied) := by
  intro ids
  induction ids with
  | nil => exact fun hmem => .inl hmem
  | cons id' rest ih =>
      intro selected occupied id hmem
      unfold selectLoop at hmem
      split at hmem
      · exact ih hmem
      · rename_i info hget
        have hnew : ¬ (info.gpuSlots ≠ ∅ ∧ ¬ Disjoint info.gpuSlots occupied) →
            id ∈ selected ++ [id'] →
            id ∈ selected ∨ ((t.instances.get? ⟨role, modelName, id⟩).isSome = true ∧
              Disjoint (t.getGpuSlots ⟨role, modelName, id⟩) occupied) := by
          intro hfree hin
          rcases List.mem_append.mp hin with hold | hlast
          · exact .inl hold
          · rw [List.mem_singleton.mp hlast]
            refine .inr ⟨by rw [hget]; rfl, ?_⟩
            rw [getGpuSlots, hget]
            by_cases hempty : info.gpuSlots = ∅
            · dsimp only
              rw [hempty]
              exact Finset.disjoint_empty_left _
            · exact not_not.mp fun hnot => hfree ⟨hempty, hnot⟩
        split at hmem
        · exact ih hmem
        · rename_i hfree
          split at hmem
          · exact hnew hfree hmem
          · rcases ih hmem with hin | ⟨hreg, hdis⟩
            · exact hnew hfree hin
            · exact .inr ⟨hreg, hdis.mono_right Finset.subset_union_left⟩

/-- What is selected may be woken. -/
theorem clear_of_mem_select {role : Role} {modelName : String} {ids selected : List (String × Nat)}
    {targetAwakeNum minAwakeNum : Int}
    (hok : t.selectNonConflictingAwakeIds role modelName ids targetAwakeNum minAwakeNum =
      .ok selected) {id : String × Nat} (hmem : id ∈ selected) :
    (t.instances.get? ⟨role, modelName, id⟩).isSome = true ∧ t.Clear ⟨role, modelName, id⟩ := by
  unfold selectNonConflictingAwakeIds at hok
  dsimp only at hok
  split at hok
  · cases hok
  · cases hok
    rcases mem_selectLoop hmem with hnil | ⟨hreg, hdis⟩
    · exact absurd hnil List.not_mem_nil
    · exact ⟨hreg, fun other hawake _ => hdis.mono_right (subset_getAwakenGpuSlots hawake)⟩

/-! ### Any sequence of operations -/

/-- An operation that changes the topology. -/
inductive Action (Role : Type)
  | register (key : InstanceIdentifier Role) (gpuSlots : Finset GPUSlot) (status : InstanceStatus)
  | updateGpuSlots (key : InstanceIdentifier Role) (gpuSlots : Finset GPUSlot)
  | setStatus (key : InstanceIdentifier Role) (status : InstanceStatus)

def exec (order : SetOrder GPUSlot) (t : ClusterTopology Role) :
    Action Role → Except PyError (ClusterTopology Role)
  | .register key gpuSlots status => .ok (t.register order key gpuSlots status)
  | .updateGpuSlots key gpuSlots => t.updateGpuSlots order key gpuSlots
  | .setStatus key status => t.setStatus key status

theorem Exact.exec {order : SetOrder GPUSlot} (h : Exact t) {a : Action Role}
    (hexec : t.exec order a = .ok t') : Exact t' := by
  cases a with
  | register key gpuSlots status =>
      cases hexec
      exact h.register order gpuSlots status
  | updateGpuSlots key gpuSlots =>
      simp only [ClusterTopology.exec, updateGpuSlots] at hexec
      split at hexec
      · cases hexec
      · cases hexec
        exact h.place order _
  | setStatus key status =>
      cases hget : t.instances.get? key with
      | none => simp [ClusterTopology.exec, ClusterTopology.setStatus, hget] at hexec
      | some info =>
          have hreg : (t.instances.get? key).isSome = true := by rw [hget]; rfl
          obtain ⟨t1, hset, hstatus⟩ := setStatus_ok hreg
          obtain rfl : t1 = t' := Except.ok.inj (hset.symm.trans hexec)
          exact h.setStatus hstatus

/-- **The index answers as a scan would.** After any registrations, also of instances that are
registered already, moves to other GPUs and changes of status, in any order: the conflict check,
which only looks at the GPUs of the instance, finds exactly the awake instances of other roles that
share one with it. -/
theorem conflict_check_eq_scan {order : SetOrder GPUSlot}
    (hreach : Run.Reachable (exec order) (fun _ _ => True) (empty : ClusterTopology Role) t)
    (key : InstanceIdentifier Role) : t.hasOtherRoleAwakenOnSharedGpu key = true ↔
      ∃ other, t.Awake other ∧ other.role ≠ key.role ∧
        ¬ Disjoint (t.getGpuSlots key) (t.getGpuSlots other) := by
  have hexact : Exact t := hreach.invariant Exact.empty fun _ _ _ h _ hexec => h.exec hexec
  rw [← Bool.not_eq_false, hexact.hasOtherRole_eq_false_iff]
  simp [Clear]

/-- An instance moves to the GPU of another role's awake instance. -/
theorem conflict_check_eq_scan_moved : ∃ t : ClusterTopology Bool, ∃ other, t.Awake other ∧
    other.role ≠ false ∧ ¬ Disjoint (t.getGpuSlots ⟨false, "m", "a", 0⟩) (t.getGpuSlots other) := by
  obtain ⟨t, hreach, ht⟩ : ∃ t, Run.Reachable (exec ((SetOrder.ofLinearOrder
      (WithBot String ×ₗ Nat)).comap toLex)) (fun _ _ => True) (empty : ClusterTopology Bool) t ∧
      t.hasOtherRoleAwakenOnSharedGpu ⟨false, "m", "a", 0⟩ = true :=
    Run.exists_reachable_of_perform (l := [.register ⟨false, "m", "a", 0⟩ {(none, 0)} .asleep,
      .register ⟨true, "m", "b", 0⟩ {(none, 1)} .awaken,
      .updateGpuSlots ⟨false, "m", "a", 0⟩ {(none, 1)}]) (by decide +kernel)
  exact ⟨t, (conflict_check_eq_scan hreach _).mp ht⟩

end ClusterTopology

end Psrl
