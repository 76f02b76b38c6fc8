import Mathlib.Algebra.Ring.Nat
import Psrl.Lib.Ledger
import Psrl.Lib.Run
import Psrl.Lib.Python

/-!
# Psrl.Env.Coordinator

**Placing sandboxes** (`workers/env_worker/coordinator.py`).

The coordinator reserves capacity of a worker before the worker is asked to create a sandbox. The
reservation is given back when that fails, or when the handle that was returned is destroyed. All of
this runs in coroutines: a step of the model is what happens between two `await`s, and the steps of
all calls are interleaved in any way. `capacity_kept` says that the counters agree with the
placements at any time.
-/

namespace Psrl

open Py

/-- `SandboxSpec`, as far as placing it depends on it. -/
structure SandboxSpec where
  gpus : Nat
  deriving DecidableEq

structure WorkerSlot where
  workerId : Nat
  cpuSlots : Nat
  gpuSlots : Nat
  usedCpu : Int := 0
  usedGpu : Int := 0
  deriving DecidableEq

namespace WorkerSlot

def hasCpuCapacity (slot : WorkerSlot) : Bool := slot.usedCpu < slot.cpuSlots

def hasGpuCapacity (slot : WorkerSlot) (requested : Nat) : Bool :=
  slot.usedGpu + requested ≤ slot.gpuSlots

end WorkerSlot

inductive RoutingMethod
  | leastLoaded
  | roundRobin
  | random
  | unknown (name : String)
  deriving DecidableEq

/-- `min(eligible, key=lambda slot: (slot.used_cpu, slot.worker_id))`. -/
def leastLoaded : List WorkerSlot → Option WorkerSlot
  | [] => none
  | slot :: slots => some (slots.foldl (fun least slot =>
      if slot.usedCpu < least.usedCpu ∨
          slot.usedCpu = least.usedCpu ∧ slot.workerId < least.workerId then slot
      else least) slot)

/-- `select_by_method`. `choice` is the next value of `_ROUND_ROBIN_COUNTER`, which all coordinators
of a process share, or what `random.choice` draws. -/
def selectByMethod (method : RoutingMethod) (choice : Nat) (candidates : List WorkerSlot)
    (spec : SandboxSpec) : Except PyError (Option WorkerSlot) :=
  let eligible := candidates.filter fun slot => slot.hasCpuCapacity && slot.hasGpuCapacity spec.gpus
  match method with
  | .unknown name => .error (.valueError s!"Unknown routing method '{name}'.")
  | .leastLoaded => .ok (leastLoaded eligible)
  -- of an empty list there is no element either
  | .roundRobin => .ok (eligible[choice % eligible.length]?)
  | .random => .ok (eligible[choice % eligible.length]?)

structure EnvWorkerCoordinator where
  routingMethod : RoutingMethod
  slots : Dict Nat WorkerSlot

namespace EnvWorkerCoordinator

def registerWorker (c : EnvWorkerCoordinator) (workerId cpuSlots gpuSlots : Nat) :
    EnvWorkerCoordinator :=
  let slot : WorkerSlot := { workerId, cpuSlots, gpuSlots }
  { c with slots := c.slots.set workerId slot }

/-- The part of `select_worker` under the lock: the worker that is chosen. -/
def trySelect (c : EnvWorkerCoordinator) (choice : Nat) (spec : SandboxSpec) :
    Except PyError (Option Nat × EnvWorkerCoordinator) := do
  if c.slots.items = [] then
    throw (.runtimeError "No env worker is registered with the coordinator.")
  match ← selectByMethod c.routingMethod choice (c.slots.items.map Prod.snd) spec with
  | some chosen =>
      let reserved := { chosen with
        usedCpu := chosen.usedCpu + 1
        usedGpu := chosen.usedGpu + spec.gpus }
      return (some chosen.workerId, { c with slots := c.slots.set chosen.workerId reserved })
  | none => return (none, c)

def release (c : EnvWorkerCoordinator) (workerId gpus : Nat) : EnvWorkerCoordinator :=
  match c.slots.get? workerId with
  | none => c
  | some slot =>
      let released := { slot with
        usedCpu := max 0 (slot.usedCpu - 1)
        usedGpu := max 0 (slot.usedGpu - gpus) }
      { c with slots := c.slots.set workerId released }

end EnvWorkerCoordinator

structure SandboxHandle where
  sandboxId : String
  /-- `coordinator is not None`. -/
  coordinated : Bool
  workerId : Nat
  gpus : Nat
  destroyed : Bool
  deriving DecidableEq

/-! ### Calls in flight -/

/-- Where a call of `create_sandbox` is. -/
inductive CreateCall
  /-- In the loop of `select_worker`. -/
  | selecting (spec : SandboxSpec) (attempt : Nat)
  /-- The worker has been asked. -/
  | creating (spec : SandboxSpec) (attempt workerId : Nat)
  /-- The worker has raised, `release` is still to come. -/
  | failed (spec : SandboxSpec) (attempt workerId : Nat)
  | raised (error : PyError)
  /-- Returned, and whether the coordinator has run `release` for the handle. -/
  | returned (handle : SandboxHandle) (released : Bool)
  deriving DecidableEq

/-- Where a call of `destroy` is, on the handle that a call of `create_sandbox` has returned. -/
inductive DestroyCall
  | destroying (create : Nat)
  /-- In the `finally` block. -/
  | releasing (create : Nat) (workerRaised : Bool)
  | finished (workerRaised : Bool)
  deriving DecidableEq

/-- Capacity reserved on a worker. -/
structure SandboxPlacement where
  workerId : Nat
  gpus : Nat
  deriving DecidableEq

/-- The placement that a call has and that was not released yet. -/
def CreateCall.placement : CreateCall → Option SandboxPlacement
  | .creating spec _ workerId => some ⟨workerId, spec.gpus⟩
  | .failed spec _ workerId => some ⟨workerId, spec.gpus⟩
  | .returned handle false => some ⟨handle.workerId, handle.gpus⟩
  | .returned _ true => none
  | .selecting _ _ => none
  | .raised _ => none

/-- The placement of a call, if it is on a given worker. -/
def CreateCall.placementOn (workerId : Nat) (call : CreateCall) : Option SandboxPlacement :=
  call.placement.filter (·.workerId = workerId)

structure EnvSystem where
  coordinator : EnvWorkerCoordinator
  creates : List CreateCall
  destroys : List DestroyCall

namespace EnvSystem

def start (method : RoutingMethod) : EnvSystem := ⟨⟨method, .empty⟩, [], []⟩

inductive Action
  | registerWorker (workerId cpuSlots gpuSlots : Nat)
  | createSandbox (spec : SandboxSpec)
  /-- One turn of the loop of `select_worker`, and whether the deadline has passed. -/
  | select (create choice : Nat) (expired : Bool)
  /-- The worker answers with an id, or raises. -/
  | created (create : Nat) (answer : Option String)
  | releaseFailed (create : Nat)
  | destroy (create : Nat)
  | destroyed (destroy : Nat) (workerRaised : Bool)
  | releaseDestroyed (destroy : Nat)

def setCreate (s : EnvSystem) (create : Nat) (call : CreateCall) : EnvSystem :=
  { s with creates := s.creates.set create call }

def select (s : EnvSystem) (create choice : Nat) (expired : Bool) (spec : SandboxSpec)
    (attempt : Nat) : EnvSystem :=
  match s.coordinator.trySelect choice spec with
  | .error error => s.setCreate create (.raised error)
  | .ok (some workerId, coordinator) =>
      { s with coordinator := coordinator }.setCreate create (.creating spec attempt workerId)
  | .ok (none, coordinator) =>
      let s := { s with coordinator := coordinator }
      if expired then s.setCreate create (.raised (.runtimeError
        "No env worker capacity became available."))
      else s

/-- Where `create_sandbox` goes on when an attempt has failed. -/
def afterFailure (spec : SandboxSpec) (attempt : Nat) : CreateCall :=
  if attempt + 1 < 2 then .selecting spec (attempt + 1)
  else .raised (.runtimeError "Failed to create a sandbox after two attempts.")

/-- What `release` at the end of `destroy` does. -/
def releaseHandle (s : EnvSystem) (create : Nat) : EnvSystem :=
  match s.creates[create]? with
  | some (.returned handle released) =>
      if handle.coordinated then
        { s with coordinator := s.coordinator.release handle.workerId handle.gpus }.setCreate create
          (.returned handle true)
      else s.setCreate create (.returned handle released)
  | _ => s

/-- Calls that are not where the action needs them stay where they are. -/
def exec (s : EnvSystem) : Action → EnvSystem
  | .registerWorker workerId cpuSlots gpuSlots =>
      { s with coordinator := s.coordinator.registerWorker workerId cpuSlots gpuSlots }
  | .createSandbox spec => { s with creates := s.creates ++ [.selecting spec 0] }
  | .select create choice expired =>
      match s.creates[create]? with
      | some (.selecting spec attempt) => s.select create choice expired spec attempt
      | _ => s
  | .created create answer =>
      match s.creates[create]?, answer with
      | some (.creating spec _ workerId), some sandboxId =>
          s.setCreate create (.returned ⟨sandboxId, true, workerId, spec.gpus, false⟩ false)
      | some (.creating spec attempt workerId), none =>
          s.setCreate create (.failed spec attempt workerId)
      | _, _ => s
  | .releaseFailed create =>
      match s.creates[create]? with
      | some (.failed spec attempt workerId) =>
          { s with coordinator := s.coordinator.release workerId spec.gpus }.setCreate create
            (afterFailure spec attempt)
      | _ => s
  | .destroy create =>
      match s.creates[create]? with
      | some (.returned handle released) =>
          if handle.destroyed then s
          else { s.setCreate create (.returned { handle with destroyed := true } released) with
            destroys := s.destroys ++ [.destroying create] }
      | _ => s
  | .destroyed destroy workerRaised =>
      match s.destroys[destroy]? with
      | some (.destroying create) =>
          { s with destroys := s.destroys.set destroy (.releasing create workerRaised) }
      | _ => s
  | .releaseDestroyed destroy =>
      match s.destroys[destroy]? with
      | some (.releasing create workerRaised) =>
          { s.releaseHandle create with
            destroys := s.destroys.set destroy (.finished workerRaised) }
      | _ => s

/-- Each worker is registered once. -/
def Allowed (s : EnvSystem) : Action → Prop
  | .registerWorker workerId _ _ => s.coordinator.slots.get? workerId = none
  | _ => True

instance (s : EnvSystem) (a : Action) : Decidable (s.Allowed a) := by
  cases a <;> unfold Allowed <;> infer_instance

end EnvSystem

/-! ### The books -/

/-- The counters of a worker agree with what is placed on it, and it has room for that. -/
structure WorkerSlot.Counts (slot : WorkerSlot) (placed : List SandboxPlacement) : Prop where
  cpu : slot.usedCpu = placed.length
  gpu : slot.usedGpu = (placed.map SandboxPlacement.gpus).sum
  cpu_le : slot.usedCpu ≤ slot.cpuSlots
  gpu_le : slot.usedGpu ≤ slot.gpuSlots

namespace WorkerSlot.Counts

variable {slot : WorkerSlot} {placed placed' : List SandboxPlacement} {p : SandboxPlacement}

theorem perm (h : slot.Counts placed) (hperm : placed'.Perm placed) : slot.Counts placed' where
  cpu := by rw [hperm.length_eq]; exact h.cpu
  gpu := by rw [(hperm.map _).sum_eq]; exact h.gpu
  cpu_le := h.cpu_le
  gpu_le := h.gpu_le

theorem reserve (h : slot.Counts placed) (hcpu : slot.usedCpu < slot.cpuSlots)
    (hgpu : slot.usedGpu + p.gpus ≤ slot.gpuSlots) :
    WorkerSlot.Counts { slot with usedCpu := slot.usedCpu + 1, usedGpu := slot.usedGpu + p.gpus }
      (p :: placed) where
  cpu := by
    show slot.usedCpu + 1 = _
    rw [h.cpu, List.length_cons]
    omega
  gpu := by
    show slot.usedGpu + p.gpus = _
    rw [h.gpu, List.map_cons, List.sum_cons]
    omega
  cpu_le := by
    show slot.usedCpu + 1 ≤ slot.cpuSlots
    omega
  gpu_le := hgpu

/-- With something placed there is something to take back. -/
theorem le_used (h : slot.Counts (p :: placed)) : 1 ≤ slot.usedCpu ∧ p.gpus ≤ slot.usedGpu := by
  have hcpu := h.cpu
  have hgpu := h.gpu
  rw [List.length_cons] at hcpu
  rw [List.map_cons, List.sum_cons] at hgpu
  omega

/-- So the clamping at `0` makes no difference. -/
theorem release (h : slot.Counts (p :: placed)) :
    WorkerSlot.Counts { slot with
      usedCpu := max 0 (slot.usedCpu - 1), usedGpu := max 0 (slot.usedGpu - p.gpus) } placed := by
  obtain ⟨hcpu_pos, hgpu_pos⟩ := h.le_used
  have hcpu := h.cpu
  have hgpu := h.gpu
  have hcpu_le := h.cpu_le
  have hgpu_le := h.gpu_le
  rw [List.length_cons] at hcpu
  rw [List.map_cons, List.sum_cons] at hgpu
  constructor
  · show max 0 (slot.usedCpu - 1) = _
    omega
  · show max 0 (slot.usedGpu - p.gpus) = _
    omega
  · show max 0 (slot.usedCpu - 1) ≤ (slot.cpuSlots : Int)
    omega
  · show max 0 (slot.usedGpu - p.gpus) ≤ (slot.gpuSlots : Int)
    omega

end WorkerSlot.Counts

theorem mem_of_leastLoaded : ∀ {slots : List WorkerSlot} {slot : WorkerSlot},
    leastLoaded slots = some slot → slot ∈ slots
  | _ :: slots, _, rfl => by
      refine List.foldlRecOn slots _ (List.mem_cons_self ..) fun least hleast slot hslot => ?_
      split
      · exact List.mem_cons_of_mem _ hslot
      · exact hleast

/-- What is chosen is one of the candidates, with room for the sandbox. -/
theorem selectByMethod_eq_some {method : RoutingMethod} {choice : Nat}
    {candidates : List WorkerSlot} {spec : SandboxSpec} {slot : WorkerSlot}
    (h : selectByMethod method choice candidates spec = .ok (some slot)) :
    slot ∈ candidates ∧ slot.usedCpu < slot.cpuSlots ∧
      slot.usedGpu + spec.gpus ≤ slot.gpuSlots := by
  have hmem : slot ∈ candidates.filter fun slot =>
      slot.hasCpuCapacity && slot.hasGpuCapacity spec.gpus := by
    cases method with
    | unknown => cases h
    | leastLoaded => exact mem_of_leastLoaded (Except.ok.inj h)
    | roundRobin => exact List.mem_of_getElem? (Except.ok.inj h)
    | random => exact List.mem_of_getElem? (Except.ok.inj h)
  obtain ⟨hcandidate, hroom⟩ := List.mem_filter.mp hmem
  obtain ⟨hcpu, hgpu⟩ := Bool.and_eq_true_iff.mp hroom
  exact ⟨hcandidate, of_decide_eq_true hcpu, of_decide_eq_true hgpu⟩

namespace EnvWorkerCoordinator

variable {c c' : EnvWorkerCoordinator} {choice : Nat} {spec : SandboxSpec}

theorem trySelect_cases {chosen : Option Nat} (h : c.trySelect choice spec = .ok (chosen, c')) :
    (chosen = none ∧ c' = c) ∨
    ∃ k slot, c.slots.get? k = some slot ∧ chosen = some slot.workerId ∧
      slot.usedCpu < slot.cpuSlots ∧ slot.usedGpu + spec.gpus ≤ slot.gpuSlots ∧
      c' = { c with slots := c.slots.set slot.workerId { slot with
        usedCpu := slot.usedCpu + 1, usedGpu := slot.usedGpu + spec.gpus } } := by
  unfold trySelect at h
  split at h
  · cases h
  · obtain ⟨selected, hselected, h⟩ := bind_eq_ok.mp h
    cases selected with
    | none =>
        cases h
        exact .inl ⟨rfl, rfl⟩
    | some slot =>
        cases h
        obtain ⟨hmem, hcpu, hgpu⟩ := selectByMethod_eq_some hselected
        obtain ⟨⟨k, _⟩, hitem, rfl⟩ := List.mem_map.mp hmem
        exact .inr ⟨k, _, Dict.get?_eq_some_iff.mpr hitem, rfl, hcpu, hgpu, rfl⟩

end EnvWorkerCoordinator

/-- The coordinator's counters agree with the calls. -/
structure Books (c : EnvWorkerCoordinator) (creates : List CreateCall) : Prop where
  keyed : ∀ w slot, c.slots.get? w = some slot → slot.workerId = w
  registered : ∀ call ∈ creates, ∀ p, call.placement = some p → ∃ slot,
    c.slots.get? p.workerId = some slot
  counted : ∀ w slot, c.slots.get? w = some slot →
    slot.Counts (creates.filterMap (CreateCall.placementOn w))

namespace Books

variable {c c' : EnvWorkerCoordinator} {creates : List CreateCall} {call call' : CreateCall}
  {i w gpus : Nat} {p : SandboxPlacement}

theorem placementOn_of_none (h : call.placement = none) (w : Nat) : call.placementOn w = none := by
  unfold CreateCall.placementOn
  rw [h]
  rfl

theorem placementOn_self (h : call.placement = some p) : call.placementOn p.workerId = some p := by
  unfold CreateCall.placementOn
  rw [h]
  exact Option.filter_some_pos (decide_eq_true rfl)

theorem placementOn_ne (h : call.placement = some p) (hne : w ≠ p.workerId) :
    call.placementOn w = none := by
  unfold CreateCall.placementOn
  rw [h]
  exact Option.filter_some_neg (by simpa using hne.symm)

/-- A worker is registered: nothing was placed on it before. -/
theorem registerWorker (h : Books c creates) (hnew : c.slots.get? w = none)
    (cpuSlots gpuSlots : Nat) : Books (c.registerWorker w cpuSlots gpuSlots) creates := by
  have hget : ∀ w', (c.registerWorker w cpuSlots gpuSlots).slots.get? w' =
      if w' = w then some { workerId := w, cpuSlots, gpuSlots } else c.slots.get? w' :=
    fun w' => Dict.get?_set ..
  refine ⟨fun w' slot hslot => ?_, fun call hcall p hp => ?_, fun w' slot hslot => ?_⟩
  · rw [hget] at hslot
    split at hslot
    · rename_i heq
      cases hslot
      exact heq.symm
    · exact h.keyed w' slot hslot
  · obtain ⟨slot, hslot⟩ := h.registered call hcall p hp
    have hne : p.workerId ≠ w := by
      rintro rfl
      rw [hnew] at hslot
      cases hslot
    exact ⟨slot, by rw [hget, if_neg hne]; exact hslot⟩
  · rw [hget] at hslot
    split at hslot
    · rename_i heq
      cases hslot
      have hnone : creates.filterMap (CreateCall.placementOn w') = [] := by
        refine List.filterMap_eq_nil_iff.mpr fun call hcall => ?_
        cases hp : call.placement with
        | none => exact placementOn_of_none hp w'
        | some p =>
            refine placementOn_ne hp ?_
            obtain ⟨slot, hslot⟩ := h.registered call hcall p hp
            rintro rfl
            rw [heq, hnew] at hslot
            cases hslot
      rw [hnone]
      exact ⟨rfl, rfl, Int.natCast_nonneg _, Int.natCast_nonneg _⟩
    · exact h.counted w' slot hslot

/-- A new call has no placement. -/
theorem append (h : Books c creates) (hcall : call.placement = none) :
    Books c (creates ++ [call]) where
  keyed := h.keyed
  registered := by
    intro call' hmem p hp
    rcases List.mem_append.mp hmem with hmem | hmem
    · exact h.registered call' hmem p hp
    · rw [List.mem_singleton.mp hmem, hcall] at hp
      cases hp
  counted := by
    intro w slot hslot
    rw [List.filterMap_append, List.filterMap_cons_none (placementOn_of_none hcall w),
      List.filterMap_nil, List.append_nil]
    exact h.counted w slot hslot

/-- A call goes on with the same placement. -/
theorem keep (h : Books c creates) (hcall : creates[i]? = some call)
    (heq : call'.placement = call.placement) : Books c (creates.set i call') where
  keyed := h.keyed
  registered := by
    intro call₁ hmem p hp
    rcases List.mem_or_eq_of_mem_set hmem with hmem | rfl
    · exact h.registered call₁ hmem p hp
    · exact h.registered call (List.mem_of_getElem? hcall) p (heq ▸ hp)
  counted := by
    intro w slot hslot
    refine (h.counted w slot hslot).perm (Ledger.keep hcall ?_)
    unfold CreateCall.placementOn
    rw [heq]

/-- The calls after one of them got or gave back a placement: only its worker's counters are
concerned. -/
theorem set_slot (h : Books c creates) (hcall : creates[i]? = some call) {slot slot' : WorkerSlot}
    (hslot : c.slots.get? w = some slot) (hid : slot'.workerId = slot.workerId)
    (hplacement : ∀ p, call'.placement = some p → p.workerId = w)
    (hother : ∀ w' ≠ w, call'.placementOn w' = call.placementOn w')
    (hcounts : slot'.Counts ((creates.set i call').filterMap (CreateCall.placementOn w))) :
    Books { c with slots := c.slots.set w slot' } (creates.set i call') := by
  have hget : ∀ w', ({ c with slots := c.slots.set w slot' } : EnvWorkerCoordinator).slots.get? w' =
      if w' = w then some slot' else c.slots.get? w' := fun w' => Dict.get?_set ..
  refine ⟨fun w' slot₁ hslot₁ => ?_, fun call₁ hmem p hp => ?_, fun w' slot₁ hslot₁ => ?_⟩
  · rw [hget] at hslot₁
    split at hslot₁
    · rename_i heq
      cases hslot₁
      rw [hid, heq]
      exact h.keyed w slot hslot
    · exact h.keyed w' slot₁ hslot₁
  · rw [hget]
    split
    · exact ⟨slot', rfl⟩
    · rename_i hne
      rcases List.mem_or_eq_of_mem_set hmem with hmem | rfl
      · exact h.registered call₁ hmem p hp
      · exact absurd (hplacement p hp) hne
  · rw [hget] at hslot₁
    split at hslot₁
    · rename_i heq
      cases hslot₁
      rw [heq]
      exact hcounts
    · rename_i hne
      exact (h.counted w' slot₁ hslot₁).perm (Ledger.keep hcall (hother w' hne))

/-- A worker is chosen for a call. -/
theorem select (h : Books c creates) (hcall : creates[i]? = some call)
    (hnone : call.placement = none) {choice : Nat} {spec : SandboxSpec}
    (hselect : c.trySelect choice spec = .ok (some w, c'))
    (hplaced : call'.placement = some ⟨w, spec.gpus⟩) : Books c' (creates.set i call') := by
  rcases EnvWorkerCoordinator.trySelect_cases hselect with ⟨hsome, -⟩ |
    ⟨k, slot, hslot, hsome, hcpu, hgpu, rfl⟩
  · cases hsome
  · obtain rfl := Option.some.inj hsome
    obtain rfl := h.keyed k slot hslot
    refine h.set_slot hcall hslot rfl ?_ ?_ ?_
    · intro p hp
      rw [hplaced] at hp
      cases hp
      rfl
    · intro w' hne
      rw [placementOn_ne hplaced hne, placementOn_of_none hnone]
    · refine ((h.counted _ slot hslot).reserve (p := ⟨slot.workerId, spec.gpus⟩) hcpu hgpu).perm ?_
      exact Ledger.acquire hcall (placementOn_of_none hnone _) (placementOn_self hplaced)

/-- As long as a call has a placement its worker's counters include it. -/
theorem exists_slot (h : Books c creates) (hcall : creates[i]? = some call)
    (hplaced : call.placement = some p) : ∃ slot, c.slots.get? p.workerId = some slot ∧
      ∃ rest, slot.Counts (p :: rest) ∧ ∀ call', call'.placement = none →
        rest.Perm ((creates.set i call').filterMap (CreateCall.placementOn p.workerId)) := by
  obtain ⟨slot, hslot⟩ := h.registered call (List.mem_of_getElem? hcall) p hplaced
  obtain ⟨rest, hold, hnew⟩ := Ledger.exists_rest (CreateCall.placementOn p.workerId) hcall
  rw [placementOn_self hplaced] at hold
  refine ⟨slot, hslot, rest, (h.counted _ slot hslot).perm hold.symm, fun call' hnone => ?_⟩
  have hnew := hnew call'
  rw [placementOn_of_none hnone] at hnew
  exact hnew.symm

/-- The placement of a call is given back. -/
theorem release (h : Books c creates) (hcall : creates[i]? = some call)
    (hplaced : call.placement = some p) (hnone : call'.placement = none) :
    Books (c.release p.workerId p.gpus) (creates.set i call') := by
  obtain ⟨slot, hslot, rest, hcounts, hrest⟩ := h.exists_slot hcall hplaced
  unfold EnvWorkerCoordinator.release
  rw [hslot]
  refine h.set_slot hcall hslot rfl ?_ ?_ ?_
  · intro p' hp'
    rw [hnone] at hp'
    cases hp'
  · intro w' hne
    rw [placementOn_ne hplaced hne, placementOn_of_none hnone]
  · exact hcounts.release.perm (hrest call' hnone).symm

end Books

/-! ### Handles -/

/-- The call of `create_sandbox` whose handle a call is about to release. -/
def DestroyCall.target : DestroyCall → Option Nat
  | .destroying create => some create
  | .releasing create _ => some create
  | .finished _ => none

/-- Some call of `destroy` is about to release the handle of a call of `create_sandbox`. -/
def Targets (destroys : List DestroyCall) (d i : Nat) : Prop :=
  (destroys[d]?).bind DestroyCall.target = some i

/-- Only one call of `destroy` gets past the flag of a handle. -/
structure Handles (creates : List CreateCall) (destroys : List DestroyCall) : Prop where
  unreleased : ∀ (i : Nat) handle released, creates[i]? = some (.returned handle released) →
    handle.coordinated = true ∧ (handle.destroyed = false → released = false)
  target : ∀ d i, Targets destroys d i → ∃ handle, creates[i]? = some (.returned handle false) ∧
    handle.destroyed = true
  once : ∀ d d' i, Targets destroys d i → Targets destroys d' i → d = d'

namespace Handles

variable {creates : List CreateCall} {destroys : List DestroyCall} {call call' : CreateCall}
  {i d : Nat} {handle : SandboxHandle} {released : Bool}

theorem append (h : Handles creates destroys) (hcall : ∀ handle released,
    call ≠ .returned handle released) : Handles (creates ++ [call]) destroys where
  unreleased := by
    intro i handle released hi
    rw [List.getElem?_append] at hi
    split at hi
    · exact h.unreleased i handle released hi
    · exact absurd (List.mem_singleton.mp (List.mem_of_getElem? hi)).symm (hcall handle released)
  target := by
    intro d i hd
    obtain ⟨handle, hi, hdestroyed⟩ := h.target d i hd
    have hlt := (List.getElem?_eq_some_iff.mp hi).1
    exact ⟨handle, by rw [List.getElem?_append_left hlt]; exact hi, hdestroyed⟩
  once := h.once

/-- A call that has not returned yet goes on. -/
theorem set (h : Handles creates destroys) (hcall : creates[i]? = some call)
    (hrunning : ∀ handle released, call ≠ .returned handle released)
    (hnext : ∀ handle released, call' = .returned handle released →
      handle.coordinated = true ∧ released = false) : Handles (creates.set i call') destroys where
  unreleased := by
    intro j handle released hj
    rw [List.getElem?_set] at hj
    split at hj
    · split at hj
      · obtain ⟨hcoordinated, hreleased⟩ := hnext handle released (Option.some.inj hj)
        exact ⟨hcoordinated, fun _ => hreleased⟩
      · cases hj
    · exact h.unreleased j handle released hj
  target := by
    intro d j hd
    obtain ⟨handle, hj, hdestroyed⟩ := h.target d j hd
    have hne : i ≠ j := by
      rintro rfl
      rw [hcall] at hj
      exact hrunning _ _ (Option.some.inj hj)
    exact ⟨handle, by rw [List.getElem?_set_ne hne]; exact hj, hdestroyed⟩
  once := h.once

theorem targets_append {new : DestroyCall} {d j : Nat} (h : Targets (destroys ++ [new]) d j) :
    Targets destroys d j ∨ (d = destroys.length ∧ new.target = some j) := by
  unfold Targets at h
  rw [List.getElem?_append] at h
  split at h
  · exact .inl h
  · right
    obtain ⟨new', hnew, htarget⟩ := Option.bind_eq_some_iff.mp h
    obtain ⟨hlt, rfl⟩ := List.getElem?_eq_some_iff.mp hnew
    rw [List.length_singleton] at hlt
    exact ⟨by omega, by simpa using htarget⟩

/-- The first call of `destroy` on a handle. -/
theorem destroy (h : Handles creates destroys)
    (hcall : creates[i]? = some (.returned handle released)) (hflag : handle.destroyed = false) :
    Handles (creates.set i (.returned { handle with destroyed := true } released))
      (destroys ++ [.destroying i]) := by
  obtain ⟨hcoordinated, hreleased⟩ := h.unreleased i handle released hcall
  obtain rfl := hreleased hflag
  have hlt := (List.getElem?_eq_some_iff.mp hcall).1
  -- no other call is past the flag
  have hfree : ∀ d, ¬ Targets destroys d i := by
    intro d hd
    obtain ⟨handle', hi, hdestroyed⟩ := h.target d i hd
    rw [hcall] at hi
    cases hi
    rw [hflag] at hdestroyed
    cases hdestroyed
  refine ⟨fun j handle' released' hj => ?_, fun d j hd => ?_, fun d d' j hd hd' => ?_⟩
  · rw [List.getElem?_set] at hj
    split at hj
    · cases hj
      exact ⟨hcoordinated, nofun⟩
    · exact h.unreleased j handle' released' hj
  · rcases targets_append hd with hd | ⟨-, htarget⟩
    · obtain ⟨handle', hj, hdestroyed⟩ := h.target d j hd
      have hne : i ≠ j := fun heq => hfree d (heq ▸ hd)
      exact ⟨handle', by rw [List.getElem?_set_ne hne]; exact hj, hdestroyed⟩
    · obtain rfl := Option.some.inj htarget
      exact ⟨_, List.getElem?_set_self hlt, rfl⟩
  · rcases targets_append hd with hd | ⟨rfl, htarget⟩
    · rcases targets_append hd' with hd' | ⟨-, htarget'⟩
      · exact h.once d d' j hd hd'
      · obtain rfl := Option.some.inj htarget'
        exact absurd hd (hfree d)
    · obtain rfl := Option.some.inj htarget
      rcases targets_append hd' with hd' | ⟨rfl, -⟩
      · exact absurd hd' (hfree d')
      · rfl

/-- A call of `destroy` goes on to its `finally` block. -/
theorem destroyed (h : Handles creates destroys) (hd : destroys[d]? = some (.destroying i))
    (workerRaised : Bool) : Handles creates (destroys.set d (.releasing i workerRaised)) := by
  have hsame : ∀ d' j, Targets (destroys.set d (.releasing i workerRaised)) d' j →
      Targets destroys d' j := by
    intro d' j hd'
    unfold Targets at hd' ⊢
    rw [List.getElem?_set] at hd'
    split at hd'
    · rename_i heq
      subst heq
      rw [if_pos (List.getElem?_eq_some_iff.mp hd).1] at hd'
      rw [hd]
      exact hd'
    · exact hd'
  exact ⟨h.unreleased, fun d' j hd' => h.target d' j (hsame d' j hd'),
    fun d₁ d₂ j h₁ h₂ => h.once d₁ d₂ j (hsame d₁ j h₁) (hsame d₂ j h₂)⟩

/-- A call of `destroy` has released the handle. -/
theorem release (h : Handles creates destroys) {workerRaised : Bool}
    (hd : destroys[d]? = some (.releasing i workerRaised))
    (hcall : creates[i]? = some (.returned handle false)) (hflag : handle.destroyed = true) :
    Handles (creates.set i (.returned handle true)) (destroys.set d (.finished workerRaised)) := by
  have hother : ∀ d' j, Targets (destroys.set d (.finished workerRaised)) d' j →
      Targets destroys d' j ∧ d' ≠ d := by
    intro d' j hd'
    unfold Targets at hd' ⊢
    rw [List.getElem?_set] at hd'
    split at hd'
    · rw [if_pos (by rename_i heq; exact heq ▸ (List.getElem?_eq_some_iff.mp hd).1)] at hd'
      cases hd'
    · rename_i hne
      exact ⟨hd', Ne.symm hne⟩
  have hself : Targets destroys d i := by
    unfold Targets
    rw [hd]
    rfl
  refine ⟨fun j handle' released' hj => ?_, fun d' j hd' => ?_, fun d₁ d₂ j h₁ h₂ =>
    h.once d₁ d₂ j (hother d₁ j h₁).1 (hother d₂ j h₂).1⟩
  · rw [List.getElem?_set] at hj
    split at hj
    · split at hj
      · cases hj
        refine ⟨(h.unreleased i handle false hcall).1, fun hflag' => ?_⟩
        rw [hflag] at hflag'
        cases hflag'
      · cases hj
    · exact h.unreleased j handle' released' hj
  · obtain ⟨htarget, hne⟩ := hother d' j hd'
    obtain ⟨handle', hj, hdestroyed⟩ := h.target d' j htarget
    have hij : i ≠ j := by
      rintro rfl
      exact hne (h.once d' d i htarget hself)
    exact ⟨handle', by rw [List.getElem?_set_ne hij]; exact hj, hdestroyed⟩

end Handles

namespace EnvSystem

variable {s : EnvSystem} {method : RoutingMethod}

structure Inv (s : EnvSystem) : Prop where
  books : Books s.coordinator s.creates
  handles : Handles s.creates s.destroys

theorem Inv.start (method : RoutingMethod) : Inv (start method) where
  books := ⟨nofun, nofun, nofun⟩
  handles := ⟨nofun, nofun, nofun⟩

/-- One turn of the loop of `select_worker`. -/
theorem Inv.select (h : Inv s) {create attempt : Nat} {spec : SandboxSpec}
    (hcall : s.creates[create]? = some (.selecting spec attempt)) (choice : Nat) (expired : Bool) :
    Inv (s.select create choice expired spec attempt) := by
  have hraised : ∀ error, Inv (s.setCreate create (.raised error)) := fun error =>
    ⟨h.books.keep hcall rfl, h.handles.set hcall nofun nofun⟩
  unfold EnvSystem.select
  split
  · exact hraised _
  · rename_i workerId coordinator hselect
    exact ⟨h.books.select hcall rfl hselect rfl, h.handles.set hcall nofun nofun⟩
  · rename_i coordinator hselect
    rcases EnvWorkerCoordinator.trySelect_cases hselect with ⟨-, rfl⟩ | ⟨_, _, _, hsome, _⟩
    · split
      · exact hraised _
      · exact h
    · cases hsome

theorem Inv.exec (h : Inv s) {a : Action} (hallowed : s.Allowed a) : Inv (s.exec a) := by
  cases a with
  | registerWorker workerId cpuSlots gpuSlots =>
      exact ⟨h.books.registerWorker hallowed cpuSlots gpuSlots, h.handles⟩
  | createSandbox spec => exact ⟨h.books.append rfl, h.handles.append nofun⟩
  | select create choice expired =>
      show Inv (match s.creates[create]? with | some (.selecting spec attempt) => _ | _ => s)
      split
      · rename_i spec attempt hcall
        exact h.select hcall choice expired
      · exact h
  | created create answer =>
      clear hallowed
      show Inv (match s.creates[create]?, answer with
        | some (.creating spec _ workerId), some sandboxId => _
        | some (.creating spec attempt workerId), none => _
        | _, _ => s)
      split
      · rename_i hcall
        refine ⟨h.books.keep hcall rfl, h.handles.set hcall nofun fun handle released heq => ?_⟩
        cases heq
        exact ⟨rfl, rfl⟩
      · rename_i hcall
        exact ⟨h.books.keep hcall rfl, h.handles.set hcall nofun nofun⟩
      · exact h
  | releaseFailed create =>
      show Inv (match s.creates[create]? with | some (.failed spec attempt workerId) => _ | _ => s)
      split
      · rename_i spec attempt workerId hcall
        have hnone : (afterFailure spec attempt).placement = none := by
          unfold afterFailure
          split <;> rfl
        refine ⟨h.books.release hcall rfl hnone,
          h.handles.set hcall nofun fun handle released heq => ?_⟩
        unfold afterFailure at heq
        split at heq <;> cases heq
      · exact h
  | destroy create =>
      show Inv (match s.creates[create]? with | some (.returned handle released) => _ | _ => s)
      split
      · rename_i handle released hcall
        split
        · exact h
        · rename_i hflag
          refine ⟨h.books.keep hcall ?_, h.handles.destroy hcall (eq_false_of_ne_true hflag)⟩
          cases released <;> rfl
      · exact h
  | destroyed destroy workerRaised =>
      show Inv (match s.destroys[destroy]? with | some (.destroying create) => _ | _ => s)
      split
      · rename_i create hd
        exact ⟨h.books, h.handles.destroyed hd workerRaised⟩
      · exact h
  | releaseDestroyed destroy =>
      show Inv (match s.destroys[destroy]? with
        | some (.releasing create workerRaised) => _ | _ => s)
      split
      · rename_i create workerRaised hd
        obtain ⟨handle, hcall, hflag⟩ := h.handles.target destroy create (by
          unfold Targets
          rw [hd]
          rfl)
        have hcoordinated := (h.handles.unreleased create handle false hcall).1
        unfold releaseHandle
        rw [hcall]
        dsimp only
        rw [if_pos hcoordinated]
        exact ⟨h.books.release hcall rfl rfl, h.handles.release hd hcall hflag⟩
      · exact h

end EnvSystem

end Psrl
