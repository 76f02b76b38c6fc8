import Psrl.Dispatch.Throttle

/-!
# Psrl.Dispatch.Groups

**Collecting the children of a group** (`workers/agent_loop/manager.py`, the first loop of
`occupy_requests` and `notify_group_failed`; `utils/transferqueue_utils.py`). A finished child
waits in `rollout_request_tracker` until `alg_rollout_n` children of its prompt are there; then the
tracker entry is popped and the group is handed to the PSManager. When a group fails its entry is
purged, and children that finish later are dropped.

Whatever batches arrive and whatever groups fail, a child is in one job, waits, or has its payload
cleared (`Kept`). The record of failed groups is bounded: a group that was evicted from it collects
again, so order and completeness are stated for groups that never failed.

Validation and training share the loop. Its remote calls may raise (`GroupEnv`), and the call then
raises. The group filter (`group_post_process_fn`) is not modelled.
-/

namespace Psrl

open Py

/-- A key of the TransferQueue: `f"{uid}"`, or `f"{uid}_{trajectory}"`. -/
structure PayloadKey where
  uid : Nat
  trajectory : Option Nat
  deriving Repr, DecidableEq

/-- `request_payload_keys`, for `n_trajectory ≥ 1`. -/
def requestPayloadKeys (requestId nTrajectory : Nat) : List PayloadKey :=
  if nTrajectory = 1 then [⟨requestId, none⟩]
  else (List.range nTrajectory).map fun t => ⟨requestId, some t⟩

/-- What a worker is told about the payload of a finished child. -/
inductive PayloadState
  | pendingGroup
  | occupied
  | dropped
  deriving Repr, DecidableEq

structure GroupConfig where
  isValidate : Bool
  rolloutN : Nat
  algRolloutN : Nat
  alg_pos : 0 < algRolloutN
  alg_le : algRolloutN ≤ rolloutN

/-- A finished child of a group, with the number of its trajectories. -/
structure Arrival where
  promptId : Nat
  requestIdx : Nat
  nTrajectory : Nat
  deriving Repr, DecidableEq

/-- How the remote calls answer that the manager waits for. -/
structure GroupEnv where
  asyncClearPayload : List PayloadKey → Except PyError Unit
  updateRequestNTrajectory : Nat → Nat → Except PyError Unit
  abortRequests : List Nat → Except PyError Unit

/-- No remote call raises. -/
def GroupEnv.Answers (env : GroupEnv) : Prop :=
  (∀ keys, env.asyncClearPayload keys = .ok ()) ∧
    (∀ requestId n, env.updateRequestNTrajectory requestId n = .ok ()) ∧
    ∀ requestIds, env.abortRequests requestIds = .ok ()

namespace Arrival

def requestId (cfg : GroupConfig) (a : Arrival) : Nat := a.promptId * cfg.rolloutN + a.requestIdx

def keys (cfg : GroupConfig) (a : Arrival) : List PayloadKey :=
  requestPayloadKeys (a.requestId cfg) a.nTrajectory

end Arrival

/-- A call of `occupy_rollout_instance_request`, with the children it names. -/
structure OccupyJob where
  promptId : Nat
  children : List Arrival
  deriving Repr, DecidableEq

/-- The local variables of `occupy_requests` next to the tracker. A batch names each request
once, so the dispositions are kept by request instead of by position. -/
structure OccupyLoop where
  rolloutRequestTracker : Dict Nat (List Arrival)
  occupyJobs : List OccupyJob
  dispositions : Nat → PayloadState
  droppedPayloadKeys : List PayloadKey

namespace OccupyLoop

variable (cfg : GroupConfig) (env : GroupEnv)

def start (tracker : Dict Nat (List Arrival)) : OccupyLoop where
  rolloutRequestTracker := tracker
  occupyJobs := []
  dispositions _ := .pendingGroup
  droppedPayloadKeys := []

/-- `for request_id in ...: dispositions[request_positions[request_id]] = state`. -/
def mark (dispositions : Nat → PayloadState) (requestIds : List Nat) (state : PayloadState) :
    Nat → PayloadState :=
  fun requestId => if requestId ∈ requestIds then state else dispositions requestId

@[simp] theorem mark_nil (dispositions : Nat → PayloadState) (state : PayloadState) :
    mark dispositions [] state = dispositions :=
  funext fun _ => if_neg List.not_mem_nil

theorem mark_mark (dispositions : Nat → PayloadState) (l l' : List Nat) (state : PayloadState) :
    mark (mark dispositions l state) l' state = mark dispositions (l ++ l') state := by
  funext requestId
  simp only [mark, List.mem_append]
  by_cases hl : requestId ∈ l <;> by_cases hl' : requestId ∈ l' <;> simp [hl, hl']

/-- The children that are still running when their group is complete. -/
def abortChildren : List Nat → Except PyError Unit
  | [] => .ok ()
  | abortChildIds => do
      pyAssert (cfg.isValidate = false) "Abort child requests should not happen in validation."
      env.abortRequests abortChildIds

/-- A group whose tracker entry has reached `alg_rollout_n` children. -/
def completeGroup (s : OccupyLoop) (promptId : Nat)
    (entryInfos : List Arrival) : Except PyError OccupyLoop := do
  let missing := (List.range cfg.rolloutN).filter (· ∉ entryInfos.map Arrival.requestIdx)
  abortChildren cfg env (missing.map (promptId * cfg.rolloutN + ·))
  let extra := entryInfos.drop cfg.algRolloutN
  return {
    rolloutRequestTracker := s.rolloutRequestTracker.erase promptId
    occupyJobs := s.occupyJobs ++ [⟨promptId, entryInfos.take cfg.algRolloutN⟩]
    dispositions := mark s.dispositions (extra.map (Arrival.requestId cfg)) .dropped
    droppedPayloadKeys := s.droppedPayloadKeys ++ extra.flatMap (Arrival.keys cfg) }

/-- `if n_trajectory > 1: await ...update_request_n_trajectory.remote(...)`. -/
def updateNTrajectory (a : Arrival) : Except PyError Unit :=
  if 1 < a.nTrajectory then env.updateRequestNTrajectory (a.requestId cfg) a.nTrajectory else .ok ()

/-- One iteration: a finished child. -/
def collectChild (failed : Nat → Bool) (s : OccupyLoop) (a : Arrival) : Except PyError OccupyLoop :=
  if failed a.promptId then do
    -- a late arrival from a failed group
    env.asyncClearPayload (a.keys cfg)
    return { s with
      dispositions := mark s.dispositions [a.requestId cfg] .dropped
      droppedPayloadKeys := s.droppedPayloadKeys ++ a.keys cfg }
  else do
    updateNTrajectory cfg env a
    if 1 < cfg.rolloutN then
      let entryInfos := (s.rolloutRequestTracker.get? a.promptId).getD [] ++ [a]
      if cfg.algRolloutN ≤ entryInfos.length then s.completeGroup cfg env a.promptId entryInfos
      else
        return { s with rolloutRequestTracker := s.rolloutRequestTracker.set a.promptId entryInfos }
    else
      -- without group sampling every child is a group
      return { s with occupyJobs := s.occupyJobs ++ [⟨a.promptId, [a]⟩] }

/-- The first loop of `occupy_requests`. -/
def collect (failed : Nat → Bool)
    (tracker : Dict Nat (List Arrival)) (batch : List Arrival) : Except PyError OccupyLoop :=
  batch.foldlM (collectChild cfg env failed) (start tracker)

section Answers

variable {cfg : GroupConfig} {env : GroupEnv}

theorem abortChildren_ok (henv : env.Answers) (htrain : cfg.isValidate = false)
    (abortChildIds : List Nat) : abortChildren cfg env abortChildIds = .ok () := by
  cases abortChildIds with
  | nil => rfl
  | cons id ids => simp [abortChildren, htrain, henv.2.2]

/-- In training nothing but a remote call raises. -/
theorem collect_ok (henv : env.Answers) (htrain : cfg.isValidate = false) (failed : Nat → Bool)
    (tracker : Dict Nat (List Arrival)) (batch : List Arrival) :
    ∃ s, collect cfg env failed tracker batch = .ok s := by
  have hchild : ∀ (s : OccupyLoop) (a : Arrival),
      ∃ s', s.collectChild cfg env failed a = .ok s' := by
    intro s a
    have hupdate : updateNTrajectory cfg env a = .ok () := by
      unfold updateNTrajectory
      split
      · exact henv.2.1 ..
      · rfl
    simp only [collectChild, completeGroup, henv.1, hupdate, abortChildren_ok henv htrain, ok_bind,
      pure_eq_ok]
    split
    · exact ⟨_, rfl⟩
    · split
      · split <;> exact ⟨_, rfl⟩
      · exact ⟨_, rfl⟩
  obtain ⟨s, hs, -⟩ := foldlM_ok (P := fun _ => True) trivial fun s a _ _ =>
    (hchild s a).imp fun _ h => ⟨h, trivial⟩
  exact ⟨s, hs⟩

end Answers

end OccupyLoop

/-! ### What happens to a child -/

/-- The children of a group among some children. -/
def arrivalsOf (arrived : List Arrival) (promptId : Nat) : List Arrival :=
  arrived.filter fun a => a.promptId = promptId

@[simp] theorem arrivalsOf_append (l l' : List Arrival) (promptId : Nat) :
    arrivalsOf (l ++ l') promptId = arrivalsOf l promptId ++ arrivalsOf l' promptId :=
  List.filter_append ..

@[simp] theorem arrivalsOf_self (a : Arrival) : arrivalsOf [a] a.promptId = [a] := by
  simp [arrivalsOf]

theorem arrivalsOf_of_ne {a : Arrival} {promptId : Nat} (hne : promptId ≠ a.promptId) :
    arrivalsOf [a] promptId = [] := by
  simp [arrivalsOf, Ne.symm hne]

/-- The children of a group that the jobs have taken, then those that wait. -/
def heldOf (tracker : Dict Nat (List Arrival)) (jobs : List OccupyJob) (promptId : Nat) :
    List Arrival :=
  (jobs.filter fun job => job.promptId = promptId).flatMap OccupyJob.children ++
    (tracker.get? promptId).getD []

/-- When `arrived` have arrived, the groups in `failures` were reported as failed, those in `failed`
are on record, and the payloads of `cleared` were cleared. -/
structure Kept (cfg : GroupConfig) (failed : Nat → Bool) (failures : List Nat)
    (arrived cleared : List Arrival) (tracker : Dict Nat (List Arrival)) (jobs : List OccupyJob) :
    Prop where
  purged : ∀ p, failed p = true → tracker.get? p = none
  short : ∀ p, ((tracker.get? p).getD []).length < cfg.algRolloutN
  sized : ∀ job ∈ jobs, job.children.length = cfg.algRolloutN
  once : ∀ p, (arrivalsOf arrived p).Perm (heldOf tracker jobs p ++ arrivalsOf cleared p)
  inOrder : ∀ p ∉ failures, heldOf tracker jobs p = arrivalsOf arrived p

namespace Kept

variable {cfg : GroupConfig} {failed : Nat → Bool} {failures : List Nat}
  {arrived cleared : List Arrival} {tracker tracker' : Dict Nat (List Arrival)}
  {jobs jobs' : List OccupyJob} (h : Kept cfg failed failures arrived cleared tracker jobs)

include h

theorem sized_concat {job : OccupyJob} (hjob : job.children.length = cfg.algRolloutN) :
    ∀ job' ∈ jobs ++ [job], job'.children.length = cfg.algRolloutN := fun job' hmem =>
  (List.mem_append.mp hmem).elim (h.sized job') fun hlast => List.mem_singleton.mp hlast ▸ hjob

/-- A child of a group that is not on record joins its group. -/
theorem child {a : Arrival} (hopen : failed a.promptId = false)
    (hothers : ∀ p, p ≠ a.promptId → tracker'.get? p = tracker.get? p ∧
      heldOf tracker' jobs' p = heldOf tracker jobs p)
    (hshort : ((tracker'.get? a.promptId).getD []).length < cfg.algRolloutN)
    (hsized : ∀ job ∈ jobs', job.children.length = cfg.algRolloutN)
    (hheld : heldOf tracker' jobs' a.promptId = heldOf tracker jobs a.promptId ++ [a]) :
    Kept cfg failed failures (arrived ++ [a]) cleared tracker' jobs' := by
  refine ⟨fun p hp => ?_, fun p => ?_, hsized, fun p => ?_, fun p hp => ?_⟩
  · have hne : p ≠ a.promptId := by
      rintro rfl
      simp [hopen] at hp
    rw [(hothers p hne).1]
    exact h.purged p hp
  · by_cases hp : p = a.promptId
    · exact hp ▸ hshort
    · rw [(hothers p hp).1]
      exact h.short p
  · by_cases hp : p = a.promptId
    · subst hp
      rw [arrivalsOf_append, arrivalsOf_self, hheld, List.append_assoc]
      refine ((h.once a.promptId).append_right [a]).trans ?_
      rw [List.append_assoc]
      exact List.perm_append_comm.append_left _
    · rw [arrivalsOf_append, arrivalsOf_of_ne hp, List.append_nil, (hothers p hp).2]
      exact h.once p
  · by_cases hne : p = a.promptId
    · subst hne
      rw [hheld, h.inOrder _ hp, arrivalsOf_append, arrivalsOf_self]
    · rw [(hothers p hne).2, h.inOrder p hp, arrivalsOf_append, arrivalsOf_of_ne hne,
        List.append_nil]

/-- A child of a group on record is dropped. -/
theorem late {a : Arrival} (hfailure : a.promptId ∈ failures) :
    Kept cfg failed failures (arrived ++ [a]) (cleared ++ [a]) tracker jobs := by
  refine ⟨h.purged, h.short, h.sized, fun p => ?_, fun p hp => ?_⟩
  · rw [arrivalsOf_append, arrivalsOf_append, ← List.append_assoc]
    exact (h.once p).append_right _
  · have hne : p ≠ a.promptId := by
      rintro rfl
      exact hp hfailure
    rw [h.inOrder p hp, arrivalsOf_append, arrivalsOf_of_ne hne, List.append_nil]

/-- A group fails, and the children that wait are purged. -/
theorem purge {failed' : Nat → Bool} (promptId : Nat)
    (hfailed : ∀ p, failed' p = true → p = promptId ∨ failed p = true) :
    Kept cfg failed' (failures ++ [promptId]) arrived
      (cleared ++ (tracker.get? promptId).getD []) (tracker.erase promptId) jobs := by
  -- all that waits for a group are its own children
  have hwaits : ∀ p, arrivalsOf ((tracker.get? promptId).getD []) p =
      if p = promptId then (tracker.get? promptId).getD [] else [] := by
    have howner : ∀ a ∈ (tracker.get? promptId).getD [], a.promptId = promptId := by
      intro a ha
      have hmem : a ∈ arrivalsOf arrived promptId :=
        (h.once promptId).mem_iff.mpr (by simp [heldOf, ha])
      simpa using (List.mem_filter.mp hmem).2
    intro p
    split
    · rename_i hp
      exact List.filter_eq_self.mpr fun a ha => by simp [howner a ha, hp]
    · rename_i hp
      exact List.filter_eq_nil_iff.mpr fun a ha => by simp [howner a ha, Ne.symm hp]
  refine ⟨fun p hp => ?_, fun p => ?_, h.sized, fun p => ?_, fun p hp => ?_⟩
  · rw [Dict.get?_erase]
    split
    · rfl
    · rename_i hne
      exact h.purged p ((hfailed p hp).resolve_left hne)
  · rw [Dict.get?_erase]
    split
    · exact cfg.alg_pos
    · exact h.short p
  · have honce := h.once p
    rw [arrivalsOf_append, hwaits, heldOf, Dict.get?_erase]
    split
    · rename_i hp
      subst hp
      refine honce.trans ?_
      rw [heldOf, Option.getD_none, List.append_nil, List.append_assoc]
      exact List.perm_append_comm.append_left _
    · rw [List.append_nil]
      exact honce
  · obtain ⟨hp, hne⟩ : p ∉ failures ∧ p ≠ promptId := by simpa using hp
    rw [heldOf, Dict.get?_erase, if_neg hne]
    exact h.inOrder p hp

end Kept

/-! ### One batch -/

/-- The children of a batch whose group is on record. -/
def lateOf (failed : Nat → Bool) (batch : List Arrival) : List Arrival :=
  batch.filter fun a => failed a.promptId

theorem lateOf_concat (failed : Nat → Bool) (batch : List Arrival) (a : Arrival) :
    lateOf failed (batch ++ [a]) =
      lateOf failed batch ++ if failed a.promptId then [a] else [] := by
  simp [lateOf, List.filter_cons]

/-- The loop after the children of `batch`. Only children of groups on record are dropped, since a
job takes all the children that wait. -/
structure Collecting (cfg : GroupConfig) (failed : Nat → Bool) (failures : List Nat)
    (arrived cleared : List Arrival) (jobs : List OccupyJob) (batch : List Arrival)
    (s : OccupyLoop) : Prop where
  kept : Kept cfg failed failures (arrived ++ batch) (cleared ++ lateOf failed batch)
    s.rolloutRequestTracker (jobs ++ s.occupyJobs)
  dropped : s.droppedPayloadKeys = (lateOf failed batch).flatMap (Arrival.keys cfg)
  answers : s.dispositions = OccupyLoop.mark (fun _ => .pendingGroup)
    ((lateOf failed batch).map (Arrival.requestId cfg)) .dropped

namespace Collecting

variable {cfg : GroupConfig} {env : GroupEnv} {failed : Nat → Bool} {failures : List Nat}
  {arrived cleared : List Arrival} {jobs : List OccupyJob}

/-- A child that is not late joins its group, or completes it. -/
theorem join {batch : List Arrival} {s s' : OccupyLoop} {a : Arrival}
    (h : Collecting cfg failed failures arrived cleared jobs batch s)
    (hopen : failed a.promptId = false) (hdropped : s'.droppedPayloadKeys = s.droppedPayloadKeys)
    (hanswers : s'.dispositions = s.dispositions)
    (hkept : Kept cfg failed failures (arrived ++ batch ++ [a]) (cleared ++ lateOf failed batch)
      s'.rolloutRequestTracker (jobs ++ s'.occupyJobs)) :
    Collecting cfg failed failures arrived cleared jobs (batch ++ [a]) s' := by
  have hlate : lateOf failed (batch ++ [a]) = lateOf failed batch := by
    simp [lateOf_concat, hopen]
  refine ⟨?_, ?_, ?_⟩ <;> rw [hlate]
  · rw [← List.append_assoc]
    exact hkept
  · exact hdropped.trans h.dropped
  · exact hanswers.trans h.answers

/-- One iteration of the loop. -/
theorem collectChild {batch : List Arrival} {s s' : OccupyLoop}
    (h : Collecting cfg failed failures arrived cleared jobs batch s)
    (hfailures : ∀ p, failed p = true → p ∈ failures) {a : Arrival}
    (hcollect : s.collectChild cfg env failed a = .ok s') :
    Collecting cfg failed failures arrived cleared jobs (batch ++ [a]) s' := by
  have hkept := h.kept
  have hlength := hkept.short a.promptId
  unfold OccupyLoop.collectChild at hcollect
  split at hcollect
  · rename_i hfailed
    obtain ⟨_, -, ⟨⟩⟩ := bind_eq_ok.mp hcollect
    refine ⟨?_, ?_, ?_⟩ <;> rw [lateOf_concat, if_pos hfailed]
    · rw [← List.append_assoc, ← List.append_assoc]
      exact hkept.late (hfailures _ hfailed)
    · simp [h.dropped]
    · simp [h.answers, OccupyLoop.mark_mark]
  · rename_i hopen
    have hopen : failed a.promptId = false := by simpa using hopen
    obtain ⟨_, -, hcollect⟩ := bind_eq_ok.mp hcollect
    split at hcollect
    · dsimp only at hcollect
      split at hcollect
      · -- the group is complete: all that waits goes into the job
        rename_i hfull
        obtain ⟨_, -, ⟨⟩⟩ := bind_eq_ok.mp hcollect
        have htake : ((s.rolloutRequestTracker.get? a.promptId).getD [] ++ [a]).length =
            cfg.algRolloutN := by
          rw [List.length_append, List.length_singleton] at hfull ⊢
          omega
        have hextra := List.drop_of_length_le htake.le
        refine h.join hopen (by simp [hextra]) (by simp [hextra]) ?_
        rw [List.take_of_length_le htake.le, ← List.append_assoc]
        refine hkept.child hopen (fun p hp => ?_) ?_ (hkept.sized_concat htake) ?_
        · simp [heldOf, Dict.get?_erase, hp, Ne.symm hp]
        · simpa [Dict.get?_erase] using cfg.alg_pos
        · simp [heldOf]
      · rename_i hwaits
        cases hcollect
        refine h.join hopen rfl rfl (hkept.child hopen (fun p hp => ?_) ?_ hkept.sized ?_)
        · simp [heldOf, Dict.get?_set_of_ne, hp]
        · rw [Dict.get?_set_self]
          exact Nat.lt_of_not_le hwaits
        · simp [heldOf, Dict.get?_set_self]
    · -- groups of one: nothing waits
      have halg : cfg.algRolloutN = 1 := by
        have := cfg.alg_pos
        have := cfg.alg_le
        omega
      have hnone : (s.rolloutRequestTracker.get? a.promptId).getD [] = [] :=
        List.eq_nil_of_length_eq_zero (by omega)
      cases hcollect
      refine h.join hopen rfl rfl ?_
      rw [← List.append_assoc]
      refine hkept.child hopen (fun p hp => ⟨rfl, ?_⟩) hlength (hkept.sized_concat halg.symm) ?_
      · simp [heldOf, Ne.symm hp]
      · simp [heldOf, hnone]

/-- A whole batch, by induction on what is left of it. -/
theorem foldlM_collectChild (hfailures : ∀ p, failed p = true → p ∈ failures)
    (rest : List Arrival) : ∀ (batch : List Arrival) {s s' : OccupyLoop},
    Collecting cfg failed failures arrived cleared jobs batch s →
    rest.foldlM (OccupyLoop.collectChild cfg env failed) s = .ok s' →
    Collecting cfg failed failures arrived cleared jobs (batch ++ rest) s' := by
  induction rest with
  | nil =>
      rintro batch s _ h ⟨⟩
      rwa [List.append_nil]
  | cons a rest ih =>
      intro batch s s' h hfold
      rw [List.foldlM_cons] at hfold
      obtain ⟨_, hchild, hrest⟩ := bind_eq_ok.mp hfold
      rw [List.append_cons]
      exact ih _ (h.collectChild hfailures hchild) hrest

theorem collect {tracker : Dict Nat (List Arrival)} {batch : List Arrival} {s : OccupyLoop}
    (h : Kept cfg failed failures arrived cleared tracker jobs)
    (hfailures : ∀ p, failed p = true → p ∈ failures)
    (hcollect : OccupyLoop.collect cfg env failed tracker batch = .ok s) :
    Collecting cfg failed failures arrived cleared jobs batch s :=
  foldlM_collectChild hfailures batch []
    ⟨by simpa [lateOf, OccupyLoop.start] using h, rfl, (OccupyLoop.mark_nil _ _).symm⟩ hcollect

end Collecting

/-! ### All calls -/

theorem BoundedIdSet.eq_or_mem_of_mem_add {set : BoundedIdSet} {item id : Nat}
    (h : id ∈ set.add item) : id = item ∨ id ∈ set := by
  have hids : ∀ l : List Nat, id ∈ l → (∀ x ∈ l, x ∈ set.ids ++ [item]) → id = item ∨ id ∈ set :=
    fun l hl hsub => (List.mem_append.mp (hsub id hl)).symm.imp_left List.mem_singleton.mp
  unfold add at h
  split at h
  · exact .inr h
  · split at h
    · exact hids _ h fun _ hx => hx
    · exact hids _ h fun _ hx => List.mem_of_mem_tail hx

/-- The collecting part of the manager, with what its calls have got and done so far. -/
structure GroupRun where
  failedGroupIds : BoundedIdSet
  rolloutRequestTracker : Dict Nat (List Arrival)
  /-- the children that have finished -/
  arrived : List Arrival
  /-- the groups that were reported as failed -/
  failures : List Nat
  occupyJobs : List OccupyJob
  clearedPayloadKeys : List PayloadKey

namespace GroupRun

def start (capacity : Nat) : GroupRun := ⟨.empty capacity, .empty, [], [], [], []⟩

inductive Action
  | occupyRequests (env : GroupEnv) (batch : List Arrival)
  | notifyGroupFailed (env : GroupEnv) (parentId failedUid : Nat)

/-- A late arrival is recognised by the record at the time of the call. -/
def onRecord (s : GroupRun) (promptId : Nat) : Bool := decide (promptId ∈ s.failedGroupIds)

/-- The other children of a failed group. -/
def siblingUids (cfg : GroupConfig) (parentId failedUid : Nat) : List Nat :=
  ((List.range cfg.rolloutN).map (parentId * cfg.rolloutN + ·)).filter (· ≠ failedUid)

/-- One call under the manager lock. -/
def exec (cfg : GroupConfig) (s : GroupRun) : Action → Except PyError GroupRun
  | .occupyRequests env batch => do
      let loop ← OccupyLoop.collect cfg env s.onRecord s.rolloutRequestTracker batch
      return { s with
        rolloutRequestTracker := loop.rolloutRequestTracker
        arrived := s.arrived ++ batch
        occupyJobs := s.occupyJobs ++ loop.occupyJobs
        clearedPayloadKeys := s.clearedPayloadKeys ++ loop.droppedPayloadKeys }
  | .notifyGroupFailed env parentId failedUid =>
      -- a duplicate failure is skipped
      if parentId ∈ s.failedGroupIds then .ok s
      else do
        let siblings := siblingUids cfg parentId failedUid
        (if siblings = [] then .ok () else env.abortRequests siblings)
        let entries := (s.rolloutRequestTracker.get? parentId).getD []
        let keys := entries.flatMap (Arrival.keys cfg)
        (if entries = [] then .ok () else env.asyncClearPayload keys)
        return { s with
          failedGroupIds := s.failedGroupIds.add parentId
          rolloutRequestTracker := s.rolloutRequestTracker.erase parentId
          failures := s.failures ++ [parentId]
          clearedPayloadKeys := s.clearedPayloadKeys ++ keys }

structure Inv (cfg : GroupConfig) (s : GroupRun) : Prop where
  reported : ∀ p, s.onRecord p = true → p ∈ s.failures
  kept : ∃ cleared, s.clearedPayloadKeys = cleared.flatMap (Arrival.keys cfg) ∧
    Kept cfg s.onRecord s.failures s.arrived cleared s.rolloutRequestTracker s.occupyJobs

variable {cfg : GroupConfig} {s s' : GroupRun} {capacity : Nat}

theorem Inv.start : Inv cfg (start capacity) where
  reported p hp := by
    have hmem : p ∈ BoundedIdSet.empty capacity := of_decide_eq_true hp
    cases hmem
  kept := ⟨[], rfl, fun _ _ => rfl, fun _ => cfg.alg_pos, nofun, fun _ => .refl _, fun _ _ => rfl⟩

theorem Inv.exec (h : Inv cfg s) {a : Action} (hexec : s.exec cfg a = .ok s') : Inv cfg s' := by
  obtain ⟨cleared, hkeys, hkept⟩ := h.kept
  cases a with
  | occupyRequests env batch =>
      obtain ⟨loop, hcollect, ⟨⟩⟩ := bind_eq_ok.mp hexec
      have hbatch := Collecting.collect hkept h.reported hcollect
      refine ⟨h.reported, _, ?_, hbatch.kept⟩
      rw [List.flatMap_append, ← hkeys, ← hbatch.dropped]
  | notifyGroupFailed env parentId failedUid =>
      simp only [GroupRun.exec] at hexec
      split at hexec
      · cases hexec
        exact h
      · obtain ⟨_, -, hexec⟩ := bind_eq_ok.mp hexec
        obtain ⟨_, -, ⟨⟩⟩ := bind_eq_ok.mp hexec
        have hadded : ∀ p, decide (p ∈ s.failedGroupIds.add parentId) = true →
            p = parentId ∨ s.onRecord p = true := fun p hp =>
          (BoundedIdSet.eq_or_mem_of_mem_add (of_decide_eq_true hp)).imp_right decide_eq_true
        refine ⟨fun p hp => ?_, _, ?_, hkept.purge parentId hadded⟩
        · rw [List.mem_append, List.mem_singleton]
          exact ((hadded p hp).imp_right (h.reported p)).symm
        · rw [List.flatMap_append, ← hkeys]

/-- **No child is lost or used twice.** After any batches and failures whose calls return, with any
capacity of the record: every child that has finished is in one job, waits for its group, or had its
payload cleared; a job has `alg_rollout_n` children, and fewer wait. Of a group that never failed
nothing is cleared, and its jobs take its children in the order of their arrival. A group on record
has no child waiting, and the next batch, if its call returns, drops its children and no others. In
training a call returns whenever its remote calls do. -/
theorem no_child_lost_or_repeated
    (hreach : Run.Reachable (GroupRun.exec cfg) (fun _ _ => True) (start capacity) s) :
    (∃ cleared, s.clearedPayloadKeys = cleared.flatMap (Arrival.keys cfg) ∧
      ∀ p, (arrivalsOf s.arrived p).Perm
        (heldOf s.rolloutRequestTracker s.occupyJobs p ++ arrivalsOf cleared p)) ∧
    (∀ job ∈ s.occupyJobs, job.children.length = cfg.algRolloutN) ∧
    (∀ p, ((s.rolloutRequestTracker.get? p).getD []).length < cfg.algRolloutN) ∧
    (∀ p ∉ s.failures, heldOf s.rolloutRequestTracker s.occupyJobs p = arrivalsOf s.arrived p) ∧
    (∀ p ∈ s.failedGroupIds, s.rolloutRequestTracker.get? p = none) ∧
    (∀ env batch loop,
      OccupyLoop.collect cfg env s.onRecord s.rolloutRequestTracker batch = .ok loop →
      ∀ requestId, loop.dispositions requestId =
        if ∃ a ∈ batch, a.promptId ∈ s.failedGroupIds ∧ a.requestId cfg = requestId then .dropped
        else .pendingGroup) ∧
    (cfg.isValidate = false → ∀ env : GroupEnv, env.Answers → ∀ batch,
      ∃ s', s.exec cfg (.occupyRequests env batch) = .ok s') := by
  have hinv : Inv cfg s := hreach.invariant Inv.start fun _ _ _ h _ hexec => h.exec hexec
  obtain ⟨cleared, hkeys, hkept⟩ := hinv.kept
  refine ⟨⟨cleared, hkeys, hkept.once⟩, hkept.sized, hkept.short, hkept.inOrder,
    fun p hp => hkept.purged p (decide_eq_true hp), fun env batch loop hcollect requestId => ?_,
    fun htrain env henv batch => ?_⟩
  · have hmem : requestId ∈ (lateOf s.onRecord batch).map (Arrival.requestId cfg) ↔
        ∃ a ∈ batch, a.promptId ∈ s.failedGroupIds ∧ a.requestId cfg = requestId := by
      simp [lateOf, onRecord, and_assoc]
    rw [(Collecting.collect hkept hinv.reported hcollect).answers, OccupyLoop.mark]
    simp only [hmem]
  · obtain ⟨loop, hcollect⟩ := OccupyLoop.collect_ok henv htrain s.onRecord
      s.rolloutRequestTracker batch
    exact ⟨_, by rw [GroupRun.exec, hcollect]; rfl⟩

/-- Groups of two: prompt 0 is complete with its third child waiting, prompt 1 fails. -/
theorem no_child_lost_or_repeated_two_groups : ∃ s : GroupRun,
    s.occupyJobs = [⟨0, [⟨0, 2, 1⟩, ⟨0, 0, 1⟩]⟩] ∧ s.failures = [1] ∧
    heldOf s.rolloutRequestTracker s.occupyJobs 0 = arrivalsOf s.arrived 0 ∧
    s.rolloutRequestTracker.get? 1 = none := by
  let cfg : GroupConfig := ⟨false, 3, 2, by decide, by decide⟩
  let env : GroupEnv := ⟨fun _ => .ok (), fun _ _ => .ok (), fun _ => .ok ()⟩
  obtain ⟨s, hreach, hs⟩ : ∃ s : GroupRun,
      Run.Reachable (GroupRun.exec cfg) (fun _ _ => True) (start 4) s ∧
      decide (s.occupyJobs = [⟨0, [⟨0, 2, 1⟩, ⟨0, 0, 1⟩]⟩] ∧ s.failures = [1] ∧
        1 ∈ s.failedGroupIds) = true :=
    Run.exists_reachable_of_perform (l := [.occupyRequests env [⟨0, 2, 1⟩, ⟨1, 0, 1⟩, ⟨0, 0, 1⟩],
      .notifyGroupFailed env 1 3, .occupyRequests env [⟨1, 1, 2⟩, ⟨0, 1, 1⟩]]) (by decide +kernel)
  obtain ⟨hjobs, hfailures, hrecord⟩ := of_decide_eq_true hs
  obtain ⟨-, -, -, hheld, hpurged, -⟩ := no_child_lost_or_repeated hreach
  exact ⟨s, hjobs, hfailures, hheld 0 (by simp [hfailures]), hpurged 1 hrecord⟩

end GroupRun

end Psrl
