import Mathlib.Data.Finset.Image
import Psrl.Staleness.Entry

/-!
# Psrl.Manager.RequestStatus

The life of a single request (`RequestStatusTracker` in
`psrl/workers/ps/request_status_tracker.py`).

A tracked request has a status and a `RequestInfo`. Aborting does not stop a request: it
marks the id, and the next `update_request_status` (or an explicit check) that meets the
mark removes the request. Only a `COMPLETED` request, which nobody will update again, is
removed at once. `Sound` is what all operations keep: statuses and infos are recorded for
the same ids, and only such ids are marked. `Aborted` is the effect of aborting a set of
requests.

The payloads that a dropped request has in the transfer queue, and the clearing of them,
are not modelled.
-/

namespace Psrl

open Py

/-- `PSRL_RequestStatus`. -/
inductive RequestStatus
  | pending
  | running
  | rolloutRouting
  | rolloutDispatched
  | rolloutRunning
  | rolloutInterrupted
  | rolloutCompleted
  | rewardRunning
  | rewardCompleted
  | completed
  deriving Repr, DecidableEq

/-- The group sizes: requests of a prompt, requests the algorithm needs of them, requests of
a validation prompt. -/
structure TrackerConfig where
  rolloutN : Nat
  algRolloutN : Nat
  valRolloutN : Nat
  deriving Repr, DecidableEq

structure RequestStatusTracker extends TrackerConfig where
  requestIdToStatus : Dict Nat RequestStatus
  requestInfos : Dict Nat RequestInfo
  statusToRequestIds : RequestStatus → Finset Nat
  abortRequestIds : Finset Nat
  runningMinVersion : Int

/-- One request given to `add_request`. -/
structure NewRequest where
  requestId : Nat
  rolloutInstanceId : RolloutInstanceId := invalidRolloutInstanceId
  modelVersion : Int := -1
  status : RequestStatus := .pending
  isValidate : Bool := false
  deriving DecidableEq

/-- One request given to `update_request_status`. The list of statuses may be too short. -/
structure StatusUpdate where
  requestId : Nat
  status : Option RequestStatus
  modelVersion : Int := -1
  rolloutInstanceId : RolloutInstanceId := invalidRolloutInstanceId
  deriving DecidableEq

/-- The info of a request after an update: only given values are written. -/
def StatusUpdate.apply (update : StatusUpdate) (info : RequestInfo) : RequestInfo :=
  { info with
    rolloutInstanceId := if update.rolloutInstanceId ≠ invalidRolloutInstanceId then
      update.rolloutInstanceId else info.rolloutInstanceId
    modelVersion := if update.modelVersion ≠ -1 then update.modelVersion else info.modelVersion }

/-- The abort commands sent to the rollout coordinator and to the reward manager. -/
structure AbortCommands where
  rollout : Finset Nat
  reward : Finset Nat
  deriving DecidableEq

namespace RequestStatusTracker

variable (t : RequestStatusTracker)

/-- `__init__`. -/
def new (config : TrackerConfig) : RequestStatusTracker where
  toTrackerConfig := config
  requestIdToStatus := .empty
  requestInfos := .empty
  statusToRequestIds := fun _ => ∅
  abortRequestIds := ∅
  runningMinVersion := 0

/-- `req_id in self._request_id_to_status`. -/
def Tracks (requestId : Nat) : Prop :=
  (t.requestIdToStatus.get? requestId).isSome = true

instance (t : RequestStatusTracker) (requestId : Nat) : Decidable (t.Tracks requestId) :=
  inferInstanceAs (Decidable (_ = true))

/-! ### Adding and removing -/

/-- One request of `add_request`. -/
def addOne (req : NewRequest) : RequestStatusTracker :=
  let rolloutN := if req.isValidate then t.valRolloutN else t.rolloutN
  { t with
    requestInfos := t.requestInfos.set req.requestId
      { promptId := req.requestId / rolloutN
        requestIdx := req.requestId % rolloutN
        rolloutInstanceId := req.rolloutInstanceId
        modelVersion := req.modelVersion
        nTrajectory := 1
        isValidate := req.isValidate }
    requestIdToStatus := t.requestIdToStatus.set req.requestId req.status
    statusToRequestIds := Function.update t.statusToRequestIds req.status
      (insert req.requestId (t.statusToRequestIds req.status)) }

/-- `add_request`. -/
def addRequest (reqs : List NewRequest) : RequestStatusTracker :=
  reqs.foldl addOne t

/-- `self._status_to_request_ids[status].discard(req_id)` for the status of a request. -/
def discardStatus (requestId : Nat) : RequestStatus → Finset Nat :=
  match t.requestIdToStatus.get? requestId with
  | some status => Function.update t.statusToRequestIds status
      ((t.statusToRequestIds status).erase requestId)
  | none => t.statusToRequestIds

/-- One request of `remove_request`. -/
def removeOne (requestId : Nat) : RequestStatusTracker :=
  { t with
    statusToRequestIds := t.discardStatus requestId
    requestIdToStatus := t.requestIdToStatus.erase requestId
    requestInfos := t.requestInfos.erase requestId
    abortRequestIds := t.abortRequestIds.erase requestId }

/-- `remove_request`. -/
def removeRequest (requestIds : List Nat) : RequestStatusTracker :=
  requestIds.foldl removeOne t

/-- The assertions of `remove_train_ready_request` for one request. -/
def assertTrainReady (requestId : Nat) : Except PyError Unit := do
  pyAssert (t.Tracks requestId) s!"Request not found in status map. ID: {requestId}."
  pyAssert ((t.requestInfos.get? requestId).isSome = true)
    s!"Request not found in request info. ID: {requestId}."
  pyAssert (t.requestIdToStatus.get? requestId = some .completed)
    s!"Request is not complete. ID: {requestId}."
  pyAssert (requestId ∉ t.abortRequestIds)
    s!"Aborted request cannot be removed as train ready. ID: {requestId}."

/-- `remove_train_ready_request`. -/
def removeTrainReadyRequest (requestIds : List Nat) : Except PyError RequestStatusTracker := do
  requestIds.forM t.assertTrainReady
  .ok (t.removeRequest requestIds)

/-! ### Aborted requests -/

/-- `_check_aborted_request`. -/
def checkAbortedRequest (requestId : Nat) (remove : Bool) :
    Except PyError (Bool × RequestStatusTracker) :=
  if requestId ∈ t.abortRequestIds then
    .ok (true, if remove then t.removeOne requestId else t)
  else if ¬ t.Tracks requestId then do
    pyAssert (t.requestInfos.get? requestId = none)
      s!"Untracked request remains in request info. ID: {requestId}."
    .ok (true, t)
  else if t.requestInfos.get? requestId = none then do
    pyAssert (¬ t.Tracks requestId) s!"Request without info remains in status map. ID: {requestId}."
    .ok (true, t)
  else .ok (false, t)

/-- `check_aborted_requests` on a list. -/
def checkAbortedRequests (requestIds : List Nat) (remove : Bool) :
    Except PyError (List Bool × RequestStatusTracker) :=
  requestIds.foldlM (fun (state : List Bool × RequestStatusTracker) requestId => do
    let (aborted, t) ← state.2.checkAbortedRequest requestId remove
    .ok (state.1 ++ [aborted], t)) ([], t)

/-- The requests of `ids` that have a status, grouped by `classify_requests_in_status`. -/
def inStatus (ids : Finset Nat) (status : RequestStatus) : Finset Nat :=
  ids.filter fun id => t.requestIdToStatus.get? id = some status

/-- `_abort_requests`. Commands and payload keys are looked up in the infos of the requests. -/
def abortRequests (order : SetOrder Nat) (requestIds : Finset Nat) :
    Except PyError (AbortCommands × RequestStatusTracker) := do
  let filtered := requestIds.filter t.Tracks
  let t := { t with abortRequestIds := t.abortRequestIds ∪ filtered }
  let rollout := t.inStatus filtered .rolloutRunning
  let reward := t.inStatus filtered .rewardRunning
  let withPayload := t.inStatus filtered .rolloutCompleted ∪ reward ∪
    t.inStatus filtered .rewardCompleted
  if ∃ id ∈ rollout ∪ withPayload, t.requestInfos.get? id = none then
    .error (.keyError "Request ID not found in request infos.")
  else
    .ok (⟨rollout, reward⟩, t.removeRequest (order.toList (t.inStatus filtered .completed)))

/-- `get_requests_of_abort_version`. -/
def getRequestsOfAbortVersion (version : Int) :
    Except PyError (Finset Nat × RequestStatusTracker) := do
  pyAssert (0 ≤ version) "Version must be a non-negative integer."
  let ids := (t.requestInfos.items.filter fun (id, info) =>
    id ∉ t.abortRequestIds ∧ info.isValidate = false ∧ info.modelVersion = version).map Prod.fst
  .ok (ids.toFinset, { t with runningMinVersion := max t.runningMinVersion (version + 1) })

/-! ### Updating -/

/-- `_status_to_request_ids` after a request changed its status. -/
def moveStatus (requestId : Nat) (old new : RequestStatus) : RequestStatus → Finset Nat :=
  let sets := if old ≠ new then
      Function.update t.statusToRequestIds old ((t.statusToRequestIds old).erase requestId)
    else t.statusToRequestIds
  Function.update sets new (insert requestId (sets new))

/-- One iteration of `update_request_status`: `False` if the request was aborted or is stale. -/
def updateOne (isValidate : Bool) (update : StatusUpdate) :
    Coroutine RequestStatusTracker Bool := do
  if ← Coroutine.atomic fun t => t.checkAbortedRequest update.requestId true then
    return false
  let t ← get
  match t.requestInfos.get? update.requestId with
  | none => throw (.keyError s!"Request ID {update.requestId} not found in request info map.")
  | some info =>
      modify fun t => { t with
        requestInfos := t.requestInfos.set update.requestId (update.apply info) }
      if isValidate = false ∧ (update.apply info).modelVersion ≠ -1 ∧
          (update.apply info).modelVersion < t.runningMinVersion then
        return false
      match t.requestIdToStatus.get? update.requestId, update.status with
      | none, _ => throw (.keyError s!"Request ID {update.requestId} not found in status map.")
      | some _, none => throw (.indexError "list index out of range")
      | some old, some status =>
          modify fun t => { t with
            statusToRequestIds := t.moveStatus update.requestId old status
            requestIdToStatus := t.requestIdToStatus.set update.requestId status }
          return true

/-- The iterations of `update_request_status`. -/
def updateEach (isValidate : Bool) : List StatusUpdate →
    Coroutine RequestStatusTracker (List Bool)
  | [] => return []
  | update :: rest => do
      let success ← updateOne isValidate update
      let flags ← updateEach isValidate rest
      return success :: flags

/-- `update_request_status`, when it returns. -/
def updateRequestStatus (updates : List StatusUpdate)
    (isValidate : Bool) : Except PyError (List Bool × RequestStatusTracker) :=
  match Coroutine.perform t (updateEach isValidate updates) with
  | (.ok flags, t) => .ok (flags, t)
  | (.error e, _) => .error e

/-- `RequestStatusTracker.update_request_n_trajectory`. -/
def updateRequestNTrajectory (requestId nTrajectory : Nat) : Except PyError RequestStatusTracker :=
  if nTrajectory < 1 then
    .error (.valueError s!"n_trajectory must be positive, got {nTrajectory}.")
  else
    match t.requestInfos.get? requestId with
    | none => .error (.keyError s!"Request ID {requestId} not found in request infos.")
    | some info => .ok { t with
        requestInfos := t.requestInfos.set requestId { info with nTrajectory := nTrajectory } }

/-! ### Soundness -/

/-- Statuses and infos are recorded for the same requests, and only such requests are
marked. -/
structure Sound (t : RequestStatusTracker) : Prop where
  keys : ∀ id, t.requestInfos.get? id = none ↔ t.requestIdToStatus.get? id = none
  marked : ∀ id ∈ t.abortRequestIds, t.Tracks id

variable {t t' : RequestStatusTracker} {id : Nat}

theorem tracks_iff : t.Tracks id ↔ t.requestIdToStatus.get? id ≠ none := by
  unfold Tracks
  rw [Option.isSome_iff_ne_none]

theorem Sound.info_of_tracks (h : t.Sound) (ht : t.Tracks id) :
    ∃ info, t.requestInfos.get? id = some info := by
  rw [← Option.ne_none_iff_exists']
  exact fun hnone => tracks_iff.mp ht ((h.keys id).mp hnone)

theorem Sound.tracks_of_info (h : t.Sound) {info : RequestInfo}
    (hinfo : t.requestInfos.get? id = some info) : t.Tracks id := by
  rw [tracks_iff]
  intro hnone
  rw [(h.keys id).mpr hnone] at hinfo
  cases hinfo

theorem sound_new (config : TrackerConfig) : (new config).Sound where
  keys := fun _ => iff_of_true rfl rfl
  marked := fun _ h => absurd h (Finset.notMem_empty _)

/-- A tracker that agrees on statuses, marks and the keys of the infos. -/
theorem Sound.congr (h : t.Sound)
    (hstatus : t'.requestIdToStatus.get? = t.requestIdToStatus.get?)
    (hinfos : ∀ id, t'.requestInfos.get? id = none ↔ t.requestInfos.get? id = none)
    (habort : t'.abortRequestIds = t.abortRequestIds) : t'.Sound where
  keys := fun id => by rw [hinfos, hstatus]; exact h.keys id
  marked := fun id hid => by
    rw [tracks_iff, hstatus, ← tracks_iff]
    exact h.marked id (habort ▸ hid)

/-! ### Adding and removing keep the tracker sound -/

/-- Recording a status and an info for one id. -/
theorem Sound.setBoth (h : t.Sound) (id : Nat) (info : RequestInfo) (status : RequestStatus)
    (sets : RequestStatus → Finset Nat) :
    Sound { t with
      requestInfos := t.requestInfos.set id info
      requestIdToStatus := t.requestIdToStatus.set id status
      statusToRequestIds := sets } := by
  refine ⟨fun id' => ?_, fun id' hid => ?_⟩
  · simp only [Dict.get?_set]
    split
    · simp
    · exact h.keys id'
  · rw [tracks_iff]
    dsimp only
    rw [Dict.get?_set]
    split
    · simp
    · exact tracks_iff.mp (h.marked id' hid)

theorem Sound.addRequest (h : t.Sound) (reqs : List NewRequest) : (t.addRequest reqs).Sound := by
  unfold RequestStatusTracker.addRequest
  induction reqs generalizing t with
  | nil => exact h
  | cons req rest ih => exact ih (h.setBoth ..)

theorem addRequest_config (reqs : List NewRequest) (t : RequestStatusTracker) :
    (t.addRequest reqs).toTrackerConfig = t.toTrackerConfig := by
  unfold addRequest
  induction reqs generalizing t with
  | nil => rfl
  | cons req rest ih => exact ih (t.addOne req)

theorem removeRequest_status (ids : List Nat) (t : RequestStatusTracker) (id : Nat) :
    (t.removeRequest ids).requestIdToStatus.get? id =
      if id ∈ ids then none else t.requestIdToStatus.get? id := by
  unfold removeRequest
  induction ids generalizing t with
  | nil => simp
  | cons r rest ih =>
      rw [List.foldl_cons, ih]
      by_cases hid : id = r <;> simp [removeOne, Dict.get?_erase, hid]

theorem removeRequest_infos (ids : List Nat) (t : RequestStatusTracker) (id : Nat) :
    (t.removeRequest ids).requestInfos.get? id =
      if id ∈ ids then none else t.requestInfos.get? id := by
  unfold removeRequest
  induction ids generalizing t with
  | nil => simp
  | cons r rest ih =>
      rw [List.foldl_cons, ih]
      by_cases hid : id = r <;> simp [removeOne, Dict.get?_erase, hid]

theorem mem_removeRequest_abort (ids : List Nat) (t : RequestStatusTracker) (id : Nat) :
    id ∈ (t.removeRequest ids).abortRequestIds ↔ id ∈ t.abortRequestIds ∧ id ∉ ids := by
  unfold removeRequest
  induction ids generalizing t with
  | nil => simp
  | cons r rest ih =>
      rw [List.foldl_cons, ih]
      simp only [removeOne, Finset.mem_erase, List.mem_cons]
      tauto

theorem removeRequest_config (ids : List Nat) (t : RequestStatusTracker) :
    (t.removeRequest ids).toTrackerConfig = t.toTrackerConfig := by
  unfold removeRequest
  induction ids generalizing t with
  | nil => rfl
  | cons r rest ih => exact ih (t.removeOne r)

theorem Sound.removeRequest (h : t.Sound) (ids : List Nat) : (t.removeRequest ids).Sound where
  keys := fun id => by
    rw [removeRequest_infos, removeRequest_status]
    split
    · simp
    · exact h.keys id
  marked := fun id hid => by
    obtain ⟨hid, hnot⟩ := (mem_removeRequest_abort ids t id).mp hid
    rw [tracks_iff, removeRequest_status, if_neg hnot, ← tracks_iff]
    exact h.marked id hid

/-- The check answers whether the request is marked or untracked; its assertions hold. -/
theorem Sound.checkAbortedRequest_eq (h : t.Sound) (id : Nat) (remove : Bool) :
    (id ∈ t.abortRequestIds ∧ t.checkAbortedRequest id remove =
      .ok (true, if remove then t.removeRequest [id] else t)) ∨
    (id ∉ t.abortRequestIds ∧ ¬ t.Tracks id ∧ t.checkAbortedRequest id remove = .ok (true, t)) ∨
    (id ∉ t.abortRequestIds ∧ t.Tracks id ∧ t.checkAbortedRequest id remove = .ok (false, t)) := by
  unfold RequestStatusTracker.checkAbortedRequest
  by_cases hmark : id ∈ t.abortRequestIds
  · exact .inl ⟨hmark, if_pos hmark⟩
  · right
    by_cases htracks : t.Tracks id
    · right
      obtain ⟨info, hinfo⟩ := h.info_of_tracks htracks
      exact ⟨hmark, htracks, by simp [hmark, htracks, hinfo]⟩
    · left
      have hnone : t.requestInfos.get? id = none := by
        rw [h.keys, ← not_not (a := t.requestIdToStatus.get? id = none)]
        exact fun hsome => htracks (tracks_iff.mpr hsome)
      exact ⟨hmark, htracks, by simp [hmark, htracks, hnone]⟩

theorem Sound.checkAbortedRequest_ok (h : t.Sound) {remove aborted : Bool}
    (hcheck : t.checkAbortedRequest id remove = .ok (aborted, t')) :
    t' = t ∨ t' = t.removeRequest [id] := by
  rcases h.checkAbortedRequest_eq id remove with ⟨-, heq⟩ | ⟨-, -, heq⟩ | ⟨-, -, heq⟩
  all_goals
    rw [heq] at hcheck
    cases hcheck
  · cases remove
    · exact .inl rfl
    · exact .inr rfl
  · exact .inl rfl
  · exact .inl rfl

/-- What an operation on requests keeps. -/
structure Kept (t t' : RequestStatusTracker) : Prop where
  sound : t'.Sound
  config : t'.toTrackerConfig = t.toTrackerConfig

theorem Kept.trans {t'' : RequestStatusTracker} (h : Kept t t') (h' : Kept t' t'') :
    Kept t t'' := ⟨h'.sound, h'.config.trans h.config⟩

section

variable (h : t.Sound)

include h

theorem Sound.kept_removeRequest (ids : List Nat) : Kept t (t.removeRequest ids) :=
  ⟨h.removeRequest ids, removeRequest_config ids t⟩

theorem Sound.checkAbortedRequest {remove aborted : Bool}
    (hcheck : t.checkAbortedRequest id remove = .ok (aborted, t')) : Kept t t' := by
  rcases h.checkAbortedRequest_ok hcheck with rfl | rfl
  · exact ⟨h, rfl⟩
  · exact h.kept_removeRequest [id]

theorem Sound.checkAbortedRequests {ids : List Nat} {remove : Bool}
    {flags : List Bool} (hcheck : t.checkAbortedRequests ids remove = .ok (flags, t')) :
    Kept t t' := by
  refine foldlM_invariant (P := fun s : List Bool × RequestStatusTracker => Kept t s.2) hcheck
    ⟨h, rfl⟩ fun state id state' _ hkept hstep => ?_
  obtain ⟨⟨aborted, t1⟩, h1, hstep⟩ := bind_eq_ok.mp hstep
  cases hstep
  exact hkept.trans (hkept.sound.checkAbortedRequest h1)

theorem Sound.removeTrainReadyRequest {ids : List Nat}
    (hremove : t.removeTrainReadyRequest ids = .ok t') : Kept t t' := by
  obtain ⟨_, -, hremove⟩ := bind_eq_ok.mp hremove
  cases hremove
  exact h.kept_removeRequest ids

/-! ### Updating keeps the tracker sound -/

/-- Rewriting the info of a tracked request. -/
theorem Sound.setInfo {info : RequestInfo} (ht : t.Tracks id) :
    Sound { t with requestInfos := t.requestInfos.set id info } := by
  refine h.congr rfl (fun id' => ?_) rfl
  dsimp only
  rw [Dict.get?_set]
  split
  · rename_i heq
    subst heq
    obtain ⟨old, hold⟩ := h.info_of_tracks ht
    simp [hold]
  · rfl

/-- What one iteration of `update_request_status` can do. -/
theorem Sound.updateOne_cases (isValidate : Bool) (update : StatusUpdate) :
    (update.requestId ∈ t.abortRequestIds ∧ Coroutine.perform t (updateOne isValidate update) =
      (.ok false, t.removeRequest [update.requestId])) ∨
    (update.requestId ∉ t.abortRequestIds ∧ ¬ t.Tracks update.requestId ∧
      Coroutine.perform t (updateOne isValidate update) = (.ok false, t)) ∨
    (update.requestId ∉ t.abortRequestIds ∧ t.Tracks update.requestId ∧ ∃ info result,
      Coroutine.perform t (updateOne isValidate update) = (result, { t with
        requestInfos := t.requestInfos.set update.requestId info }) ∧
      (result = .ok false ∨
        result = .error (.indexError "list index out of range") ∧ update.status = none)) ∨
    (update.requestId ∉ t.abortRequestIds ∧ ∃ info old status,
      t.requestIdToStatus.get? update.requestId = some old ∧
      Coroutine.perform t (updateOne isValidate update) = (.ok true, { t with
        requestInfos := t.requestInfos.set update.requestId info
        statusToRequestIds := t.moveStatus update.requestId old status
        requestIdToStatus := t.requestIdToStatus.set update.requestId status })) := by
  unfold updateOne
  rw [Coroutine.perform_bind, Coroutine.perform_atomic]
  rcases h.checkAbortedRequest_eq update.requestId true with
    ⟨hmark, hcheck⟩ | ⟨hmark, htracks, hcheck⟩ | ⟨hmark, htracks, hcheck⟩
  · exact .inl ⟨hmark, by simp [hcheck]⟩
  · exact .inr (.inl ⟨hmark, htracks, by simp [hcheck]⟩)
  · obtain ⟨info, hinfo⟩ := h.info_of_tracks htracks
    obtain ⟨old, hold⟩ := Option.ne_none_iff_exists'.mp (tracks_iff.mp htracks)
    refine .inr (.inr ?_)
    simp only [hcheck, Bool.false_eq_true, if_false, Coroutine.perform_bind,
      Coroutine.perform_get, hinfo, Coroutine.perform_modify]
    by_cases hstale : isValidate = false ∧ (update.apply info).modelVersion ≠ -1 ∧
        (update.apply info).modelVersion < t.runningMinVersion
    · rw [if_pos hstale]
      exact .inl ⟨hmark, htracks, _, _, rfl, .inl rfl⟩
    · rw [if_neg hstale, hold]
      cases hstatus : update.status with
      | none => exact .inl ⟨hmark, htracks, _, _, rfl, .inr ⟨rfl, rfl⟩⟩
      | some status => exact .inr ⟨hmark, _, old, status, rfl, rfl⟩

theorem Sound.kept_updateOne (isValidate : Bool) (update : StatusUpdate) :
    Kept t (Coroutine.perform t (updateOne isValidate update)).2 := by
  rcases h.updateOne_cases isValidate update with ⟨-, heq⟩ | ⟨-, -, heq⟩ |
    ⟨-, htracks, _, _, heq, -⟩ | ⟨-, _, _, _, -, heq⟩ <;> rw [heq]
  · exact h.kept_removeRequest _
  · exact ⟨h, rfl⟩
  · exact ⟨h.setInfo htracks, rfl⟩
  · exact ⟨h.setBoth .., rfl⟩

theorem Sound.kept_updateEach (isValidate : Bool) (updates : List StatusUpdate) :
    Kept t (Coroutine.perform t (updateEach isValidate updates)).2 := by
  induction updates generalizing t with
  | nil => exact ⟨h, rfl⟩
  | cons update rest ih =>
      have hone := h.kept_updateOne isValidate update
      simp only [updateEach, Coroutine.perform_bind]
      generalize Coroutine.perform t (updateOne isValidate update) = first at hone ⊢
      rcases first with ⟨_ | success, t1⟩
      · exact hone
      · have hrest := hone.trans (ih hone.sound)
        dsimp only at hrest ⊢
        generalize Coroutine.perform t1 (updateEach isValidate rest) = last at hrest ⊢
        rcases last with ⟨_ | flags, t2⟩
        · exact hrest
        · exact hrest

theorem Sound.updateRequestStatus {updates : List StatusUpdate}
    {isValidate : Bool} {flags : List Bool}
    (hupd : t.updateRequestStatus updates isValidate = .ok (flags, t')) : Kept t t' := by
  have hkept := h.kept_updateEach isValidate updates
  unfold RequestStatusTracker.updateRequestStatus at hupd
  split at hupd
  · rename_i heq
    cases hupd
    rwa [heq] at hkept
  · cases hupd

theorem Sound.updateRequestNTrajectory {nTrajectory : Nat}
    (hupd : t.updateRequestNTrajectory id nTrajectory = .ok t') : Kept t t' := by
  unfold RequestStatusTracker.updateRequestNTrajectory at hupd
  split at hupd
  · cases hupd
  · split at hupd
    · cases hupd
    · rename_i info hinfo
      cases hupd
      exact ⟨h.setInfo (h.tracks_of_info hinfo), rfl⟩

end

/-! ### Aborting -/

/-- The effect of aborting `ids`: a tracked request among them is removed if it is
`COMPLETED` and marked otherwise, nothing else happens. -/
structure Aborted (ids : Finset Nat) (t t' : RequestStatusTracker) : Prop where
  config : t'.toTrackerConfig = t.toTrackerConfig
  status : ∀ id, t'.requestIdToStatus.get? id =
    if id ∈ ids ∧ t.requestIdToStatus.get? id = some .completed then none
    else t.requestIdToStatus.get? id
  infos : ∀ id, t'.requestInfos.get? id =
    if id ∈ ids ∧ t.requestIdToStatus.get? id = some .completed then none
    else t.requestInfos.get? id
  marks : ∀ id, id ∈ t'.abortRequestIds ↔
    (id ∈ t.abortRequestIds ∨ (id ∈ ids ∧ t.Tracks id)) ∧
      ¬ (id ∈ ids ∧ t.requestIdToStatus.get? id = some .completed)

theorem Aborted.sound {ids : Finset Nat} (heffect : Aborted ids t t') (h : t.Sound) :
    t'.Sound := by
  refine ⟨fun id => ?_, fun id hid => ?_⟩
  · rw [heffect.infos, heffect.status]
    split
    · simp
    · exact h.keys id
  · obtain ⟨hid, hnot⟩ := (heffect.marks id).mp hid
    rw [tracks_iff, heffect.status, if_neg hnot, ← tracks_iff]
    exact hid.elim (h.marked id) And.right

/-- Aborting the request changes something: it is tracked, and not marked already (or it is
marked and still `COMPLETED`, so that it is removed). -/
def Abortable (t : RequestStatusTracker) (id : Nat) : Prop :=
  t.Tracks id ∧ (id ∉ t.abortRequestIds ∨ t.requestIdToStatus.get? id = some .completed)

instance (t : RequestStatusTracker) (id : Nat) : Decidable (t.Abortable id) :=
  inferInstanceAs (Decidable (_ ∧ _))

/-- Aborting two sets has the same effect exactly if they share the abortable requests. -/
theorem Aborted.iff_of_aborted {ids ids' : Finset Nat} (h' : Aborted ids' t t') :
    Aborted ids t t' ↔ ∀ id, t.Abortable id → (id ∈ ids ↔ id ∈ ids') := by
  constructor
  · rintro h id ⟨htracks, hcase⟩
    by_cases hdone : t.requestIdToStatus.get? id = some .completed
    · have hstatus := (h.status id).symm.trans (h'.status id)
      by_cases hid : id ∈ ids <;> by_cases hid' : id ∈ ids' <;> simp_all
    · have hmarks := (h.marks id).symm.trans (h'.marks id)
      have hfresh := hcase.resolve_right hdone
      simpa [hdone, hfresh, htracks] using hmarks
  · intro hsame
    -- membership only matters for requests whose abortion changes something
    have hcompleted : ∀ id, (id ∈ ids ∧ t.requestIdToStatus.get? id = some .completed) ↔
        (id ∈ ids' ∧ t.requestIdToStatus.get? id = some .completed) := fun id =>
      and_congr_left fun hdone => hsame id ⟨by rw [tracks_iff, hdone]; simp, .inr hdone⟩
    refine ⟨h'.config, fun id => ?_, fun id => ?_, fun id => ?_⟩
    · rw [h'.status]
      simp only [hcompleted]
    · rw [h'.infos]
      simp only [hcompleted]
    · rw [h'.marks, hcompleted]
      refine and_congr_left fun _ => ?_
      by_cases hold : id ∈ t.abortRequestIds
      · simp [hold]
      · simp only [hold, false_or]
        exact and_congr_left fun htracks => (hsame id ⟨htracks, .inl hold⟩).symm

/-- `_abort_requests` returns, and has exactly this effect. -/
theorem Sound.abortRequests (h : t.Sound) (order : SetOrder Nat) (ids : Finset Nat) :
    ∃ commands t', t.abortRequests order ids = .ok (commands, t') ∧ t'.Sound ∧
      Aborted ids t t' := by
  unfold RequestStatusTracker.abortRequests
  dsimp only
  -- every request that is looked up in the infos is tracked
  rw [if_neg (by
    rintro ⟨id, hid, hnone⟩
    have htracks : t.Tracks id := by
      simp only [inStatus, Finset.mem_union, Finset.mem_filter] at hid
      tauto
    exact tracks_iff.mp htracks ((h.keys id).mp hnone))]
  refine ⟨_, _, rfl, ?_⟩
  have hmem : ∀ id, id ∈ order.toList (inStatus
      { t with abortRequestIds := t.abortRequestIds ∪ ids.filter t.Tracks }
        (ids.filter t.Tracks) .completed) ↔
      id ∈ ids ∧ t.requestIdToStatus.get? id = some .completed := by
    intro id
    rw [order.mem_toList]
    simp only [inStatus, Finset.mem_filter, tracks_iff]
    constructor
    · rintro ⟨⟨hid, -⟩, hstatus⟩
      exact ⟨hid, hstatus⟩
    · rintro ⟨hid, hstatus⟩
      exact ⟨⟨hid, by rw [hstatus]; simp⟩, hstatus⟩
  generalize order.toList (inStatus _ _ .completed) = done at hmem ⊢
  have heffect : Aborted ids t (RequestStatusTracker.removeRequest
      { t with abortRequestIds := t.abortRequestIds ∪ ids.filter t.Tracks } done) := by
    refine ⟨removeRequest_config _ _, fun id => ?_, fun id => ?_, fun id => ?_⟩
    · rw [removeRequest_status]
      simp only [hmem]
    · rw [removeRequest_infos]
      simp only [hmem]
    · rw [mem_removeRequest_abort, hmem]
      simp only [Finset.mem_union, Finset.mem_filter]
  exact ⟨heffect.sound h, heffect⟩

/-- `get_requests_of_abort_version` finds the unmarked training requests of the version. -/
theorem mem_getRequestsOfAbortVersion {version : Int} {ids : Finset Nat}
    (hget : t.getRequestsOfAbortVersion version = .ok (ids, t')) :
    id ∈ ids ↔ ∃ info, t.requestInfos.get? id = some info ∧ id ∉ t.abortRequestIds ∧
      info.isValidate = false ∧ info.modelVersion = version := by
  obtain ⟨_, -, hget⟩ := bind_eq_ok.mp hget
  cases hget
  simp [Dict.get?_eq_some_iff]

/-- It only changes the smallest running version. -/
theorem getRequestsOfAbortVersion_eq {version : Int} {ids : Finset Nat}
    (hget : t.getRequestsOfAbortVersion version = .ok (ids, t')) : 0 ≤ version ∧
      t' = { t with runningMinVersion := max t.runningMinVersion (version + 1) } := by
  obtain ⟨_, hassert, hget⟩ := bind_eq_ok.mp hget
  cases hget
  exact ⟨pyAssert_eq_ok.mp hassert, rfl⟩

end RequestStatusTracker

end Psrl
