import Psrl.Lib.GroupField

/-!
# Psrl.Staleness.Entry

The metadata of a buffer slot (`psrl/workers/ps/staleness_controller.py`).

A slot holds one **group**: all the requests of one prompt. `EntryInfo` keeps, next
to the prompt, four fields that are one value while the requests of the group agree
and a list parallel to `requestIdx` once they differ. A request joins the group in
`recordRequest` (the existing-prompt branch of `reserve_data`), changes a field in
`updateModelVersion` and its likes (the three `update_request_*` methods) and leaves it in
`dropRequests` (the partial branch of `PSManager.abort_requests`).

The model keeps two types apart that the source writes with one class: a single
request (`RequestInfo`, every field a scalar — what callers build and what the
status tracker stores) and the group entry it joins (`EntryInfo`).
-/

namespace Psrl

open Py

/-- `(worker_id, data_parallel_rank)`. -/
abbrev RolloutInstanceId := String × Int

/-- `INVALID_ROLLOUT_INSTANCE_ID`. -/
def invalidRolloutInstanceId : RolloutInstanceId := ("", -1)

/-- An `EntryInfo` that describes a single request: every field is a scalar. -/
structure RequestInfo where
  rolloutInstanceId : RolloutInstanceId
  promptId : Nat
  requestIdx : Nat
  modelVersion : Int
  nTrajectory : Nat := 1
  isValidate : Bool := false
  deriving Repr, DecidableEq

/-- The metadata of a group: `request_idx` is the list of the requests recorded so far
(or the only one, as a scalar), the other group fields are scalars or parallel lists. -/
structure EntryInfo where
  rolloutInstanceId : GroupField RolloutInstanceId
  promptId : Nat
  requestIdx : GroupField Nat
  modelVersion : GroupField Int
  nTrajectory : GroupField Nat := .scalar 1
  isValidate : Bool := false
  deriving Repr, DecidableEq

/-- The entry a first request creates. -/
def RequestInfo.toEntryInfo (req : RequestInfo) : EntryInfo where
  rolloutInstanceId := .scalar req.rolloutInstanceId
  promptId := req.promptId
  requestIdx := .scalar req.requestIdx
  modelVersion := .scalar req.modelVersion
  nTrajectory := .scalar req.nTrajectory
  isValidate := req.isValidate

namespace EntryInfo

variable (info : EntryInfo)

/-- Indices of the recorded requests inside their group. -/
def getAllRequestRelativeIds : List Nat := info.requestIdx.toList

/-- The minimum model version of the entry; `min([])` raises. -/
def getEntryVersion : Except PyError Int :=
  match info.modelVersion with
  | .list l => pyMin l
  | .scalar v => .ok v

theorem getEntryVersion_eq_ok {info : EntryInfo} {v : Int} :
    info.getEntryVersion = .ok v ↔
      v ∈ info.modelVersion.toList ∧ ∀ x ∈ info.modelVersion.toList, v ≤ x := by
  unfold getEntryVersion
  cases info.modelVersion with
  | scalar w =>
      simp only [GroupField.toList_scalar, List.mem_singleton, forall_eq, Except.ok.injEq]
      constructor
      · rintro rfl
        exact ⟨rfl, Int.le_refl _⟩
      · exact fun h => h.1.symm
  | list l => exact pyMin_eq_ok

theorem getEntryVersion_ok_of_mem {info : EntryInfo} {v : Int}
    (h : v ∈ info.modelVersion.toList) : ∃ w, info.getEntryVersion = .ok w := by
  unfold getEntryVersion
  cases hmv : info.modelVersion with
  | scalar w => exact ⟨w, rfl⟩
  | list l =>
      rw [hmv] at h
      exact pyMin_ok_of_ne_nil (List.ne_nil_of_mem h)

/-! ### A further request joins the group

`request_idx` is promoted to a list before anything else, also when the request turns
out to be recorded already. The lengths below are those of the promoted list *after* the
new index was appended: `rollout_instance_id` and `n_trajectory` spread a scalar over
all but the new request, `model_version` spreads it over all of them. -/

/-- `rollout_instance_id` of the group after a request joined. -/
def appendRolloutInstanceId (requestNum : Nat) (new : RolloutInstanceId) :
    GroupField RolloutInstanceId :=
  info.rolloutInstanceId.append (requestNum - 1) new

/-- `n_trajectory` of the group after a request joined. -/
def appendNTrajectory (requestNum : Nat) (new : Nat) : GroupField Nat :=
  info.nTrajectory.append (requestNum - 1) new

/-- `model_version` of the group after a request joined: one copy more than its siblings. -/
def appendModelVersion (requestNum : Nat) (new : Int) : GroupField Int :=
  info.modelVersion.append requestNum new

/-- The existing-prompt branch of `reserve_data`, on the tracked entry. -/
def recordRequest (req : RequestInfo) : EntryInfo :=
  let requestIdx := info.requestIdx.toList
  if req.requestIdx ∈ requestIdx then
    -- a retried request returns the existing reservation
    { info with requestIdx := .list requestIdx }
  else
    let requestNum := (requestIdx ++ [req.requestIdx]).length
    { info with
      requestIdx := .list (requestIdx ++ [req.requestIdx])
      modelVersion := info.appendModelVersion requestNum req.modelVersion
      rolloutInstanceId := info.appendRolloutInstanceId requestNum req.rolloutInstanceId
      nTrajectory := info.appendNTrajectory requestNum req.nTrajectory }

theorem recordRequest_of_mem {info : EntryInfo} {req : RequestInfo}
    (h : req.requestIdx ∈ info.requestIdx.toList) :
    info.recordRequest req = { info with requestIdx := .list info.requestIdx.toList } := if_pos h

theorem recordRequest_of_not_mem {info : EntryInfo} {req : RequestInfo}
    (h : req.requestIdx ∉ info.requestIdx.toList) :
    info.recordRequest req =
      { info with
        requestIdx := .list (info.requestIdx.toList ++ [req.requestIdx])
        modelVersion := info.modelVersion.append (info.requestIdx.toList.length + 1)
          req.modelVersion
        rolloutInstanceId := info.rolloutInstanceId.append info.requestIdx.toList.length
          req.rolloutInstanceId
        nTrajectory := info.nTrajectory.append info.requestIdx.toList.length
          req.nTrajectory } := by
  refine (if_neg h).trans ?_
  simp [appendModelVersion, appendRolloutInstanceId, appendNTrajectory]

@[simp] theorem recordRequest_promptId (req : RequestInfo) :
    (info.recordRequest req).promptId = info.promptId := by
  by_cases h : req.requestIdx ∈ info.requestIdx.toList
  · rw [recordRequest_of_mem h]
  · rw [recordRequest_of_not_mem h]

theorem mem_recordRequest_modelVersion {info : EntryInfo} {req : RequestInfo} {v : Int}
    (hv : v ∈ (info.recordRequest req).modelVersion.toList) :
    v ∈ info.modelVersion.toList ∨ v = req.modelVersion := by
  by_cases h : req.requestIdx ∈ info.requestIdx.toList
  · rw [recordRequest_of_mem h] at hv
    exact .inl hv
  · rw [recordRequest_of_not_mem h] at hv
    exact GroupField.mem_append hv

/-- The versions recorded before a request joins stay recorded. -/
theorem recordRequest_modelVersion_of_mem {info : EntryInfo} {req : RequestInfo} {v : Int}
    (hv : v ∈ info.modelVersion.toList) : v ∈ (info.recordRequest req).modelVersion.toList := by
  by_cases h : req.requestIdx ∈ info.requestIdx.toList
  · rw [recordRequest_of_mem h]
    exact hv
  · rw [recordRequest_of_not_mem h]
    exact GroupField.mem_append_of_mem (by omega) hv

/-! ### A recorded request changes a field -/

/-- `update_request_version_tag` on the entry that records the request. -/
def updateModelVersion (requestIdx : Nat) (new : Int) : Except PyError EntryInfo := do
  let modelVersion ← info.modelVersion.setAt info.requestIdx requestIdx new
  .ok { info with modelVersion := modelVersion }

/-- `update_request_instance_id` on the entry that records the request. -/
def updateRolloutInstanceId (requestIdx : Nat) (new : RolloutInstanceId) :
    Except PyError EntryInfo := do
  let rolloutInstanceId ← info.rolloutInstanceId.setAt info.requestIdx requestIdx new
  .ok { info with rolloutInstanceId := rolloutInstanceId }

/-- `update_request_n_trajectory` on the entry that records the request. -/
def updateNTrajectory (requestIdx : Nat) (new : Nat) : Except PyError EntryInfo := do
  let nTrajectory ← info.nTrajectory.setAt info.requestIdx requestIdx new
  .ok { info with nTrajectory := nTrajectory }

theorem updateModelVersion_eq_ok {info info' : EntryInfo} {requestIdx : Nat} {new : Int} :
    info.updateModelVersion requestIdx new = .ok info' ↔
      ∃ mv, info.modelVersion.setAt info.requestIdx requestIdx new = .ok mv ∧
        info' = { info with modelVersion := mv } := by
  unfold updateModelVersion
  rw [bind_eq_ok]
  simp [eq_comm]

/-- The version the entry records for a request. -/
def recordedVersion (requestIdx : Nat) : Option Int :=
  info.modelVersion.valueOf info.requestIdx requestIdx

/-- The recorded versions cover the recorded requests: there are at least as many. -/
def VersionsCover : Prop := info.modelVersion.Covers info.requestIdx

theorem versionsCover_toEntryInfo (req : RequestInfo) : req.toEntryInfo.VersionsCover :=
  fun _ h => by cases h

/-- A retried request turns a single index into a list of one. -/
theorem covers_promote {α : Type} {info : EntryInfo} {field : GroupField α}
    (h : field.Covers info.requestIdx) : field.Covers (.list info.requestIdx.toList) := by
  intro l hl
  obtain ⟨ms, hms, hle⟩ := h l hl
  exact ⟨info.requestIdx.toList, rfl, by rw [hms]; exact hle⟩

theorem VersionsCover.recordRequest {info : EntryInfo} (h : info.VersionsCover)
    (req : RequestInfo) : (info.recordRequest req).VersionsCover := by
  by_cases hmem : req.requestIdx ∈ info.requestIdx.toList
  · rw [recordRequest_of_mem hmem]
    exact covers_promote h
  · rw [recordRequest_of_not_mem hmem]
    exact GroupField.Covers.append h (Nat.le_succ _) _ _

theorem VersionsCover.updateModelVersion {info info' : EntryInfo} (h : info.VersionsCover)
    {requestIdx : Nat} {new : Int} (hupd : info.updateModelVersion requestIdx new = .ok info') :
    info'.VersionsCover := by
  obtain ⟨mv, hmv, rfl⟩ := updateModelVersion_eq_ok.mp hupd
  exact GroupField.Covers.setAt h hmv

/-- A recorded request has a recorded version, and it can be changed. -/
theorem VersionsCover.updateModelVersion_ok {info : EntryInfo} (h : info.VersionsCover)
    {requestIdx : Nat} (hrec : requestIdx ∈ info.getAllRequestRelativeIds) (new : Int) :
    (∃ old, info.recordedVersion requestIdx = some old) ∧
      ∃ info', info.updateModelVersion requestIdx new = .ok info' := by
  obtain ⟨hold, mv, hmv⟩ := GroupField.Covers.setAt_ok h hrec new
  exact ⟨hold, _, updateModelVersion_eq_ok.mpr ⟨mv, hmv, rfl⟩⟩

/-! ### Some requests leave the group -/

/-- The partial branch of `PSManager.abort_requests` on the tracked entry: the requests in
`abortRequestIdxs` are dropped. `n_trajectory` is not filtered along with the others. -/
def dropRequests (abortRequestIdxs : List Nat) : Except PyError EntryInfo :=
  match info.requestIdx with
  | .scalar _ => .error (.assertionError "entry_info.request_idx should be a list.")
  | .list ids => do
    let updateIdxs := GroupField.keptPositions (fun idx => idx ∉ abortRequestIdxs) ids
    let rolloutInstanceId ← info.rolloutInstanceId.select updateIdxs
    let modelVersion ← info.modelVersion.select updateIdxs
    let requestIdx ← GroupField.pickAt ids updateIdxs
    .ok { info with
      rolloutInstanceId := rolloutInstanceId
      modelVersion := modelVersion
      requestIdx := .list requestIdx }

theorem dropRequests_eq_ok {info info' : EntryInfo} {abortRequestIdxs : List Nat} :
    info.dropRequests abortRequestIdxs = .ok info' ↔
      ∃ ids, info.requestIdx = .list ids ∧ ∃ instances versions,
        info.rolloutInstanceId.select (GroupField.keptPositions (· ∉ abortRequestIdxs) ids) =
          .ok instances ∧
        info.modelVersion.select (GroupField.keptPositions (· ∉ abortRequestIdxs) ids) =
          .ok versions ∧
        info' = { info with
          rolloutInstanceId := instances
          modelVersion := versions
          requestIdx := .list (ids.filter (· ∉ abortRequestIdxs)) } := by
  unfold dropRequests
  cases info.requestIdx with
  | scalar i => simp
  | list ids =>
      simp only [bind_eq_ok, GroupField.pickAt_keptPositions_self, GroupField.list.injEq,
        exists_eq_left', Except.ok.injEq]
      constructor
      · rintro ⟨instances, hinst, versions, hver, heq⟩
        exact ⟨instances, versions, hinst, hver, heq.symm⟩
      · rintro ⟨instances, versions, hinst, hver, heq⟩
        exact ⟨instances, hinst, versions, hver, heq.symm⟩

theorem dropRequests_promptId {info info' : EntryInfo} {abortRequestIdxs : List Nat}
    (h : info.dropRequests abortRequestIdxs = .ok info') : info'.promptId = info.promptId := by
  obtain ⟨_, -, _, _, -, -, rfl⟩ := dropRequests_eq_ok.mp h
  rfl

/-! ### Well recorded groups -/

/-- The recorded requests belong to a group of `n`, and the lists beside `request_idx` reach
as far as it does. -/
structure WellRecorded (n : Nat) (info : EntryInfo) : Prop where
  indices : ∀ i ∈ info.requestIdx.toList, i < n
  versions : info.VersionsCover
  instances : info.rolloutInstanceId.Covers info.requestIdx

instance (n : Nat) (info : EntryInfo) : Decidable (info.WellRecorded n) :=
  decidable_of_iff ((∀ i ∈ info.requestIdx.toList, i < n) ∧
      info.modelVersion.Covers info.requestIdx ∧ info.rolloutInstanceId.Covers info.requestIdx)
    ⟨fun h => ⟨h.1, h.2.1, h.2.2⟩, fun h => ⟨h.indices, h.versions, h.instances⟩⟩

theorem wellRecorded_toEntryInfo {n : Nat} {req : RequestInfo} (h : req.requestIdx < n) :
    req.toEntryInfo.WellRecorded n where
  indices := fun i hi => by
    obtain rfl := List.mem_singleton.mp hi
    exact h
  versions := versionsCover_toEntryInfo req
  instances := fun _ h => by cases h

section

variable {n : Nat} {info info' : EntryInfo} (h : info.WellRecorded n)

include h

theorem WellRecorded.recordRequest {req : RequestInfo} (hreq : req.requestIdx < n) :
    (info.recordRequest req).WellRecorded n := by
  refine ⟨fun i hi => ?_, h.versions.recordRequest req, ?_⟩
  · by_cases hmem : req.requestIdx ∈ info.requestIdx.toList
    · rw [recordRequest_of_mem hmem] at hi
      exact h.indices i hi
    · rw [recordRequest_of_not_mem hmem, GroupField.toList_list, List.mem_append] at hi
      rcases hi with hi | hi
      · exact h.indices i hi
      · rw [List.mem_singleton.mp hi]
        exact hreq
  · by_cases hmem : req.requestIdx ∈ info.requestIdx.toList
    · rw [recordRequest_of_mem hmem]
      exact covers_promote h.instances
    · rw [recordRequest_of_not_mem hmem]
      exact h.instances.append le_rfl _ _

theorem WellRecorded.updateModelVersion {requestIdx : Nat} {new : Int}
    (hupd : info.updateModelVersion requestIdx new = .ok info') : info'.WellRecorded n := by
  obtain ⟨mv, hmv, rfl⟩ := updateModelVersion_eq_ok.mp hupd
  exact ⟨h.indices, GroupField.Covers.setAt h.versions hmv, h.instances⟩

theorem WellRecorded.updateRolloutInstanceId {requestIdx : Nat} {new : RolloutInstanceId}
    (hupd : info.updateRolloutInstanceId requestIdx new = .ok info') : info'.WellRecorded n := by
  obtain ⟨instances, hset, hupd⟩ := bind_eq_ok.mp hupd
  cases hupd
  exact ⟨h.indices, h.versions, h.instances.setAt hset⟩

theorem WellRecorded.updateNTrajectory {requestIdx new : Nat}
    (hupd : info.updateNTrajectory requestIdx new = .ok info') : info'.WellRecorded n := by
  obtain ⟨_, -, hupd⟩ := bind_eq_ok.mp hupd
  cases hupd
  exact ⟨h.indices, h.versions, h.instances⟩

/-- Dropping requests of a well recorded group returns exactly if `request_idx` is a list. -/
theorem WellRecorded.dropRequests_ok_iff (abortRequestIdxs : List Nat) :
    (∃ info', info.dropRequests abortRequestIdxs = .ok info') ↔ info.requestIdx.isList = true := by
  constructor
  · rintro ⟨info', hdrop⟩
    obtain ⟨ids, hids, -⟩ := dropRequests_eq_ok.mp hdrop
    rw [hids, GroupField.isList_list]
  · intro hlist
    cases hids : info.requestIdx with
    | scalar i => rw [hids] at hlist; cases hlist
    | list ids =>
        obtain ⟨instances, hinst, -⟩ := GroupField.Covers.select (hids ▸ h.instances) _
        have hcover : info.modelVersion.Covers info.requestIdx := h.versions
        obtain ⟨versions, hver, -⟩ := GroupField.Covers.select (hids ▸ hcover) _
        exact ⟨_, dropRequests_eq_ok.mpr ⟨ids, hids, instances, versions, hinst, hver, rfl⟩⟩

theorem WellRecorded.dropRequests {abortRequestIdxs : List Nat}
    (hdrop : info.dropRequests abortRequestIdxs = .ok info') : info'.WellRecorded n := by
  obtain ⟨ids, hids, instances, versions, hinst, hver, rfl⟩ := dropRequests_eq_ok.mp hdrop
  refine ⟨fun i hi => h.indices i ?_, ?_, ?_⟩
  · rw [hids]
    exact List.mem_of_mem_filter hi
  · have hversions : info.modelVersion.Covers info.requestIdx := h.versions
    obtain ⟨versions', hver', hcover⟩ := GroupField.Covers.select
      (hids ▸ hversions) (· ∉ abortRequestIdxs)
    obtain rfl : versions' = versions := Except.ok.inj (hver'.symm.trans hver)
    exact hcover
  · obtain ⟨instances', hinst', hcover⟩ := GroupField.Covers.select
      (hids ▸ h.instances) (· ∉ abortRequestIdxs)
    obtain rfl : instances' = instances := Except.ok.inj (hinst'.symm.trans hinst)
    exact hcover

end

/-! ### The staleness window of a reservation -/

/-- The entry may wait in buffer `b` under staleness `eta`: no recorded version is more
than `eta` behind the buffer, and some recorded version is not ahead of it. Then its
minimum version lies in `[b - eta, b]`. -/
def InWindow (eta : Nat) (b : Int) (info : EntryInfo) : Prop :=
  (∀ v ∈ info.modelVersion.toList, b - eta ≤ v) ∧ ∃ v ∈ info.modelVersion.toList, v ≤ b

theorem InWindow.version {eta : Nat} {b : Int} {info : EntryInfo} (h : info.InWindow eta b) :
    ∃ v, info.getEntryVersion = .ok v ∧ b - eta ≤ v ∧ v ≤ b := by
  obtain ⟨hlow, w, hw, hwb⟩ := h
  obtain ⟨v, hv⟩ := getEntryVersion_ok_of_mem hw
  obtain ⟨hmem, hmin⟩ := getEntryVersion_eq_ok.mp hv
  exact ⟨v, hv, hlow v hmem, (hmin w hw).trans hwb⟩

theorem inWindow_of_version {eta : Nat} {b v : Int} {info : EntryInfo}
    (h : info.getEntryVersion = .ok v) (hlow : b - eta ≤ v) (hup : v ≤ b) :
    info.InWindow eta b := by
  obtain ⟨hmem, hmin⟩ := getEntryVersion_eq_ok.mp h
  exact ⟨fun x hx => hlow.trans (hmin x hx), v, hmem, hup⟩

/-- A further request that is not too old for the buffer keeps the window. -/
theorem InWindow.recordRequest {eta : Nat} {b : Int} {info : EntryInfo} (h : info.InWindow eta b)
    {req : RequestInfo} (hreq : b - eta ≤ req.modelVersion) :
    (info.recordRequest req).InWindow eta b := by
  obtain ⟨hlow, w, hw, hwb⟩ := h
  refine ⟨fun v hv => ?_, w, recordRequest_modelVersion_of_mem hw, hwb⟩
  rcases mem_recordRequest_modelVersion hv with hv | rfl
  · exact hlow v hv
  · exact hreq

/-- Raising a recorded version to at most the buffer id keeps the window. -/
theorem InWindow.updateModelVersion {eta : Nat} {b new old : Int} {info info' : EntryInfo}
    {requestIdx : Nat} (h : info.InWindow eta b)
    (hupd : info.updateModelVersion requestIdx new = .ok info')
    (hold : info.recordedVersion requestIdx = some old) (hraise : old ≤ new) (hnew : new ≤ b) :
    info'.InWindow eta b := by
  obtain ⟨mv, hmv, rfl⟩ := updateModelVersion_eq_ok.mp hupd
  have hlow : b - eta ≤ new := (h.1 old (GroupField.mem_of_valueOf hold)).trans hraise
  refine ⟨fun v hv => ?_, new, GroupField.mem_setAt_self hmv, hnew⟩
  rcases GroupField.mem_setAt hmv hv with hv | rfl
  · exact h.1 v hv
  · exact hlow

end EntryInfo

/-! ### Slots -/

/-- Category of a slot: free, reserved by a running group, or holding finished data. -/
inductive EntryCategory
  | empty
  | reserved
  | occupied
  deriving Repr, DecidableEq

/-- A buffer slot. The source pairs a category with an optional `EntryInfo`; every slot it
builds has an info exactly when it is not `EMPTY`, which the constructors say here. -/
inductive Entry
  | empty
  | reserved (info : EntryInfo)
  | occupied (info : EntryInfo)
  deriving Repr, DecidableEq

namespace Entry

instance : Inhabited Entry := ⟨empty⟩

def category : Entry → EntryCategory
  | empty => .empty
  | reserved _ => .reserved
  | occupied _ => .occupied

def entryInfo? : Entry → Option EntryInfo
  | empty => none
  | reserved info => some info
  | occupied info => some info

/-- The prompt whose group the slot holds. -/
def promptId? (entry : Entry) : Option Nat := entry.entryInfo?.map EntryInfo.promptId

/-- `entry.entry_info = info` on a slot that already holds a group. -/
def setInfo (entry : Entry) (info : EntryInfo) : Entry :=
  match entry with
  | empty => empty
  | reserved _ => reserved info
  | occupied _ => occupied info

@[simp] theorem category_empty : empty.category = .empty := rfl
@[simp] theorem category_reserved (info : EntryInfo) : (reserved info).category = .reserved := rfl
@[simp] theorem category_occupied (info : EntryInfo) : (occupied info).category = .occupied := rfl
@[simp] theorem promptId?_empty : empty.promptId? = none := rfl
@[simp] theorem promptId?_reserved (info : EntryInfo) :
    (reserved info).promptId? = some info.promptId := rfl
@[simp] theorem promptId?_occupied (info : EntryInfo) :
    (occupied info).promptId? = some info.promptId := rfl

@[simp] theorem category_setInfo (entry : Entry) (info : EntryInfo) :
    (entry.setInfo info).category = entry.category := by
  cases entry <;> rfl

theorem entryInfo?_setInfo {entry : Entry} {info info' : EntryInfo}
    (h : entry.entryInfo? = some info) : (entry.setInfo info').entryInfo? = some info' := by
  cases entry with
  | empty => cases h
  | reserved i => rfl
  | occupied i => rfl

theorem promptId?_setInfo {entry : Entry} {info info' : EntryInfo}
    (h : entry.entryInfo? = some info) (hid : info'.promptId = info.promptId) :
    (entry.setInfo info').promptId? = entry.promptId? := by
  cases entry with
  | empty => rfl
  | reserved i => cases h; simp [setInfo, hid]
  | occupied i => cases h; simp [setInfo, hid]

theorem category_eq_empty_iff {entry : Entry} : entry.category = .empty ↔ entry = empty := by
  cases entry <;> simp

theorem category_eq_reserved_iff {entry : Entry} :
    entry.category = .reserved ↔ ∃ info, entry = reserved info := by
  cases entry <;> simp

theorem category_eq_occupied_iff {entry : Entry} :
    entry.category = .occupied ↔ ∃ info, entry = occupied info := by
  cases entry <;> simp

end Entry

end Psrl
