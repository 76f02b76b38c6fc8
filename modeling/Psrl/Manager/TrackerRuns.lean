import Psrl.Lib.Run
import Psrl.Manager.RequestStatus

/-!
# Psrl.Manager.TrackerRuns

Runs of the `RequestStatusTracker` on its own: calls in scalar or list form, in any order, with
the state a call leaves behind also when it raises.

The four maps of the tracker agree (`tracker_coherent`): statuses and infos have the same keys, only
such keys are marked, and the set of each status holds exactly the requests with this status.
A request that is marked or untracked (`Dropped`) stays so until it is added again, and every
update of it answers `False`. Updating goes entry by entry; `Sound.updateOne_cases` says what
one entry can do, and `Updated` is what all of them together keep.
-/

namespace Psrl

open Py

/-- The arguments of `add_request`. -/
structure AddCall where
  requestId : GroupField Nat
  rolloutInstanceId : GroupField RolloutInstanceId := .scalar invalidRolloutInstanceId
  modelVersion : GroupField Int := .scalar (-1)
  status : GroupField RequestStatus := .scalar .pending
  isValidate : GroupField Bool := .scalar false
  deriving DecidableEq

/-- The requests of a call of `add_request`, once its lists are found to be of one length. -/
def AddCall.requests (call : AddCall) : Except PyError (List NewRequest) := do
  let ids := call.requestId.toList
  let instances := call.rolloutInstanceId.broadcast ids.length
  let versions := call.modelVersion.broadcast ids.length
  let statuses := call.status.broadcast ids.length
  let validates := call.isValidate.broadcast ids.length
  pyAssert (instances.length = ids.length ∧ versions.length = ids.length ∧
    statuses.length = ids.length ∧ validates.length = ids.length)
    "All parameter lists must have the same length."
  .ok ((ids.zip (instances.zip (versions.zip (statuses.zip validates)))).map
    fun (id, instanceId, version, status, validate) => ⟨id, instanceId, version, status, validate⟩)

/-- The arguments of `update_request_status`. -/
structure UpdateCall where
  requestId : GroupField Nat
  status : GroupField RequestStatus
  modelVersion : GroupField Int := .scalar (-1)
  rolloutInstanceId : GroupField RolloutInstanceId := .scalar invalidRolloutInstanceId
  isValidate : Bool := false
  deriving DecidableEq

/-- The iterations of a call of `update_request_status`. The length of the list of statuses is
not checked. -/
def UpdateCall.entries (call : UpdateCall) : Except PyError (List StatusUpdate) := do
  let ids := call.requestId.toList
  let versions := call.modelVersion.broadcast ids.length
  let instances := call.rolloutInstanceId.broadcast ids.length
  pyAssert (ids.length = versions.length ∧ versions.length = instances.length)
    "request_id, model_version, and rollout_instance_id must have the same length."
  let statuses := call.status.broadcast ids.length
  .ok ((ids.zip (versions.zip instances)).zipIdx.map
    fun ((id, version, instanceId), i) => ⟨id, statuses[i]?, version, instanceId⟩)

namespace RequestStatusTracker

/-! ### The calls -/

/-- A call of `update_request_status`. -/
def updateCall (call : UpdateCall) : Coroutine RequestStatusTracker (GroupField Bool) := do
  match call.entries with
  | .error e => throw e
  | .ok entries =>
      match ← updateEach call.isValidate entries with
      | [success] => return .scalar success
      | flags => return .list flags

/-- A call of `add_request`. -/
def addCall (call : AddCall) : Coroutine RequestStatusTracker Unit :=
  match call.requests with
  | .error e => throw e
  | .ok reqs => modify fun t => t.addRequest reqs

/-- A call of `_abort_requests`. A command that cannot be sent leaves the marks behind. -/
def abortCall (order : SetOrder Nat) (requestIds : Finset Nat) (sendFails : Bool) :
    Coroutine RequestStatusTracker Unit := do
  let t ← get
  let marked := { t with abortRequestIds := t.abortRequestIds ∪ requestIds.filter t.Tracks }
  match t.abortRequests order requestIds with
  | .error e => modify fun _ => marked; throw e
  | .ok (commands, t') =>
      if sendFails = true ∧ (commands.rollout.Nonempty ∨ commands.reward.Nonempty) then
        modify fun _ => marked
        throw (.attributeError "exec_command")
      else modify fun _ => t'

inductive Action
  | addRequest (call : AddCall)
  | updateRequestStatus (call : UpdateCall)
  | updateRequestNTrajectory (requestId nTrajectory : Nat)
  | abortRequests (order : SetOrder Nat) (requestIds : Finset Nat) (sendFails : Bool)
  | checkAbortedRequest (requestId : Nat) (remove : Bool)
  | removeRequest (requestIds : List Nat)
  | removeTrainReadyRequest (requestIds : List Nat)
  | getRequestsOfAbortVersion (version : Int)

/-- A call whose result is not looked at. -/
def forget {α : Type} (call : Coroutine RequestStatusTracker α) :
    Coroutine RequestStatusTracker Unit := do
  let _ ← call
  return

def operation : Action → Coroutine RequestStatusTracker Unit
  | .addRequest call => addCall call
  | .updateRequestStatus call => forget (updateCall call)
  | .updateRequestNTrajectory requestId nTrajectory =>
      Coroutine.atomic fun t => (t.updateRequestNTrajectory requestId nTrajectory).map ((), ·)
  | .abortRequests order requestIds sendFails => abortCall order requestIds sendFails
  | .checkAbortedRequest requestId remove =>
      forget (Coroutine.atomic fun t => t.checkAbortedRequest requestId remove)
  | .removeRequest requestIds => modify fun t => t.removeRequest requestIds
  | .removeTrainReadyRequest requestIds =>
      Coroutine.atomic fun t => (t.removeTrainReadyRequest requestIds).map ((), ·)
  | .getRequestsOfAbortVersion version =>
      forget (Coroutine.atomic fun t => t.getRequestsOfAbortVersion version)

/-- A call and the state it leaves behind, whether it returns or raises. -/
def exec (t : RequestStatusTracker) (a : Action) : Except PyError RequestStatusTracker :=
  .ok (Coroutine.perform t (operation a)).2

/-- Only requests that are not tracked are added. -/
def Fresh (t : RequestStatusTracker) : Action → Prop
  | .addRequest call => ∀ id ∈ call.requestId.toList, ¬ t.Tracks id
  | _ => True

instance (t : RequestStatusTracker) (a : Action) : Decidable (t.Fresh a) := by
  cases a <;> unfold Fresh <;> infer_instance

end RequestStatusTracker

/-- A request that a call of `add_request` names twice is given one status. -/
def AddCall.OneStatus (call : AddCall) : Prop :=
  match call.requests with
  | .ok reqs => ∀ req ∈ reqs, ∀ req' ∈ reqs,
      req.requestId = req'.requestId → req.status = req'.status
  | .error _ => True

instance (call : AddCall) : Decidable call.OneStatus := by
  unfold AddCall.OneStatus
  split <;> infer_instance

namespace RequestStatusTracker

/-- Every call of `add_request` gives each request one status. -/
def OneStatus : Action → Prop
  | .addRequest call => call.OneStatus
  | _ => True

instance (a : Action) : Decidable (OneStatus a) := by
  cases a <;> unfold OneStatus <;> infer_instance

/-- The action adds the request. -/
def Adds (id : Nat) : Action → Prop
  | .addRequest call => id ∈ call.requestId.toList
  | _ => False

/-! ### The sets of the statuses -/

section Coherent

variable {t t' : RequestStatusTracker} {id : Nat}

/-- The set of each status holds the requests with this status. -/
def Exact (t : RequestStatusTracker) : Prop :=
  ∀ id status, id ∈ t.statusToRequestIds status ↔ t.requestIdToStatus.get? id = some status

theorem Exact.removeOne (h : t.Exact) (r : Nat) : (t.removeOne r).Exact := by
  intro id status
  have hmem := h id status
  simp only [RequestStatusTracker.removeOne, Dict.get?_erase, discardStatus]
  cases hr : t.requestIdToStatus.get? r with
  | none =>
      by_cases hid : id = r
      · subst hid
        simp [hmem, hr]
      · simp [hid, hmem]
  | some old =>
      by_cases hstatus : status = old
      · subst hstatus
        by_cases hid : id = r <;> simp [hid, hmem]
      · by_cases hid : id = r
        · subst hid
          simp [Function.update_of_ne hstatus, hmem, hr, Ne.symm hstatus]
        · simp [Function.update_of_ne hstatus, hid, hmem]

theorem Exact.removeRequest (h : t.Exact) (ids : List Nat) : (t.removeRequest ids).Exact := by
  unfold RequestStatusTracker.removeRequest
  induction ids generalizing t with
  | nil => exact h
  | cons r rest ih => exact ih (h.removeOne r)

/-- A request gets a status that it had not, or the one it had. -/
theorem Exact.addOne (h : t.Exact) {req : NewRequest}
    (hfree : ∀ old, t.requestIdToStatus.get? req.requestId = some old → old = req.status) :
    (t.addOne req).Exact := by
  intro id status
  have hmem := h id status
  simp only [RequestStatusTracker.addOne, Dict.get?_set]
  by_cases hid : id = req.requestId
  · subst hid
    by_cases hstatus : status = req.status
    · simp [hstatus]
    · rw [Function.update_of_ne hstatus, if_pos rfl, hmem]
      constructor
      · intro hold
        exact absurd (hfree _ hold) hstatus
      · intro heq
        cases heq
        exact absurd rfl hstatus
  · by_cases hstatus : status = req.status
    · subst hstatus
      simp [hid, hmem]
    · simp [hid, Function.update_of_ne hstatus, hmem]

theorem Exact.moveStatus (h : t.Exact) {old status : RequestStatus}
    (hold : t.requestIdToStatus.get? id = some old) (infos : Dict Nat RequestInfo) :
    Exact { t with
      requestInfos := infos
      statusToRequestIds := t.moveStatus id old status
      requestIdToStatus := t.requestIdToStatus.set id status } := by
  intro id' status'
  have hmem := h id' status'
  simp only [RequestStatusTracker.moveStatus, Dict.get?_set, Function.update_apply]
  by_cases hid : id' = id
  · subst hid
    rw [hold] at hmem
    grind
  · grind

/-- Marked or untracked: every update of such a request answers `False`. -/
def Dropped (t : RequestStatusTracker) (id : Nat) : Prop := id ∈ t.abortRequestIds ∨ ¬ t.Tracks id

/-- What every call but `add_request` keeps. -/
structure Preserved (t t' : RequestStatusTracker) : Prop where
  sound : t'.Sound
  exact : t.Exact → t'.Exact
  dropped : ∀ id, t.Dropped id → t'.Dropped id

theorem Preserved.refl (h : t.Sound) : Preserved t t := ⟨h, id, fun _ => id⟩

theorem Preserved.trans {t'' : RequestStatusTracker} (h : Preserved t t')
    (h' : Preserved t' t'') : Preserved t t'' where
  sound := h'.sound
  exact hexact := h'.exact (h.exact hexact)
  dropped id hdropped := h'.dropped id (h.dropped id hdropped)

theorem not_tracks_removeRequest {ids : List Nat} (hid : id ∈ ids) :
    ¬ (t.removeRequest ids).Tracks id := by
  simp [tracks_iff, removeRequest_status, hid]

theorem Sound.preserved_removeRequest (h : t.Sound) (ids : List Nat) :
    Preserved t (t.removeRequest ids) where
  sound := h.removeRequest ids
  exact hexact := hexact.removeRequest ids
  dropped id hdropped := by
    by_cases hid : id ∈ ids
    · exact .inr (not_tracks_removeRequest hid)
    · refine hdropped.imp (fun hmark => ?_) fun huntracked => ?_
      · exact (mem_removeRequest_abort ids t id).mpr ⟨hmark, hid⟩
      · simpa [tracks_iff, removeRequest_status, hid] using huntracked

/-- What updating the requests `ids` does: dropped ones among them are gone. -/
structure Updated (ids : List Nat) (t t' : RequestStatusTracker) : Prop
    extends Preserved t t' where
  tracks : ∀ id, t'.Tracks id → t.Tracks id
  untracked : ∀ id ∈ ids, t.Dropped id → ¬ t'.Tracks id
  frame : ∀ id ∉ ids, t'.requestIdToStatus.get? id = t.requestIdToStatus.get? id

theorem Updated.refl (h : t.Sound) : Updated [] t t :=
  { Preserved.refl h with
    tracks := fun _ => id
    untracked := by simp
    frame := fun _ _ => rfl }

theorem Updated.cons {id : Nat} {ids : List Nat} {t'' : RequestStatusTracker}
    (h : Updated [id] t t') (h' : Updated ids t' t'') : Updated (id :: ids) t t'' := by
  refine { h.toPreserved.trans h'.toPreserved with tracks := ?_, untracked := ?_, frame := ?_ }
  · exact fun id htracks => h.tracks id (h'.tracks id htracks)
  · intro id' hid hdropped htracks
    rcases List.mem_cons.mp hid with rfl | hid
    · exact h.untracked id' (by simp) hdropped (h'.tracks id' htracks)
    · exact h'.untracked id' hid (h.dropped id' hdropped) htracks
  · intro id' hid
    rw [List.mem_cons, not_or] at hid
    rw [h'.frame id' hid.2, h.frame id' (by simpa using hid.1)]

theorem Sound.updated_removeRequest (h : t.Sound) (id : Nat) :
    Updated [id] t (t.removeRequest [id]) := by
  refine { h.preserved_removeRequest [id] with tracks := ?_, untracked := ?_, frame := ?_ }
  · intro id' htracks
    by_cases hid : id' ∈ [id]
    · exact absurd htracks (not_tracks_removeRequest hid)
    · rwa [tracks_iff, removeRequest_status, if_neg hid, ← tracks_iff] at htracks
  · exact fun id' hid _ => not_tracks_removeRequest hid
  · intro id' hid
    rw [removeRequest_status, if_neg hid]

/-- An update of a tracked and unmarked request. -/
theorem updated_of_tracks (hmark : id ∉ t.abortRequestIds)
    (htracks : t.Tracks id) (hsound : t'.Sound) (hexact : t.Exact → t'.Exact)
    (hmarks : t'.abortRequestIds = t.abortRequestIds)
    (hframe : ∀ id' ≠ id, t'.requestIdToStatus.get? id' = t.requestIdToStatus.get? id') :
    Updated [id] t t' where
  sound := hsound
  exact := hexact
  tracks id' htracks' := by
    by_cases hid : id' = id
    · exact hid ▸ htracks
    · rw [tracks_iff, hframe id' hid] at htracks'
      exact tracks_iff.mpr htracks'
  dropped id' hdropped := by
    by_cases hid : id' = id
    · subst hid
      exact absurd htracks (hdropped.resolve_left hmark)
    · refine hdropped.imp (fun hmark' => hmarks ▸ hmark') fun huntracked => ?_
      rwa [tracks_iff, hframe id' hid, ← tracks_iff]
  untracked id' hid hdropped := by
    obtain rfl := List.mem_singleton.mp hid
    exact absurd htracks (hdropped.resolve_left hmark)
  frame id' hid := hframe id' (by simpa using hid)

/-- The effect of one iteration of `update_request_status`, and its answer. -/
theorem Sound.updateOne (h : t.Sound) {isValidate : Bool} {entry : StatusUpdate}
    {result : Except PyError Bool}
    (hupd : Coroutine.perform t (updateOne isValidate entry) = (result, t')) :
    Updated [entry.requestId] t t' ∧ (t.Dropped entry.requestId → result = .ok false) ∧
      ∀ e, result = .error e →
        e = .indexError "list index out of range" ∧ entry.status = none := by
  rcases h.updateOne_cases isValidate entry with ⟨hmark, heq⟩ | ⟨hmark, huntracked, heq⟩ |
    ⟨hmark, htracks, info, r, heq, hr⟩ | ⟨hmark, info, old, status, hold, heq⟩
  · rw [heq] at hupd
    cases hupd
    exact ⟨h.updated_removeRequest _, fun _ => rfl, nofun⟩
  · rw [heq] at hupd
    cases hupd
    refine ⟨{ Preserved.refl h with tracks := fun _ => id, untracked := ?_, frame := ?_ },
      fun _ => rfl, nofun⟩
    · intro id' hid _
      exact List.mem_singleton.mp hid ▸ huntracked
    · exact fun _ _ => rfl
  · rw [heq] at hupd
    cases hupd
    refine ⟨updated_of_tracks hmark htracks (h.setInfo htracks) (fun hexact => hexact) rfl
      fun _ _ => rfl, fun hdropped => absurd htracks (hdropped.resolve_left hmark), ?_⟩
    intro e he
    rcases hr with hr | ⟨hr, hstatus⟩
    · rw [hr] at he
      cases he
    · rw [hr] at he
      cases he
      exact ⟨rfl, hstatus⟩
  · rw [heq] at hupd
    cases hupd
    have htracks : t.Tracks entry.requestId := by rw [tracks_iff, hold]; simp
    refine ⟨updated_of_tracks hmark htracks (h.setBoth ..) (fun hexact => ?_) rfl
      fun id' hid => ?_, fun hdropped => absurd htracks (hdropped.resolve_left hmark), nofun⟩
    · exact hexact.moveStatus hold _
    · exact Dict.get?_set_of_ne _ _ hid

/-- The iterations of `update_request_status`, by induction on their list. -/
theorem Sound.updateEach (h : t.Sound) {isValidate : Bool} {entries : List StatusUpdate}
    {result : Except PyError (List Bool)}
    (hupd : Coroutine.perform t (updateEach isValidate entries) = (result, t')) :
    (∃ ids, ids <+: entries.map StatusUpdate.requestId ∧ Updated ids t t') ∧
    (∀ flags, result = .ok flags → Updated (entries.map StatusUpdate.requestId) t t' ∧
      List.Forall₂ (fun entry flag => t.Dropped entry.requestId → flag = false) entries flags) ∧
    ∀ e, result = .error e → e = .indexError "list index out of range" ∧
      ∃ entry ∈ entries, entry.status = none := by
  induction entries generalizing t t' result with
  | nil =>
      cases hupd
      refine ⟨⟨[], by simp, .refl h⟩, fun flags hflags => ?_, by simp⟩
      cases hflags
      exact ⟨.refl h, .nil⟩
  | cons entry rest ih =>
      simp only [RequestStatusTracker.updateEach, Coroutine.perform_bind] at hupd
      rcases hone : Coroutine.perform t (RequestStatusTracker.updateOne isValidate entry) with
        ⟨e | success, t1⟩
      · obtain ⟨hupdated, -, herror⟩ := h.updateOne hone
        rw [hone] at hupd
        cases hupd
        refine ⟨⟨[entry.requestId], by simp, hupdated⟩, by simp, fun e' he => ?_⟩
        cases he
        exact ⟨(herror _ rfl).1, entry, by simp, (herror _ rfl).2⟩
      · obtain ⟨hupdated, hflag, -⟩ := h.updateOne hone
        rw [hone] at hupd
        dsimp only at hupd
        rcases hrest : Coroutine.perform t1 (RequestStatusTracker.updateEach isValidate rest)
          with ⟨e | flags, t2⟩
        · obtain ⟨⟨ids, hpre, hrested⟩, -, herror⟩ := ih hupdated.sound hrest
          rw [hrest] at hupd
          cases hupd
          refine ⟨⟨entry.requestId :: ids, ?_, hupdated.cons hrested⟩, by simp, fun e' he => ?_⟩
          · exact List.cons_prefix_cons.mpr ⟨rfl, hpre⟩
          · cases he
            obtain ⟨heq, entry', hmem, hnone⟩ := herror _ rfl
            exact ⟨heq, entry', List.mem_cons_of_mem _ hmem, hnone⟩
        · obtain ⟨-, hok, -⟩ := ih hupdated.sound hrest
          obtain ⟨hrested, hflags⟩ := hok flags rfl
          rw [hrest] at hupd
          cases hupd
          refine ⟨⟨_, List.prefix_rfl, hupdated.cons hrested⟩, fun flags' heq => ?_, by simp⟩
          cases heq
          refine ⟨hupdated.cons hrested, .cons (fun hdropped => ?_) ?_⟩
          · have hsuccess := hflag hdropped
            cases hsuccess
            rfl
          · exact hflags.imp fun entry' flag himp hdropped => himp (hupdated.dropped _ hdropped)

/-! ### Whole calls -/

/-- The error of an update whose lists differ in length. -/
def lengthError : PyError :=
  .assertionError "request_id, model_version, and rollout_instance_id must have the same length."

/-- The iterations of a call go over its ids, and lack a status where the list of statuses
has ended. -/
theorem entries_ok {call : UpdateCall} {entries : List StatusUpdate}
    (h : call.entries = .ok entries) :
    entries.map StatusUpdate.requestId = call.requestId.toList ∧
      ((∃ entry ∈ entries, entry.status = none) →
        ∃ l, call.status = .list l ∧ l.length < call.requestId.toList.length) := by
  obtain ⟨_, hassert, h⟩ := bind_eq_ok.mp h
  obtain ⟨hversions, hinstances⟩ := pyAssert_eq_ok.mp hassert
  cases h
  constructor
  · rw [List.map_map]
    have hcomp : (StatusUpdate.requestId ∘ fun x : (Nat × Int × RolloutInstanceId) × Nat =>
        ({ requestId := x.1.1
           status := (call.status.broadcast call.requestId.toList.length)[x.2]?
           modelVersion := x.1.2.1
           rolloutInstanceId := x.1.2.2 } : StatusUpdate)) = Prod.fst ∘ Prod.fst := rfl
    rw [hcomp, ← List.map_map, List.zipIdx_map_fst, List.map_fst_zip]
    rw [List.length_zip, ← hinstances, ← hversions, Nat.min_self]
  · rintro ⟨entry, hmem, hnone⟩
    obtain ⟨⟨item, i⟩, hitem, rfl⟩ := List.mem_map.mp hmem
    have hi : i < call.requestId.toList.length := by
      have hlt := (List.mem_zipIdx hitem).2.1
      rw [List.length_zip] at hlt
      omega
    have hshort := List.getElem?_eq_none_iff.mp hnone
    cases hstatus : call.status with
    | scalar status =>
        simp only [hstatus, GroupField.broadcast, List.length_replicate] at hshort
        omega
    | list l =>
        simp only [hstatus, GroupField.broadcast] at hshort
        exact ⟨l, rfl, by omega⟩

theorem entries_error {call : UpdateCall} {e : PyError} (h : call.entries = .error e) :
    e = lengthError := by
  unfold UpdateCall.entries at h
  dsimp only at h
  unfold pyAssert at h
  split at h
  · cases h
  · cases h
    rfl

/-- A call of `update_request_status`. -/
theorem Sound.updateCall (h : t.Sound) {call : UpdateCall}
    {result : Except PyError (GroupField Bool)}
    (hupd : Coroutine.perform t (updateCall call) = (result, t')) :
    Preserved t t' ∧
    (∀ flags, result = .ok flags → Updated call.requestId.toList t t' ∧
      List.Forall₂ (fun id flag => t.Dropped id → flag = false)
        call.requestId.toList flags.toList) ∧
    ∀ e, result = .error e → call.entries = .error e ∨
      e = .indexError "list index out of range" ∧
        ∃ l, call.status = .list l ∧ l.length < call.requestId.toList.length := by
  unfold RequestStatusTracker.updateCall at hupd
  cases hentries : call.entries with
  | error e =>
      rw [hentries] at hupd
      cases hupd
      refine ⟨.refl h, nofun, fun e' he => ?_⟩
      cases he
      exact .inl rfl
  | ok entries =>
      obtain ⟨hids, hshort⟩ := entries_ok hentries
      rw [hentries] at hupd
      dsimp only at hupd
      rw [Coroutine.perform_bind] at hupd
      rcases hloop : Coroutine.perform t
        (RequestStatusTracker.updateEach call.isValidate entries) with ⟨e | flags, t1⟩
      · obtain ⟨⟨ids, -, hupdated⟩, -, herror⟩ := h.updateEach hloop
        rw [hloop] at hupd
        cases hupd
        refine ⟨hupdated.toPreserved, nofun, fun e' he => ?_⟩
        cases he
        exact .inr ⟨(herror _ rfl).1, hshort (herror _ rfl).2⟩
      · obtain ⟨hupdated, hflags⟩ := (h.updateEach hloop).2.1 flags rfl
        rw [hloop] at hupd
        rw [hids] at hupdated
        have hlist : ∃ flags', result = .ok flags' ∧ flags'.toList = flags ∧ t' = t1 := by
          rcases flags with _ | ⟨flag, _ | ⟨flag', flags⟩⟩
          all_goals
            cases hupd
            exact ⟨_, rfl, rfl, rfl⟩
        obtain ⟨flags', rfl, hflags', rfl⟩ := hlist
        refine ⟨hupdated.toPreserved, fun flags'' heq => ?_, nofun⟩
        cases heq
        refine ⟨hupdated, ?_⟩
        rw [hflags', ← hids, List.forall₂_map_left_iff]
        exact hflags

/-- `_abort_requests` marks the tracked requests among `ids` and removes some. -/
theorem abortRequests_eq {order : SetOrder Nat} {ids : Finset Nat} {commands : AbortCommands}
    (h : t.abortRequests order ids = .ok (commands, t')) :
    ∃ done, t' = RequestStatusTracker.removeRequest
      { t with abortRequestIds := t.abortRequestIds ∪ ids.filter t.Tracks } done := by
  unfold abortRequests at h
  dsimp only at h
  split at h
  · cases h
  · cases h
    exact ⟨_, rfl⟩

theorem Sound.preserved_mark (h : t.Sound) (ids : Finset Nat) : Preserved t
    { t with abortRequestIds := t.abortRequestIds ∪ ids.filter t.Tracks } where
  sound := ⟨h.keys, fun id hid => by
    rcases Finset.mem_union.mp hid with hid | hid
    · exact h.marked id hid
    · exact (Finset.mem_filter.mp hid).2⟩
  exact hexact := hexact
  dropped id hdropped := hdropped.imp (fun hmark => Finset.mem_union_left _ hmark) fun hnot => hnot

/-- A call of `_abort_requests` drops its requests, also if it raises. -/
theorem Sound.abortCall (h : t.Sound) (order : SetOrder Nat) (ids : Finset Nat)
    (sendFails : Bool) :
    Preserved t (Coroutine.perform t (abortCall order ids sendFails)).2 ∧
      ∀ id ∈ ids, (Coroutine.perform t (abortCall order ids sendFails)).2.Dropped id := by
  have hmarked := h.preserved_mark ids
  have hdropped : ∀ id ∈ ids, Dropped
      { t with abortRequestIds := t.abortRequestIds ∪ ids.filter t.Tracks } id := by
    intro id hid
    by_cases htracks : t.Tracks id
    · exact .inl (Finset.mem_union_right _ (Finset.mem_filter.mpr ⟨hid, htracks⟩))
    · exact .inr htracks
  obtain ⟨commands, t', habort, -⟩ := h.abortRequests order ids
  unfold RequestStatusTracker.abortCall
  simp only [Coroutine.perform_bind, Coroutine.perform_get, habort]
  split
  · exact ⟨hmarked, hdropped⟩
  · obtain ⟨done, rfl⟩ := abortRequests_eq habort
    have hremoved := hmarked.sound.preserved_removeRequest done
    exact ⟨hmarked.trans hremoved, fun id hid => hremoved.dropped id (hdropped id hid)⟩

theorem requests_ok {call : AddCall} {reqs : List NewRequest} (h : call.requests = .ok reqs) :
    reqs.map NewRequest.requestId = call.requestId.toList := by
  obtain ⟨_, hassert, h⟩ := bind_eq_ok.mp h
  obtain ⟨hinstances, hversions, hstatuses, hvalidates⟩ := pyAssert_eq_ok.mp hassert
  cases h
  rw [List.map_map]
  have hcomp : (NewRequest.requestId ∘
      fun x : Nat × RolloutInstanceId × Int × RequestStatus × Bool =>
        ({ requestId := x.1
           rolloutInstanceId := x.2.1
           modelVersion := x.2.2.1
           status := x.2.2.2.1
           isValidate := x.2.2.2.2 } : NewRequest)) = Prod.fst := rfl
  rw [hcomp, List.map_fst_zip]
  simp [hinstances, hversions, hstatuses, hvalidates]

/-- A call of `add_request` touches no other request. -/
theorem addRequest_frame (reqs : List NewRequest) (t : RequestStatusTracker)
    (hid : id ∉ reqs.map NewRequest.requestId) :
    (t.addRequest reqs).requestIdToStatus.get? id = t.requestIdToStatus.get? id ∧
      (t.addRequest reqs).abortRequestIds = t.abortRequestIds := by
  unfold addRequest
  induction reqs generalizing t with
  | nil => exact ⟨rfl, rfl⟩
  | cons req rest ih =>
      rw [List.map_cons, List.mem_cons, not_or] at hid
      obtain ⟨hstatus, hmarks⟩ := ih (t.addOne req) hid.2
      exact ⟨hstatus.trans (Dict.get?_set_of_ne _ _ hid.1), hmarks⟩

/-- By induction on the requests: each one finds its id free, or with the status it brings. -/
theorem Exact.addRequest {reqs : List NewRequest} (h : t.Exact)
    (hfree : ∀ req ∈ reqs, ∀ old, t.requestIdToStatus.get? req.requestId = some old →
      old = req.status)
    (hone : ∀ req ∈ reqs, ∀ req' ∈ reqs, req.requestId = req'.requestId →
      req.status = req'.status) : (t.addRequest reqs).Exact := by
  unfold RequestStatusTracker.addRequest
  induction reqs generalizing t with
  | nil => exact h
  | cons req rest ih =>
      refine ih (h.addOne (hfree req (by simp))) ?_ fun req1 h1 req2 h2 =>
        hone req1 (List.mem_cons_of_mem _ h1) req2 (List.mem_cons_of_mem _ h2)
      intro req' hmem old hold
      simp only [RequestStatusTracker.addOne, Dict.get?_set] at hold
      split at hold
      · rename_i heq
        cases hold
        exact hone req (by simp) req' (List.mem_cons_of_mem _ hmem) heq.symm
      · exact hfree req' (List.mem_cons_of_mem _ hmem) old hold

theorem perform_addCall (t : RequestStatusTracker) (call : AddCall) :
    (Coroutine.perform t (addCall call)).2 = match call.requests with
      | .ok reqs => t.addRequest reqs
      | .error _ => t := by
  unfold addCall
  cases call.requests <;> rfl

/-- A call that changes the state only when it returns. -/
theorem preserved_atomic {α : Type} {f : RequestStatusTracker →
      Except PyError (α × RequestStatusTracker)} (h : t.Sound)
    (hf : ∀ a t', f t = .ok (a, t') → Preserved t t') :
    Preserved t (Coroutine.perform t (Coroutine.atomic f)).2 := by
  rw [Coroutine.perform_atomic]
  cases hft : f t with
  | error e => exact .refl h
  | ok result => exact hf result.1 result.2 hft

theorem perform_forget {α : Type} (t : RequestStatusTracker)
    (call : Coroutine RequestStatusTracker α) :
    (Coroutine.perform t (forget call)).2 = (Coroutine.perform t call).2 := by
  unfold forget
  rw [Coroutine.perform_bind]
  rcases Coroutine.perform t call with ⟨_ | _, _⟩ <;> rfl

theorem Sound.preserved_updateRequestNTrajectory (h : t.Sound) {nTrajectory : Nat}
    (hupd : t.updateRequestNTrajectory id nTrajectory = .ok t') : Preserved t t' := by
  have hsound := (h.updateRequestNTrajectory hupd).sound
  unfold RequestStatusTracker.updateRequestNTrajectory at hupd
  split at hupd
  · cases hupd
  · split at hupd
    · cases hupd
    · cases hupd
      exact ⟨hsound, fun hexact => hexact, fun _ hdropped => hdropped⟩

/-- Every call but `add_request`. -/
theorem Sound.exec (h : t.Sound) {a : Action} (hadd : ∀ call, a ≠ .addRequest call)
    (hexec : t.exec a = .ok t') : Preserved t t' := by
  cases hexec
  cases a with
  | addRequest call => exact absurd rfl (hadd call)
  | updateRequestStatus call =>
      simp only [operation, perform_forget]
      exact (h.updateCall rfl).1
  | updateRequestNTrajectory requestId nTrajectory =>
      refine preserved_atomic h fun _ t' hupd => ?_
      obtain ⟨t1, hone, heq⟩ := map_eq_ok.mp hupd
      cases heq
      exact h.preserved_updateRequestNTrajectory hone
  | abortRequests order ids sendFails => exact (h.abortCall order ids sendFails).1
  | checkAbortedRequest requestId remove =>
      simp only [operation, perform_forget]
      refine preserved_atomic h fun aborted t' hcheck => ?_
      rcases h.checkAbortedRequest_ok hcheck with rfl | rfl
      · exact .refl h
      · exact h.preserved_removeRequest _
  | removeRequest ids => exact h.preserved_removeRequest ids
  | removeTrainReadyRequest ids =>
      refine preserved_atomic h fun _ t' hremove => ?_
      obtain ⟨t1, hone, heq⟩ := map_eq_ok.mp hremove
      cases heq
      obtain ⟨_, -, hone⟩ := bind_eq_ok.mp hone
      cases hone
      exact h.preserved_removeRequest ids
  | getRequestsOfAbortVersion version =>
      simp only [operation, perform_forget]
      refine preserved_atomic h fun ids t' hget => ?_
      obtain ⟨-, rfl⟩ := getRequestsOfAbortVersion_eq hget
      exact ⟨⟨h.keys, h.marked⟩, id, fun _ => id⟩

theorem Sound.exec_sound (h : t.Sound) {a : Action} (hexec : t.exec a = .ok t') : t'.Sound := by
  by_cases hadd : ∃ call, a = .addRequest call
  · obtain ⟨call, rfl⟩ := hadd
    cases hexec
    simp only [operation, perform_addCall]
    split
    · exact h.addRequest _
    · exact h
  · exact (h.exec (fun call heq => hadd ⟨call, heq⟩) hexec).sound

theorem Exact.exec (hexact : t.Exact) (h : t.Sound) {a : Action} (hfresh : t.Fresh a)
    (hone : OneStatus a) (hexec : t.exec a = .ok t') : t'.Exact := by
  by_cases hadd : ∃ call, a = .addRequest call
  · obtain ⟨call, rfl⟩ := hadd
    cases hexec
    simp only [operation, perform_addCall]
    cases hreqs : call.requests with
    | error e => exact hexact
    | ok reqs =>
        simp only [OneStatus, AddCall.OneStatus, hreqs] at hone
        refine hexact.addRequest (fun req hmem old hold => ?_) hone
        have hid : req.requestId ∈ call.requestId.toList := by
          rw [← requests_ok hreqs]
          exact List.mem_map_of_mem hmem
        exact absurd (tracks_iff.mpr (by rw [hold]; simp)) (hfresh _ hid)
  · exact (h.exec (fun call heq => hadd ⟨call, heq⟩) hexec).exact hexact

theorem Dropped.exec (hdropped : t.Dropped id) (h : t.Sound) {a : Action} (hadds : ¬ Adds id a)
    (hexec : t.exec a = .ok t') : t'.Dropped id := by
  by_cases hadd : ∃ call, a = .addRequest call
  · obtain ⟨call, rfl⟩ := hadd
    cases hexec
    simp only [operation, perform_addCall]
    cases hreqs : call.requests with
    | error e => exact hdropped
    | ok reqs =>
        have hid : id ∉ reqs.map NewRequest.requestId := by
          rw [requests_ok hreqs]
          exact hadds
        obtain ⟨hstatus, hmarks⟩ := addRequest_frame reqs t hid
        refine hdropped.imp (fun hmark => hmarks ▸ hmark) fun hnot => ?_
        rwa [tracks_iff, hstatus, ← tracks_iff]
  · exact (h.exec (fun call heq => hadd ⟨call, heq⟩) hexec).dropped id hdropped

end Coherent

/-! ### Runs -/

section Runs

variable {t : RequestStatusTracker} {config : TrackerConfig}

/-- **Runs of the tracker.** In every run in which only untracked requests are added, each with
one status: statuses and infos have the same keys, only such keys are marked, and the set of a
status holds exactly the requests with this status; a check of a request returns, and an update
raises only for lists of unequal length; an abortion drops its requests, and an update of a
dropped request answers `False` and leaves it without a status until it is added again, while
requests that a call does not name keep their status. -/
theorem tracker_coherent (hreach : Run.Reachable exec (fun t a => t.Fresh a ∧ OneStatus a)
    (new config) t) :
    (∀ id, t.requestInfos.get? id = none ↔ t.requestIdToStatus.get? id = none) ∧
    (∀ id ∈ t.abortRequestIds, t.Tracks id) ∧
    (∀ id status, id ∈ t.statusToRequestIds status ↔
      t.requestIdToStatus.get? id = some status) ∧
    (∀ id remove, ∃ aborted t', t.checkAbortedRequest id remove = .ok (aborted, t')) ∧
    (∀ call e, (Coroutine.perform t (updateCall call)).1 = .error e →
      e = lengthError ∧ call.entries = .error e ∨
      e = .indexError "list index out of range" ∧
        ∃ l, call.status = .list l ∧ l.length < call.requestId.toList.length) ∧
    (∀ order ids sendFails, ∀ id ∈ ids,
      (Coroutine.perform t (abortCall order ids sendFails)).2.Dropped id) ∧
    ∀ id, t.Dropped id → ∀ t', Run.Reachable exec (fun _ a => ¬ Adds id a) t t' →
      ∀ call flags t'', Coroutine.perform t' (updateCall call) = (.ok flags, t'') →
        (∀ i : Nat, call.requestId.toList[i]? = some id → flags.toList[i]? = some false) ∧
        (id ∈ call.requestId.toList → t''.requestIdToStatus.get? id = none) ∧
        ∀ id' ∉ call.requestId.toList,
          t''.requestIdToStatus.get? id' = t'.requestIdToStatus.get? id' := by
  have hinv : t.Sound ∧ t.Exact := by
    refine hreach.invariant (P := fun t => t.Sound ∧ t.Exact) ⟨sound_new config, ?_⟩ ?_
    · intro id status
      simp [new]
    · intro t a t' hinv hallowed hexec
      exact ⟨hinv.1.exec_sound hexec, hinv.2.exec hinv.1 hallowed.1 hallowed.2 hexec⟩
  obtain ⟨hsound, hexact⟩ := hinv
  refine ⟨hsound.keys, hsound.marked, hexact, fun id remove => ?_, fun call e he => ?_,
    fun order ids sendFails => (hsound.abortCall order ids sendFails).2, ?_⟩
  · rcases hsound.checkAbortedRequest_eq id remove with ⟨-, h⟩ | ⟨-, -, h⟩ | ⟨-, -, h⟩
    all_goals exact ⟨_, _, h⟩
  · rcases (hsound.updateCall rfl).2.2 e he with hentries | hshort
    · exact .inl ⟨entries_error hentries, hentries⟩
    · exact .inr hshort
  · intro id hdropped t' hrun call flags t'' hupd
    have hlater : t'.Sound ∧ t'.Dropped id :=
      hrun.invariant (P := fun t => t.Sound ∧ t.Dropped id) ⟨hsound, hdropped⟩
        fun s a s' hs hadds hexec => ⟨hs.1.exec_sound hexec, hs.2.exec hs.1 hadds hexec⟩
    obtain ⟨hupdated, hflags⟩ := (hlater.1.updateCall hupd).2.1 flags rfl
    refine ⟨fun i hi => ?_, fun hid => ?_, hupdated.frame⟩
    · obtain ⟨hlt, hget⟩ := List.getElem?_eq_some_iff.mp hi
      have hlt' : i < flags.toList.length := hflags.length_eq ▸ hlt
      rw [List.getElem?_eq_getElem hlt']
      exact congrArg some (hflags.get hlt hlt' (by rw [List.get_eq_getElem, hget]; exact hlater.2))
    · have huntracked := hupdated.untracked id hid hlater.2
      rwa [tracks_iff, not_not] at huntracked

/-- Request 5 is added twice in one call, starts to run and is aborted: it is in the set of the
running requests, and the next update of it answers `False`. -/
theorem tracker_coherent_aborted : ∃ t : RequestStatusTracker,
    Run.Reachable exec (fun t a => t.Fresh a ∧ OneStatus a) (new ⟨2, 2, 1⟩) t ∧
    5 ∈ t.abortRequestIds ∧ 5 ∈ t.statusToRequestIds .rolloutRunning ∧
    ∀ flags t'', Coroutine.perform t
      (updateCall { requestId := .scalar 5, status := .scalar .completed }) = (.ok flags, t'') →
      flags.toList[0]? = some false ∧ t''.requestIdToStatus.get? 5 = none := by
  obtain ⟨t, hreach, ht⟩ : ∃ t : RequestStatusTracker,
      Run.Reachable exec (fun t a => t.Fresh a ∧ OneStatus a) (new ⟨2, 2, 1⟩) t ∧
      decide (5 ∈ t.abortRequestIds ∧
        t.requestIdToStatus.get? 5 = some .rolloutRunning) = true :=
    Run.exists_reachable_of_perform (l := [.addRequest { requestId := .list [5, 5] },
      .updateRequestStatus { requestId := .scalar 5, status := .scalar .rolloutRunning },
      .abortRequests .ascendingNat {5} false]) (by decide +kernel)
  obtain ⟨hmark, hstatus⟩ := of_decide_eq_true ht
  obtain ⟨-, -, hexact, -, -, -, hdropped⟩ := tracker_coherent hreach
  refine ⟨t, hreach, hmark, (hexact 5 .rolloutRunning).mpr hstatus, fun flags t'' hupd => ?_⟩
  obtain ⟨hflag, hnone, -⟩ := hdropped 5 (.inl hmark) t .start _ flags t'' hupd
  exact ⟨hflag 0 rfl, hnone (by simp)⟩

/-- A call that adds a request twice, with two statuses: the request is in both sets, and after
its removal it still is in one. -/
theorem tracker_stale_status_set : ∃ t : RequestStatusTracker,
    Run.Reachable exec Fresh (new ⟨2, 2, 1⟩) t ∧
    5 ∈ t.statusToRequestIds .pending ∧ t.requestIdToStatus.get? 5 = some .running ∧
    ∃ t', t.exec (.removeRequest [5]) = .ok t' ∧ ¬ t'.Tracks 5 ∧
      5 ∈ t'.statusToRequestIds .pending := by
  obtain ⟨t, hreach, ht⟩ : ∃ t : RequestStatusTracker,
      Run.Reachable exec Fresh (new ⟨2, 2, 1⟩) t ∧
      decide (5 ∈ t.statusToRequestIds .pending ∧ t.requestIdToStatus.get? 5 = some .running ∧
        ¬ (t.removeRequest [5]).Tracks 5 ∧
        5 ∈ (t.removeRequest [5]).statusToRequestIds .pending) = true :=
    Run.exists_reachable_of_perform (l := [.addRequest
      { requestId := .list [5, 5], status := .list [.pending, .running] }]) (by decide +kernel)
  obtain ⟨hpending, hrunning, huntracked, hstill⟩ := of_decide_eq_true ht
  exact ⟨t, hreach, hpending, hrunning, _, rfl, huntracked, hstill⟩

end Runs

end RequestStatusTracker

end Psrl
