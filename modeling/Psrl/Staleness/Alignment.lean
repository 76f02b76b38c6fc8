import Psrl.Lib.Run
import Psrl.Staleness.Consistent

/-!
# Psrl.Staleness.Alignment

Do the fields of an entry say what its requests last recorded?

The inventory runs beside a ledger that simply remembers, for every request, the values
it was last reserved with or set to. An entry is `Aligned` when its scalar-or-list fields
give every recorded request the ledger's values. Each of the operations that change an
entry keeps this exactly under a condition on the entry before it (`KeepsAligned`):

* a request joins: `model_version` is already a list, or the request has its version;
* a request is changed: it is one of the recorded ones;
* requests are dropped: `n_trajectory` is still a scalar.
-/

namespace Psrl

open Py

/-- What is recorded for one request. -/
structure RequestValues where
  modelVersion : Int
  rolloutInstanceId : RolloutInstanceId
  nTrajectory : Nat
  deriving Repr, DecidableEq

def RequestInfo.values (req : RequestInfo) : RequestValues where
  modelVersion := req.modelVersion
  rolloutInstanceId := req.rolloutInstanceId
  nTrajectory := req.nTrajectory

namespace EntryInfo

variable {info info' : EntryInfo} {val : Nat → RequestValues}

/-- A field of a ledger in which the values of one request changed. -/
theorem field_update {β : Type} (f : RequestValues → β) (val : Nat → RequestValues) (idx : Nat)
    (new : RequestValues) : (fun i => f (Function.update val idx new i)) =
      fun i => if i = idx then f new else f (val i) := by
  funext i
  rw [Function.update_apply]
  split <;> rfl

/-- The fields of the entry give each recorded request its values. -/
structure Aligned (info : EntryInfo) (val : Nat → RequestValues) : Prop where
  nodup : info.requestIdx.toList.Nodup
  nonempty : info.requestIdx.toList ≠ []
  modelVersion : info.modelVersion.Records info.requestIdx.toList fun i => (val i).modelVersion
  rolloutInstanceId :
    info.rolloutInstanceId.Records info.requestIdx.toList fun i => (val i).rolloutInstanceId
  nTrajectory : info.nTrajectory.Records info.requestIdx.toList fun i => (val i).nTrajectory

/-- The version of an aligned entry is the minimum over exactly its recorded requests. -/
theorem Aligned.getEntryVersion_iff (h : info.Aligned val) {v : Int} :
    info.getEntryVersion = .ok v ↔
      (∃ i ∈ info.requestIdx.toList, (val i).modelVersion = v) ∧
        ∀ i ∈ info.requestIdx.toList, v ≤ (val i).modelVersion := by
  have hrec := h.modelVersion
  rw [getEntryVersion_eq_ok]
  cases hmv : info.modelVersion with
  | scalar a =>
      rw [hmv] at hrec
      have hval : ∀ i ∈ info.requestIdx.toList, (val i).modelVersion = a := hrec
      obtain ⟨i₀, hi₀⟩ := List.exists_mem_of_ne_nil _ h.nonempty
      simp only [GroupField.toList_scalar, List.mem_singleton, forall_eq]
      constructor
      · rintro ⟨rfl, -⟩
        exact ⟨⟨i₀, hi₀, hval i₀ hi₀⟩, fun i hi => (hval i hi).ge⟩
      · rintro ⟨⟨i, hi, rfl⟩, -⟩
        exact ⟨hval i hi, (hval i hi).le⟩
  | list l =>
      rw [hmv] at hrec
      rw [GroupField.toList_list, show l = _ from hrec]
      simp

theorem Aligned.getEntryVersion_ok (h : info.Aligned val) :
    ∃ v, info.getEntryVersion = .ok v := by
  have hrec := h.modelVersion
  unfold getEntryVersion
  cases hmv : info.modelVersion with
  | scalar a => exact ⟨a, rfl⟩
  | list l =>
      rw [hmv] at hrec
      refine pyMin_ok_of_ne_nil fun hnil => h.nonempty ?_
      rw [show l = _ from hrec] at hnil
      exact List.map_eq_nil_iff.mp hnil

theorem aligned_toEntryInfo {req : RequestInfo} (hval : val req.requestIdx = req.values) :
    req.toEntryInfo.Aligned val := by
  have hmem : ∀ i ∈ req.toEntryInfo.requestIdx.toList, i = req.requestIdx := by
    simp [RequestInfo.toEntryInfo]
  refine ⟨List.nodup_singleton _, List.cons_ne_nil _ _, fun i hi => ?_, fun i hi => ?_,
    fun i hi => ?_⟩
  all_goals
    dsimp only
    rw [hmem i hi, hval]
    rfl

section

variable (h : info.Aligned val)

include h

/-- A request that is already recorded leaves the entry aligned. -/
theorem Aligned.recordRequest_of_mem {req : RequestInfo}
    (hmem : req.requestIdx ∈ info.requestIdx.toList) : (info.recordRequest req).Aligned val := by
  rw [EntryInfo.recordRequest_of_mem hmem]
  exact ⟨h.nodup, h.nonempty, h.modelVersion, h.rolloutInstanceId, h.nTrajectory⟩

/-- A new request keeps the entry aligned exactly if no scalar version had to be spread: it
is spread over one request too many. -/
theorem Aligned.recordRequest_iff {req : RequestInfo}
    (hnew : req.requestIdx ∉ info.requestIdx.toList) :
    (info.recordRequest req).Aligned (Function.update val req.requestIdx req.values) ↔
      info.modelVersion.AgreesWith req.modelVersion := by
  rw [EntryInfo.recordRequest_of_not_mem hnew]
  have hversion := h.modelVersion.append_iff hnew
    (Nat.succ_ne_self info.requestIdx.toList.length) req.modelVersion
  rw [← hversion]
  constructor
  · intro ha
    have := ha.modelVersion
    rwa [field_update RequestValues.modelVersion] at this
  · intro hrec
    refine ⟨?_, by simp, ?_, ?_, ?_⟩
    · rw [GroupField.toList_list, List.nodup_append]
      refine ⟨h.nodup, List.nodup_singleton _, fun a ha b hb => ?_⟩
      rw [List.mem_singleton.mp hb]
      rintro rfl
      exact hnew ha
    · rw [field_update RequestValues.modelVersion]
      exact hrec
    · rw [field_update RequestValues.rolloutInstanceId]
      exact h.rolloutInstanceId.append hnew req.rolloutInstanceId
    · rw [field_update RequestValues.nTrajectory]
      exact h.nTrajectory.append hnew req.nTrajectory

/-- An entry with the same requests, in which the values of one request changed. -/
theorem Aligned.of_update {idx : Nat} {new : RequestValues}
    (hids : info'.requestIdx = info.requestIdx)
    (hversion : info'.modelVersion.Records info.requestIdx.toList
      fun i => if i = idx then new.modelVersion else (val i).modelVersion)
    (hinstance : info'.rolloutInstanceId.Records info.requestIdx.toList
      fun i => if i = idx then new.rolloutInstanceId else (val i).rolloutInstanceId)
    (htrajectory : info'.nTrajectory.Records info.requestIdx.toList
      fun i => if i = idx then new.nTrajectory else (val i).nTrajectory) :
    info'.Aligned (Function.update val idx new) where
  nodup := by rw [hids]; exact h.nodup
  nonempty := by rw [hids]; exact h.nonempty
  modelVersion := by rw [hids, field_update RequestValues.modelVersion]; exact hversion
  rolloutInstanceId := by rw [hids, field_update RequestValues.rolloutInstanceId]; exact hinstance
  nTrajectory := by rw [hids, field_update RequestValues.nTrajectory]; exact htrajectory

/-- Changing a version keeps the entry aligned exactly if the request is recorded. -/
theorem Aligned.updateModelVersion_iff {idx : Nat} {new : Int}
    (hupd : info.updateModelVersion idx new = .ok info') :
    info'.Aligned (Function.update val idx { val idx with modelVersion := new }) ↔
      idx ∈ info.requestIdx.toList ∨ info.modelVersion = .scalar new := by
  obtain ⟨field, hset, hupd⟩ := bind_eq_ok.mp hupd
  cases hupd
  rw [← h.modelVersion.setAt_iff h.nodup hset]
  refine ⟨fun ha => ?_, fun hrec =>
    h.of_update rfl hrec h.rolloutInstanceId.rewrite h.nTrajectory.rewrite⟩
  have := ha.modelVersion
  rwa [field_update RequestValues.modelVersion] at this

/-- Changing an instance id keeps the entry aligned exactly if the request is recorded. -/
theorem Aligned.updateRolloutInstanceId_iff {idx : Nat}
    {new : RolloutInstanceId} (hupd : info.updateRolloutInstanceId idx new = .ok info') :
    info'.Aligned (Function.update val idx { val idx with rolloutInstanceId := new }) ↔
      idx ∈ info.requestIdx.toList ∨ info.rolloutInstanceId = .scalar new := by
  obtain ⟨field, hset, hupd⟩ := bind_eq_ok.mp hupd
  cases hupd
  rw [← h.rolloutInstanceId.setAt_iff h.nodup hset]
  refine ⟨fun ha => ?_, fun hrec =>
    h.of_update rfl h.modelVersion.rewrite hrec h.nTrajectory.rewrite⟩
  have := ha.rolloutInstanceId
  rwa [field_update RequestValues.rolloutInstanceId] at this

/-- Changing a trajectory count keeps the entry aligned exactly if the request is recorded. -/
theorem Aligned.updateNTrajectory_iff {idx new : Nat}
    (hupd : info.updateNTrajectory idx new = .ok info') :
    info'.Aligned (Function.update val idx { val idx with nTrajectory := new }) ↔
      idx ∈ info.requestIdx.toList ∨ info.nTrajectory = .scalar new := by
  obtain ⟨field, hset, hupd⟩ := bind_eq_ok.mp hupd
  cases hupd
  rw [← h.nTrajectory.setAt_iff h.nodup hset]
  refine ⟨fun ha => ?_, fun hrec =>
    h.of_update rfl h.modelVersion.rewrite h.rolloutInstanceId.rewrite hrec⟩
  have := ha.nTrajectory
  rwa [field_update RequestValues.nTrajectory] at this

/-- Dropping requests, with one left, keeps the entry aligned exactly if there is no list of
trajectory counts or nothing was dropped. -/
theorem Aligned.dropRequests_iff {aborts : List Nat}
    (hleft : ∃ i ∈ info.requestIdx.toList, i ∉ aborts)
    (hdrop : info.dropRequests aborts = .ok info') : info'.Aligned val ↔
      info.nTrajectory.isList = false ∨ ∀ i ∈ info.requestIdx.toList, i ∉ aborts := by
  unfold EntryInfo.dropRequests at hdrop
  split at hdrop
  · cases hdrop
  · rename_i ids hids
    obtain ⟨hnodup, -, hversion, hinstance, htrajectory⟩ := h
    rw [hids, GroupField.toList_list] at hleft hnodup hversion hinstance htrajectory ⊢
    dsimp only at hdrop
    obtain ⟨inst', hinst', hinstance'⟩ := hinstance.select fun idx => decide (idx ∉ aborts)
    obtain ⟨mv', hmv', hversion'⟩ := hversion.select fun idx => decide (idx ∉ aborts)
    have hpick : GroupField.pickAt ids
        (GroupField.keptPositions (fun idx => decide (idx ∉ aborts)) ids) =
        .ok (ids.filter fun idx => decide (idx ∉ aborts)) := by
      have := GroupField.pickAt_keptPositions (fun idx => decide (idx ∉ aborts)) ids id
      rwa [List.map_id, List.map_id] at this
    rw [hinst', ok_bind, hmv', ok_bind, hpick, ok_bind] at hdrop
    cases hdrop
    have hiff := htrajectory.filter_iff fun idx => decide (idx ∉ aborts)
    simp only [decide_eq_true_eq] at hiff
    rw [← hiff]
    refine ⟨fun ha => ha.nTrajectory, fun hrec =>
      ⟨hnodup.filter _, ?_, hversion', hinstance', hrec⟩⟩
    obtain ⟨i, hi, hkeep⟩ := hleft
    exact List.ne_nil_of_mem (List.mem_filter.mpr ⟨hi, decide_eq_true hkeep⟩)

end

end EntryInfo

namespace StalenessInventory

variable {inv inv' : StalenessInventory}

/-! ### The inventory beside its ledger -/

/-- An inventory and, for every prompt and request, the values last reserved or set. -/
structure Ledgered where
  inv : StalenessInventory
  values : Nat → Nat → RequestValues

/-- The calls that change an entry. -/
inductive Change
  | reserve (req : RequestInfo) (maxStalenessBufferId : Option Int)
  | setVersionTag (requestId : Nat) (new : Int)
  | setInstanceId (requestId : Nat) (new : RolloutInstanceId)
  | setNTrajectory (requestId : Nat) (new : Nat)
  | dropRequests (promptId : Nat) (abortRequestIdxs : List Nat)

namespace Ledgered

variable {s s' : Ledgered}

/-- The ledger with new values for one request. -/
def write (s : Ledgered) (promptId idx : Nat) (new : RequestValues) : Nat → Nat → RequestValues :=
  Function.update s.values promptId (Function.update (s.values promptId) idx new)

/-- The ledger with a changed field of one request. -/
def amend (s : Ledgered) (requestId : Nat) (change : RequestValues → RequestValues) :
    Nat → Nat → RequestValues :=
  s.write (requestId / s.inv.rolloutN) (requestId % s.inv.rolloutN)
    (change (s.values (requestId / s.inv.rolloutN) (requestId % s.inv.rolloutN)))

/-- The request is recorded in the entry of its prompt. -/
def Recorded (s : Ledgered) (promptId idx : Nat) : Prop :=
  ∃ info ∈ s.inv.entryOf? promptId, idx ∈ info.getAllRequestRelativeIds

instance (s : Ledgered) (promptId idx : Nat) : Decidable (s.Recorded promptId idx) :=
  inferInstanceAs (Decidable (∃ info ∈ s.inv.entryOf? promptId, _))

/-- Perform a call on the inventory and note it in the ledger. A reservation of a recorded
request is a retry and records nothing. -/
def exec (s : Ledgered) : Change → Except PyError Ledgered
  | .reserve req maxId => do
    let (loc, inv) ← s.inv.reserveData req maxId
    if loc = none ∨ s.Recorded req.promptId req.requestIdx then .ok ⟨inv, s.values⟩
    else .ok ⟨inv, s.write req.promptId req.requestIdx req.values⟩
  | .setVersionTag requestId new => do
    let inv ← s.inv.updateRequestVersionTag requestId new
    .ok ⟨inv, s.amend requestId fun old => { old with modelVersion := new }⟩
  | .setInstanceId requestId new => do
    let inv ← s.inv.updateRequestInstanceId requestId new
    .ok ⟨inv, s.amend requestId fun old => { old with rolloutInstanceId := new }⟩
  | .setNTrajectory requestId new => do
    let inv ← s.inv.updateRequestNTrajectory requestId new
    .ok ⟨inv, s.amend requestId fun old => { old with nTrajectory := new }⟩
  | .dropRequests promptId aborts => do
    let inv ← s.inv.dropRequests promptId aborts
    .ok ⟨inv, s.values⟩

/-- A partial abort leaves some request of the group. -/
def HasSurvivors (s : Ledgered) : Change → Prop
  | .dropRequests promptId aborts =>
      ∀ info ∈ s.inv.entryOf? promptId, ∃ i ∈ info.getAllRequestRelativeIds, i ∉ aborts
  | _ => True

/-- Every entry says what its requests last recorded. -/
def Aligned (s : Ledgered) : Prop :=
  ∀ loc info, (s.inv.slot loc).entryInfo? = some info → info.Aligned (s.values info.promptId)

/-- What a call needs of the entry it changes, to keep it aligned. -/
def KeepsAligned (s : Ledgered) : Change → Prop
  | .reserve req _ => ∀ info ∈ s.inv.entryOf? req.promptId,
      req.requestIdx ∈ info.getAllRequestRelativeIds ∨
        info.modelVersion.AgreesWith req.modelVersion
  | .setVersionTag requestId new => ∀ info ∈ s.inv.entryOf? (requestId / s.inv.rolloutN),
      requestId % s.inv.rolloutN ∈ info.getAllRequestRelativeIds ∨
        info.modelVersion = .scalar new
  | .setInstanceId requestId new => ∀ info ∈ s.inv.entryOf? (requestId / s.inv.rolloutN),
      requestId % s.inv.rolloutN ∈ info.getAllRequestRelativeIds ∨
        info.rolloutInstanceId = .scalar new
  | .setNTrajectory requestId new => ∀ info ∈ s.inv.entryOf? (requestId / s.inv.rolloutN),
      requestId % s.inv.rolloutN ∈ info.getAllRequestRelativeIds ∨
        info.nTrajectory = .scalar new
  | .dropRequests promptId aborts => ∀ info ∈ s.inv.entryOf? promptId,
      info.nTrajectory.isList = false ∨ ∀ i ∈ info.getAllRequestRelativeIds, i ∉ aborts

instance (s : Ledgered) : (c : Change) → Decidable (s.HasSurvivors c)
  | .dropRequests promptId aborts => inferInstanceAs (Decidable
      (∀ info ∈ s.inv.entryOf? promptId, ∃ i ∈ info.getAllRequestRelativeIds, i ∉ aborts))
  | .reserve _ _ => inferInstanceAs (Decidable True)
  | .setVersionTag _ _ => inferInstanceAs (Decidable True)
  | .setInstanceId _ _ => inferInstanceAs (Decidable True)
  | .setNTrajectory _ _ => inferInstanceAs (Decidable True)

instance (s : Ledgered) : (c : Change) → Decidable (s.KeepsAligned c)
  | .reserve req _ => inferInstanceAs (Decidable (∀ info ∈ s.inv.entryOf? req.promptId, _))
  | .setVersionTag requestId _ => inferInstanceAs (Decidable
      (∀ info ∈ s.inv.entryOf? (requestId / s.inv.rolloutN), _))
  | .setInstanceId requestId _ => inferInstanceAs (Decidable
      (∀ info ∈ s.inv.entryOf? (requestId / s.inv.rolloutN), _))
  | .setNTrajectory requestId _ => inferInstanceAs (Decidable
      (∀ info ∈ s.inv.entryOf? (requestId / s.inv.rolloutN), _))
  | .dropRequests promptId _ => inferInstanceAs (Decidable
      (∀ info ∈ s.inv.entryOf? promptId, _))

theorem write_of_ne {promptId idx q : Nat} {new : RequestValues} (h : q ≠ promptId) :
    s.write promptId idx new q = s.values q := Function.update_of_ne h ..

theorem write_self {promptId idx : Nat} {new : RequestValues} :
    s.write promptId idx new promptId = Function.update (s.values promptId) idx new :=
  Function.update_self ..

/-- When one entry is rewritten and the ledger changes for its prompt only, everything
depends on that entry. -/
theorem aligned_rewrite_iff (hw : s.inv.Wf) (ha : s.Aligned) {loc : Int × Nat}
    {info info' : EntryInfo} (hinfo : (s.inv.slot loc).entryInfo? = some info)
    (hid : info'.promptId = info.promptId)
    (hslot : s'.inv.slot = Function.update s.inv.slot loc ((s.inv.slot loc).setInfo info'))
    (hvalues : ∀ q, q ≠ info.promptId → s'.values q = s.values q) :
    s'.Aligned ↔ info'.Aligned (s'.values info.promptId) := by
  constructor
  · intro ha'
    rw [← hid]
    refine ha' loc info' ?_
    rw [hslot, Function.update_self]
    exact Entry.entryInfo?_setInfo hinfo
  · intro hnew l i hi
    rw [hslot, Function.update_apply] at hi
    split at hi
    · rw [Entry.entryInfo?_setInfo hinfo] at hi
      cases hi
      rw [hid]
      exact hnew
    · rename_i hne
      -- another slot holds another prompt
      have hp : i.promptId ≠ info.promptId := fun hp => hne <|
        hw.tracked.unique (k := info.promptId)
          (by unfold content Entry.promptId?; rw [hi, ← hp]; rfl)
          (by unfold content Entry.promptId?; rw [hinfo]; rfl)
      rw [hvalues _ hp]
      exact ha l i hi

/-- A returning `update_request_*`, whose effect on an aligned entry is `hiff`. -/
theorem amend_iff (hc : s.inv.Consistent) (ha : s.Aligned) {requestId : Nat}
    {update : EntryInfo → Nat → Except PyError EntryInfo}
    (change : RequestValues → RequestValues) (ok : EntryInfo → Nat → Prop)
    (hid : ∀ info idx info', update info idx = .ok info' → info'.promptId = info.promptId)
    (hiff : ∀ {info info' : EntryInfo} {val : Nat → RequestValues} {idx : Nat},
      info.Aligned val → update info idx = .ok info' →
        (info'.Aligned (Function.update val idx (change (val idx))) ↔ ok info idx))
    (h : s.inv.updateRequest requestId update = .ok inv') :
    inv'.Consistent ∧ (Aligned ⟨inv', s.amend requestId change⟩ ↔
      ∀ info ∈ s.inv.entryOf? (requestId / s.inv.rolloutN),
        ok info (requestId % s.inv.rolloutN)) := by
  obtain ⟨loc, info, info', hrew, hp, hupd⟩ := hc.updateRequest hid h
  refine ⟨hrew.consistent hc, ?_⟩
  have hentry := hc.wf.entryOf?_eq_some.mpr ⟨hp, loc, hrew.here⟩
  have hrewrite : Aligned ⟨inv', s.amend requestId change⟩ ↔
      info'.Aligned (s.amend requestId change info.promptId) :=
    aligned_rewrite_iff hc.wf ha hrew.here hrew.prompt hrew.edit.slot fun q hq =>
      write_of_ne (by rw [← hp]; exact hq)
  have hval : s.amend requestId change info.promptId =
      Function.update (s.values info.promptId) (requestId % s.inv.rolloutN)
        (change (s.values info.promptId (requestId % s.inv.rolloutN))) := by
    unfold amend
    rw [hp, write_self]
  rw [hrewrite, hval, hiff (ha loc info hrew.here) hupd, hentry]
  simp

/-- A returning reservation. -/
theorem reserve_iff (hc : s.inv.Consistent) (ha : s.Aligned) {req : RequestInfo}
    {maxId : Option Int} (h : s.exec (.reserve req maxId) = .ok s') :
    s'.inv.Consistent ∧ (s'.Aligned ↔ s.KeepsAligned (.reserve req maxId)) := by
  obtain ⟨⟨r, inv'⟩, hres, h⟩ := bind_eq_ok.mp h
  dsimp only at h
  obtain ⟨hc', -, heffect, hrefused⟩ := hc.reserveData hres
  cases heffect with
  | refused hgrown =>
      rw [if_pos (.inl rfl)] at h
      cases h
      have hnone : s.inv.entryOf? req.promptId = none := by
        unfold entryOf?
        rw [hrefused rfl]
        rfl
      refine ⟨hc', iff_of_true (fun l i hi => ha l i ?_) fun info hinfo => ?_⟩
      · rw [← hgrown.slot]
        exact hi
      · rw [hnone] at hinfo
        cases hinfo
  | fresh loc hnew hfree hslot =>
      have hnone : ∀ info, s.inv.entryOf? req.promptId ≠ some info := by
        intro info hinfo
        obtain ⟨hp, l, hl⟩ := hc.wf.entryOf?_eq_some.mp hinfo
        refine hc.wf.promptCategory_eq_none.mp hnew l ?_
        unfold content Entry.promptId?
        rw [hl, ← hp]
        rfl
      have hrec : ¬ s.Recorded req.promptId req.requestIdx := fun ⟨info, hinfo, _⟩ =>
        hnone info hinfo
      rw [if_neg fun hor => hor.elim nofun hrec] at h
      cases h
      refine ⟨hc', iff_of_true (fun l i hi => ?_) fun info hinfo => absurd hinfo (hnone info)⟩
      dsimp only at hi ⊢
      rw [hslot, Function.update_apply] at hi
      split at hi
      · cases hi
        refine EntryInfo.aligned_toEntryInfo ?_
        show s.write req.promptId req.requestIdx req.values req.promptId req.requestIdx = _
        rw [write_self, Function.update_self]
      · have hp : i.promptId ≠ req.promptId := fun hp =>
          hnone i (hc.wf.entryOf?_eq_some.mpr ⟨hp, l, hi⟩)
        rw [write_of_ne hp]
        exact ha l i hi
  | joined loc info hinfo hp hslot =>
      have hentry := hc.wf.entryOf?_eq_some.mpr ⟨hp, loc, hinfo⟩
      have hid := EntryInfo.recordRequest_promptId info req
      have hkeeps : s.KeepsAligned (.reserve req maxId) ↔
          (req.requestIdx ∈ info.requestIdx.toList ∨
            info.modelVersion.AgreesWith req.modelVersion) := by
        unfold KeepsAligned
        dsimp only
        rw [hentry]
        simp [EntryInfo.getAllRequestRelativeIds]
      rw [hkeeps]
      by_cases hmem : req.requestIdx ∈ info.requestIdx.toList
      · -- a retry
        rw [if_pos (.inr ⟨info, hentry, hmem⟩)] at h
        cases h
        have hrewrite : Aligned ⟨inv', s.values⟩ ↔ _ :=
          aligned_rewrite_iff hc.wf ha hinfo hid hslot fun _ _ => rfl
        exact ⟨hc', iff_of_true
          (hrewrite.mpr ((ha loc info hinfo).recordRequest_of_mem hmem)) (.inl hmem)⟩
      · have hrec : ¬ s.Recorded req.promptId req.requestIdx := by
          rintro ⟨info0, hinfo0, hmem0⟩
          obtain rfl : info = info0 := Option.some.inj (hentry.symm.trans hinfo0)
          exact hmem hmem0
        rw [if_neg fun hor => hor.elim nofun hrec] at h
        cases h
        have hrewrite : Aligned ⟨inv', s.write req.promptId req.requestIdx req.values⟩ ↔ _ :=
          aligned_rewrite_iff hc.wf ha hinfo hid hslot fun q hq =>
            write_of_ne (by rw [← hp]; exact hq)
        refine ⟨hc', hrewrite.trans ?_⟩
        dsimp only
        rw [← hp, write_self, (ha loc info hinfo).recordRequest_iff hmem]
        simp [hmem]

/-- Every returning call keeps the tracker exact, and keeps an aligned inventory aligned
exactly under its condition. -/
theorem step_iff (hc : s.inv.Consistent) (ha : s.Aligned) {c : Change}
    (hleft : s.HasSurvivors c) (h : s.exec c = .ok s') :
    s'.inv.Consistent ∧ (s'.Aligned ↔ s.KeepsAligned c) := by
  cases c with
  | reserve req maxId => exact reserve_iff hc ha h
  | setVersionTag requestId new =>
      obtain ⟨inv', hupd, h⟩ := bind_eq_ok.mp h
      cases h
      exact amend_iff hc ha (fun old => { old with modelVersion := new })
        (fun info idx => idx ∈ info.getAllRequestRelativeIds ∨ info.modelVersion = .scalar new)
        (fun info idx info' h => by
          obtain ⟨_, -, h⟩ := bind_eq_ok.mp h
          cases h
          rfl)
        (fun ha' h' => ha'.updateModelVersion_iff h') hupd
  | setInstanceId requestId new =>
      obtain ⟨inv', hupd, h⟩ := bind_eq_ok.mp h
      cases h
      exact amend_iff hc ha (fun old => { old with rolloutInstanceId := new })
        (fun info idx => idx ∈ info.getAllRequestRelativeIds ∨ info.rolloutInstanceId = .scalar new)
        (fun info idx info' h => by
          obtain ⟨_, -, h⟩ := bind_eq_ok.mp h
          cases h
          rfl)
        (fun ha' h' => ha'.updateRolloutInstanceId_iff h') hupd
  | setNTrajectory requestId new =>
      obtain ⟨inv', hupd, h⟩ := bind_eq_ok.mp h
      cases h
      exact amend_iff hc ha (fun old => { old with nTrajectory := new })
        (fun info idx => idx ∈ info.getAllRequestRelativeIds ∨ info.nTrajectory = .scalar new)
        (fun info idx info' h => by
          obtain ⟨_, -, h⟩ := bind_eq_ok.mp h
          cases h
          rfl)
        (fun ha' h' => ha'.updateNTrajectory_iff h') hupd
  | dropRequests promptId aborts =>
      obtain ⟨inv', hdrop, h⟩ := bind_eq_ok.mp h
      cases h
      obtain ⟨loc, info, info', hrew, hp, hinfo'⟩ := hc.dropRequests hdrop
      have hentry := hc.wf.entryOf?_eq_some.mpr ⟨hp, loc, hrew.here⟩
      have hrewrite : Aligned ⟨inv', s.values⟩ ↔ _ :=
        aligned_rewrite_iff hc.wf ha hrew.here hrew.prompt hrew.edit.slot fun _ _ => rfl
      refine ⟨hrew.consistent hc, hrewrite.trans ?_⟩
      dsimp only
      rw [(ha loc info hrew.here).dropRequests_iff (hleft info hentry) hinfo']
      unfold KeepsAligned
      dsimp only
      rw [hentry]
      simp [EntryInfo.getAllRequestRelativeIds]

/-- **Alignment.** In every run whose calls meet their condition, every field of every entry
gives each recorded request the value last reserved or set for it, and the version of the
entry is the minimum over exactly these requests. The condition is exact: in a state of
such a run a returning call keeps all entries aligned if and only if it meets it. -/
theorem aligned_run (config : InventoryConfig) (values : Nat → Nat → RequestValues)
    (h : Run.Reachable exec (fun s c => s.HasSurvivors c ∧ s.KeepsAligned c)
      ⟨new config, values⟩ s) :
    (∀ loc info, (s.inv.slot loc).entryInfo? = some info →
      info.Aligned (s.values info.promptId) ∧ ∃ v, info.getEntryVersion = .ok v ∧
        (∃ i ∈ info.getAllRequestRelativeIds, (s.values info.promptId i).modelVersion = v) ∧
        ∀ i ∈ info.getAllRequestRelativeIds, v ≤ (s.values info.promptId i).modelVersion) ∧
    ∀ c s', s.HasSurvivors c → s.exec c = .ok s' → (s'.Aligned ↔ s.KeepsAligned c) := by
  have hrun : s.inv.Consistent ∧ s.Aligned := by
    refine h.invariant (P := fun s => s.inv.Consistent ∧ s.Aligned)
      ⟨consistent_new config, fun _ _ hi => by cases hi⟩ fun s c s' hs hc hexec => ?_
    obtain ⟨hc', hiff⟩ := step_iff hs.1 hs.2 hc.1 hexec
    exact ⟨hc', hiff.mpr hc.2⟩
  refine ⟨fun loc info hinfo => ?_, fun c s' hleft hexec => (step_iff hrun.1 hrun.2 hleft hexec).2⟩
  have ha := hrun.2 loc info hinfo
  obtain ⟨v, hv⟩ := ha.getEntryVersion_ok
  exact ⟨ha, v, hv, ha.getEntryVersion_iff.mp hv⟩

/-- Request `idx` of prompt 0, with one trajectory. -/
def requestOfGroup (idx : Nat) (modelVersion : Int) : RequestInfo where
  rolloutInstanceId := ("gen", 0)
  promptId := 0
  requestIdx := idx
  modelVersion := modelVersion

/-- A group of two requests, one of which is raised and the other aborted. -/
theorem aligned_run_two_requests :
    ∃ s, Run.Reachable exec (fun s c => s.HasSurvivors c ∧ s.KeepsAligned c)
        ⟨new ⟨some 5, 2, 2, 4, false⟩, fun _ _ => ⟨0, ("", 0), 1⟩⟩ s ∧
      ∃ loc info, (s.inv.slot loc).entryInfo? = some info ∧
        info.requestIdx = .list [1] ∧ info.modelVersion = .list [6] ∧
        info.Aligned (s.values info.promptId) := by
  obtain ⟨s, hrun, hp⟩ : ∃ s, Run.Reachable exec
      (fun s c => s.HasSurvivors c ∧ s.KeepsAligned c)
        ⟨new ⟨some 5, 2, 2, 4, false⟩, fun _ _ => ⟨0, ("", 0), 1⟩⟩ s ∧
      decide (∃ info ∈ (s.inv.slot (10, 1)).entryInfo?,
        info.requestIdx = .list [1] ∧ info.modelVersion = .list [6]) = true :=
    Run.exists_reachable_of_perform (l := [.reserve (requestOfGroup 0 5) (some 10),
      .reserve (requestOfGroup 1 5) (some 10), .setVersionTag 1 6, .dropRequests 0 [0]])
      (by decide +kernel)
  obtain ⟨info, hinfo, hids, hversion⟩ := of_decide_eq_true hp
  exact ⟨s, hrun, _, info, hinfo, hids, hversion, ((aligned_run _ _ hrun).1 _ info hinfo).1⟩

/-- A second request with another version: the scalar is spread over both requests and the
new version appended. Once both requests were raised to 7, the entry still holds the
version 6 that no request has any more, and that is its minimum. -/
theorem misaligned_run :
    ∃ s, Run.Reachable exec HasSurvivors
        ⟨new ⟨some 5, 2, 2, 4, false⟩, fun _ _ => ⟨0, ("", 0), 1⟩⟩ s ∧
      ∃ loc info, (s.inv.slot loc).entryInfo? = some info ∧
        info.requestIdx = .list [0, 1] ∧ info.modelVersion = .list [7, 7, 6] ∧
        (∀ i ∈ info.getAllRequestRelativeIds, (s.values info.promptId i).modelVersion = 7) ∧
        info.getEntryVersion = .ok 6 := by
  obtain ⟨s, hrun, hp⟩ : ∃ s, Run.Reachable exec HasSurvivors
        ⟨new ⟨some 5, 2, 2, 4, false⟩, fun _ _ => ⟨0, ("", 0), 1⟩⟩ s ∧
      decide (∃ info ∈ (s.inv.slot (10, 1)).entryInfo?,
        info.requestIdx = .list [0, 1] ∧ info.modelVersion = .list [7, 7, 6] ∧
        ∀ i ∈ info.getAllRequestRelativeIds,
          (s.values info.promptId i).modelVersion = 7) = true :=
    Run.exists_reachable_of_perform (l := [.reserve (requestOfGroup 0 5) (some 10),
      .reserve (requestOfGroup 1 6) (some 11), .setVersionTag 0 7, .setVersionTag 1 7])
      (by decide +kernel)
  obtain ⟨info, hinfo, hids, hversion, hvalues⟩ := of_decide_eq_true hp
  refine ⟨s, hrun, _, info, hinfo, hids, hversion, hvalues, ?_⟩
  unfold EntryInfo.getEntryVersion
  rw [hversion]
  decide

end Ledgered

end StalenessInventory

end Psrl
