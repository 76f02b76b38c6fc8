import Mathlib.Data.Finset.Option
import Mathlib.Data.Fintype.Basic
import Psrl.Lib.Python
import Psrl.Lib.Run

/-!
# Psrl.Coordinator.Sync

Synchronising replicas with the parameter server (`SyncAndMigrateMixin.sync_with_ps` and
`_finish_gateway_sync`), as seen by the gateway.

A sync pauses its replicas, asks each of them to pull, publishes a version to the gateway
before the pulls are over, and corrects what it published once it knows what was pulled. It
reads `ps_model_version` four times; at every `await` in between the version may rise. The
calls of `sync_with_ps` are processes that take one step from `await` to `await`, so any
number of them, blocking or not, interleave with each other and with
`set_ps_model_version`.

`synced p` names the last sync that completed for the replica `p`, as long as no other sync of
`p` has started. The invariant follows a sync through its phases: what was offered to the
gateway, what was gathered from the replicas, and what is published in the end (`final`).
-/

namespace Psrl

open Py

/-- Where a call of `sync_with_ps` is. -/
inductive SyncPhase
  | unused
  /-- awaiting `is_sleeping` -/
  | asking
  /-- in `_wait_for_replica_syncs` -/
  | waiting
  /-- pausing routing and the replicas -/
  | pausing
  /-- the pulls are requested, the gateway has not seen the version -/
  | publishing
  | published
  /-- resuming routing -/
  | resuming
  /-- in `_finish_gateway_sync`, awaiting the pulls -/
  | pulling
  /-- the gateway has not seen the corrections -/
  | correcting
  /-- awaiting `resume_after_sync` -/
  | restarting
  | done
  | failed
  deriving DecidableEq

/-- A call of `sync_with_ps`, with its local variables. -/
structure SyncCall (Call Replica : Type) where
  phase : SyncPhase
  replicas : Finset Replica
  waitModelSync : Bool
  /-- the syncs it waits for -/
  pending : Finset Call
  /-- `ps_model_version` as read for the pulls and the first publication -/
  requested : Nat
  /-- `ps_model_version` as read for `_finish_gateway_sync` -/
  advertised : Nat
  /-- what the pulls returned so far -/
  pulled : Replica → Option Nat

structure SyncSystem (Call Replica : Type) where
  psModelVersion : Nat
  /-- `instance_to_version_after_sync` -/
  versionAfterSync : Replica × Nat → Nat
  /-- the version the gateway was told last -/
  published : Replica × Nat → Nat
  replicaSyncTasks : Replica → Option Call
  call : Call → SyncCall Call Replica
  synced : Replica → Option Call

namespace SyncPhase

/-- The sync has started to change its replicas and is not over. -/
@[simp] def Active : SyncPhase → Prop
  | pausing | publishing | published | resuming | pulling | correcting | restarting => True
  | _ => False

/-- The gateway holds the version of the first publication. -/
@[simp] def Offered : SyncPhase → Prop
  | published | resuming | pulling | correcting => True
  | _ => False

/-- The pulls are over and their versions are recorded. -/
@[simp] def Gathered : SyncPhase → Prop
  | correcting | restarting => True
  | _ => False

/-- The pulls are on their way. -/
@[simp] def Pulls : SyncPhase → Prop
  | publishing | published | resuming | pulling => True
  | _ => False

/-- The call has begun and is not over. -/
@[simp] def Pending : SyncPhase → Prop
  | unused | done | failed => False
  | _ => True

instance : DecidablePred Active := fun phase => by cases phase <;> simp <;> infer_instance
instance : DecidablePred Pulls := fun phase => by cases phase <;> simp <;> infer_instance
instance : DecidablePred Pending := fun phase => by cases phase <;> simp <;> infer_instance

end SyncPhase

/-- What a sync leaves at the gateway for a replica that pulled `version`: only versions other
than the advertised one are corrected. -/
def SyncCall.final {Call Replica : Type} (c : SyncCall Call Replica) (version : Nat) : Nat :=
  if version = c.advertised then c.requested else version

namespace SyncSystem

variable {Call Replica : Type}

def init (version : Nat) : SyncSystem Call Replica where
  psModelVersion := version
  versionAfterSync _ := version
  published _ := version
  replicaSyncTasks _ := none
  call _ := ⟨.unused, ∅, false, ∅, 0, 0, fun _ => none⟩
  synced _ := none

inductive Action (Call Replica : Type)
  | callSync (k : Call) (ids : Finset (Replica × Nat)) (waitModelSync : Bool)
  /-- `is_sleeping` has answered -/
  | hearSleeping (k : Call) (sleeping : Finset Replica)
  /-- the pending syncs are over -/
  | start (k : Call)
  /-- the replicas are paused: request the pulls and send the version to the gateway -/
  | requestPulls (k : Call)
  | gatewayPublishes (k : Call)
  | publishReturns (k : Call)
  /-- routing is resumed: enter `_finish_gateway_sync` -/
  | resumeRouting (k : Call)
  /-- `pull_model_for_sync` of a replica returns -/
  | pull (k : Call) (p : Replica) (version : Nat)
  | gatherPulls (k : Call)
  | gatewayCorrects (k : Call)
  | finish (k : Call)
  /-- an exception ends the sync -/
  | fail (k : Call)
  | setPsModelVersion (version : Nat)

section Steps

variable [DecidableEq Call] [DecidableEq Replica]

/-- `_expand_replica_instance_ids`. -/
def expandReplicaInstanceIds (instanceIds ids : Finset (Replica × Nat)) : Finset (Replica × Nat) :=
  instanceIds.filter fun id => id.1 ∈ ids.image Prod.fst

/-- When the program takes which step. -/
def Enabled (w : SyncSystem Call Replica) : Action Call Replica → Prop
  | .callSync k _ _ => (w.call k).phase = .unused
  | .hearSleeping k _ => (w.call k).phase = .asking
  | .start k => (w.call k).phase = .waiting ∧ ∀ j ∈ (w.call k).pending, (w.call j).phase = .done
  | .requestPulls k => (w.call k).phase = .pausing
  | .gatewayPublishes k => (w.call k).phase = .publishing
  | .publishReturns k => (w.call k).phase = .published
  | .resumeRouting k => (w.call k).phase = .resuming
  | .pull k p version => (w.call k).phase.Pulls ∧ p ∈ (w.call k).replicas ∧
      (w.call k).pulled p = none ∧ (w.call k).requested ≤ version
  | .gatherPulls k => (w.call k).phase = .pulling ∧
      ∀ p ∈ (w.call k).replicas, (w.call k).pulled p ≠ none
  | .gatewayCorrects k => (w.call k).phase = .correcting
  | .finish k => (w.call k).phase = .restarting
  | .fail k => (w.call k).phase.Pending
  | .setPsModelVersion version => w.psModelVersion < version

instance (w : SyncSystem Call Replica) (a : Action Call Replica) : Decidable (w.Enabled a) := by
  cases a <;> unfold Enabled <;> infer_instance

/-- Change the local state of a call. -/
def setCall (w : SyncSystem Call Replica) (k : Call) (c : SyncCall Call Replica) :
    SyncSystem Call Replica :=
  { w with call := Function.update w.call k c }

/-- `on_done` of `_track_model_sync_task`. -/
def untrack (w : SyncSystem Call Replica) (k : Call) : SyncSystem Call Replica :=
  { w with replicaSyncTasks := fun p =>
      if w.replicaSyncTasks p = some k then none else w.replicaSyncTasks p }

/-- One step of a call, from `await` to `await`. -/
def exec (instanceIds : Finset (Replica × Nat)) (w : SyncSystem Call Replica) :
    Action Call Replica → Except PyError (SyncSystem Call Replica)
  | .callSync k ids waitModelSync =>
      .ok (w.setCall k { w.call k with
        phase := .asking
        replicas := (expandReplicaInstanceIds instanceIds ids).image Prod.fst
        waitModelSync := waitModelSync })
  | .hearSleeping k sleeping =>
      let replicas := (w.call k).replicas \ sleeping
      .ok (w.setCall k { w.call k with
        phase := if replicas = ∅ then .done else .waiting
        replicas := replicas
        pending := replicas.biUnion fun p => (w.replicaSyncTasks p).toFinset })
  | .start k =>
      .ok ({ w with
        synced := fun p => if p ∈ (w.call k).replicas then none else w.synced p }.setCall
        k { w.call k with phase := .pausing })
  | .requestPulls k =>
      .ok (w.setCall k { w.call k with
        phase := .publishing
        requested := w.psModelVersion
        pulled := fun _ => none })
  | .gatewayPublishes k =>
      .ok ({ w with published := fun i =>
          if i ∈ instanceIds ∧ i.1 ∈ (w.call k).replicas then (w.call k).requested
          else w.published i }.setCall k { w.call k with phase := .published })
  | .publishReturns k =>
      .ok ({ w with versionAfterSync := fun i =>
          if i ∈ instanceIds ∧ i.1 ∈ (w.call k).replicas then w.psModelVersion
          else w.versionAfterSync i }.setCall k { w.call k with phase := .resuming })
  | .resumeRouting k =>
      .ok ({ w with replicaSyncTasks := fun p =>
          -- a blocking sync is not tracked
          if (w.call k).waitModelSync = false ∧ p ∈ (w.call k).replicas then some k
          else w.replicaSyncTasks p }.setCall k
        { w.call k with phase := .pulling, advertised := w.psModelVersion })
  | .pull k p version =>
      .ok (w.setCall k { w.call k with
        pulled := Function.update (w.call k).pulled p (some version) })
  | .gatherPulls k =>
      .ok ({ w with versionAfterSync := fun i =>
          if i ∈ instanceIds ∧ i.1 ∈ (w.call k).replicas then
            ((w.call k).pulled i.1).getD 0
          else w.versionAfterSync i }.setCall k
        { w.call k with phase :=
            if ∀ p ∈ (w.call k).replicas, (w.call k).pulled p = some (w.call k).advertised then
              .restarting
            else .correcting })
  | .gatewayCorrects k =>
      .ok ({ w with published := fun i =>
          if i ∈ instanceIds ∧ i.1 ∈ (w.call k).replicas ∧
              (w.call k).pulled i.1 ≠ some (w.call k).advertised then
            ((w.call k).pulled i.1).getD 0
          else w.published i }.setCall k { w.call k with phase := .restarting })
  | .finish k =>
      .ok ({ w.untrack k with synced := fun p =>
          if p ∈ (w.call k).replicas then some k else w.synced p }.setCall k
        { w.call k with phase := .done })
  | .fail k => .ok ((w.untrack k).setCall k { w.call k with phase := .failed })
  | .setPsModelVersion version => .ok { w with psModelVersion := version }

/-- A sync starts only when no other sync of one of its replicas is on its way. -/
def Separate (w : SyncSystem Call Replica) : Action Call Replica → Prop
  | .start k => ∀ j, (w.call j).phase.Active → Disjoint (w.call j).replicas (w.call k).replicas
  | _ => True

instance [Fintype Call] (w : SyncSystem Call Replica) (a : Action Call Replica) :
    Decidable (w.Separate a) := by
  cases a <;> unfold Separate <;> infer_instance

end Steps

/-! ### The invariant -/

section Invariant

variable {instanceIds : Finset (Replica × Nat)} {w w' : SyncSystem Call Replica}

/-- What the gateway and the coordinator hold for an instance of a replica in a running call. -/
structure CallOk (c : SyncCall Call Replica) (p : Replica) (published versionAfterSync : Nat) :
    Prop where
  offered : c.phase.Offered → published = c.requested
  gathered : c.phase.Gathered → c.pulled p = some versionAfterSync
  corrected : c.phase = .restarting → published = c.final versionAfterSync

structure Inv (instanceIds : Finset (Replica × Nat)) (w : SyncSystem Call Replica) : Prop where
  known : ∀ k, ∀ p ∈ (w.call k).replicas, ∃ i ∈ instanceIds, i.1 = p
  exclusive : ∀ j k p, (w.call j).phase.Active → (w.call k).phase.Active →
    p ∈ (w.call j).replicas → p ∈ (w.call k).replicas → j = k
  running : ∀ k, (w.call k).phase.Active → ∀ i ∈ instanceIds, i.1 ∈ (w.call k).replicas →
    CallOk (w.call k) i.1 (w.published i) (w.versionAfterSync i)
  alone : ∀ p k, w.synced p = some k → p ∈ (w.call k).replicas ∧ (w.call k).phase = .done ∧
    ∀ j, (w.call j).phase.Active → p ∉ (w.call j).replicas
  settled : ∀ p k, w.synced p = some k → ∀ i ∈ instanceIds, i.1 = p →
    (w.call k).pulled p = some (w.versionAfterSync i) ∧
      w.published i = (w.call k).final (w.versionAfterSync i)

theorem Inv.init (version : Nat) : Inv instanceIds (init version : SyncSystem Call Replica) := by
  constructor <;> simp [SyncSystem.init]

variable [DecidableEq Call]

/-- A step of a call that is not its start or its end touches only the instances of its own
replicas, and so disturbs neither the other calls nor a synced replica. -/
theorem Inv.step (h : Inv instanceIds w) {k : Call} {c : SyncCall Call Replica}
    {published versionAfterSync : Replica × Nat → Nat} {tasks : Replica → Option Call}
    (hundone : (w.call k).phase ≠ .done)
    (hknown : ∀ p ∈ c.replicas, ∃ i ∈ instanceIds, i.1 = p)
    (hactive : c.phase.Active → (w.call k).phase.Active ∧ c.replicas = (w.call k).replicas)
    (hframe : ∀ i, (w.call k).phase.Active ∧ i.1 ∈ (w.call k).replicas ∨
      published i = w.published i ∧ versionAfterSync i = w.versionAfterSync i)
    (hrunning : c.phase.Active → ∀ i ∈ instanceIds, i.1 ∈ (w.call k).replicas →
      CallOk c i.1 (published i) (versionAfterSync i)) :
    Inv instanceIds (setCall { w with
      published := published
      versionAfterSync := versionAfterSync
      replicaSyncTasks := tasks } k c) where
  known j := by
    by_cases heq : j = k
    · simpa [setCall, heq] using hknown
    · simpa [setCall, heq] using h.known j
  exclusive := by
    have hexclusive := h.exclusive
    simp only [setCall]
    grind
  running j hj i hi hmem := by
    simp only [setCall] at hj hmem ⊢
    by_cases heq : j = k
    · subst heq
      simp only [Function.update_self] at hj hmem ⊢
      exact hrunning hj i hi ((hactive hj).2 ▸ hmem)
    · simp only [Function.update_of_ne heq] at hj hmem ⊢
      rcases hframe i with ⟨hk, hmem'⟩ | ⟨hpublished, hversion⟩
      · exact absurd (h.exclusive j k i.1 hj hk hmem hmem') heq
      · rw [hpublished, hversion]
        exact h.running j hj i hi hmem
  alone p j hp := by
    obtain ⟨hmem, hdone, halone⟩ := h.alone p j hp
    simp only [setCall]
    grind
  settled p j hp i hi hip := by
    obtain ⟨hmem, hdone, halone⟩ := h.alone p j hp
    obtain ⟨hpulled, hpublished⟩ := h.settled p j hp i hi hip
    have hne : j ≠ k := fun heq => hundone (heq ▸ hdone)
    simp only [setCall, Function.update_of_ne hne]
    rcases hframe i with ⟨hk, hmem'⟩ | ⟨hpub, hver⟩
    · exact absurd (hip ▸ hmem') (halone k hk)
    · rw [hpub, hver]
      exact ⟨hpulled, hpublished⟩

/-- A call that is not running touches nothing. -/
theorem Inv.step_inactive (h : Inv instanceIds w) {k : Call} {c : SyncCall Call Replica}
    {tasks : Replica → Option Call} (hundone : (w.call k).phase ≠ .done)
    (hknown : ∀ p ∈ c.replicas, ∃ i ∈ instanceIds, i.1 = p) (hinactive : ¬ c.phase.Active) :
    Inv instanceIds (setCall { w with replicaSyncTasks := tasks } k c) :=
  h.step hundone hknown (fun hc => absurd hc hinactive) (fun _ => .inr ⟨rfl, rfl⟩)
    fun hc => absurd hc hinactive

/-- A running call touches only the instances of its replicas. -/
theorem Inv.step_active (h : Inv instanceIds w) {k : Call} {c : SyncCall Call Replica}
    {published versionAfterSync : Replica × Nat → Nat} {tasks : Replica → Option Call}
    (hactive : (w.call k).phase.Active) (hreplicas : c.replicas = (w.call k).replicas)
    (hframe : ∀ i, i.1 ∉ (w.call k).replicas →
      published i = w.published i ∧ versionAfterSync i = w.versionAfterSync i)
    (hrunning : ∀ i ∈ instanceIds, i.1 ∈ (w.call k).replicas →
      CallOk (w.call k) i.1 (w.published i) (w.versionAfterSync i) →
      CallOk c i.1 (published i) (versionAfterSync i)) :
    Inv instanceIds (setCall { w with
      published := published
      versionAfterSync := versionAfterSync
      replicaSyncTasks := tasks } k c) := by
  refine h.step (fun hdone => ?_) (hreplicas ▸ h.known k) (fun _ => ⟨hactive, hreplicas⟩)
    (fun i => ?_) fun _ i hi hmem => hrunning i hi hmem (h.running k hactive i hi hmem)
  · simp [hdone] at hactive
  · by_cases hmem : i.1 ∈ (w.call k).replicas
    · exact .inl ⟨hactive, hmem⟩
    · exact .inr (hframe i hmem)

variable [DecidableEq Replica]

section

variable (h : Inv instanceIds w)

include h

theorem Inv.start {k : Call} (hk : (w.call k).phase = .waiting)
    (hseparate : ∀ j, (w.call j).phase.Active → Disjoint (w.call j).replicas (w.call k).replicas) :
    Inv instanceIds (setCall { w with
      synced := fun p => if p ∈ (w.call k).replicas then none else w.synced p } k
        { w.call k with phase := .pausing }) where
  known j := by
    by_cases heq : j = k
    · simpa [setCall, heq] using h.known k
    · simpa [setCall, heq] using h.known j
  exclusive := by
    have hseparate : ∀ j p, (w.call j).phase.Active → p ∈ (w.call j).replicas →
        p ∉ (w.call k).replicas :=
      fun j _ hj hp => Finset.disjoint_left.mp (hseparate j hj) hp
    have hexclusive := h.exclusive
    simp only [setCall]
    grind
  running j hj i hi hmem := by
    simp only [setCall] at hj hmem ⊢
    by_cases heq : j = k
    · subst heq
      simp only [Function.update_self]
      constructor <;> simp
    · simp only [Function.update_of_ne heq] at hj hmem ⊢
      exact h.running j hj i hi hmem
  alone p j hp := by
    obtain ⟨hout, hp⟩ : p ∉ (w.call k).replicas ∧ w.synced p = some j := by simpa [setCall] using hp
    have halone := h.alone p j hp
    simp only [setCall]
    grind
  settled p j hp i hi hip := by
    obtain ⟨-, hp⟩ : p ∉ (w.call k).replicas ∧ w.synced p = some j := by simpa [setCall] using hp
    obtain ⟨-, hdone, -⟩ := h.alone p j hp
    have hne : j ≠ k := by
      rintro rfl
      simp [hk] at hdone
    simp only [setCall, Function.update_of_ne hne]
    exact h.settled p j hp i hi hip

theorem Inv.finish {k : Call} (hk : (w.call k).phase = .restarting)
    {tasks : Replica → Option Call} : Inv instanceIds (setCall { w with
      replicaSyncTasks := tasks
      synced := fun p => if p ∈ (w.call k).replicas then some k else w.synced p } k
        { w.call k with phase := .done }) := by
  have hactive : (w.call k).phase.Active := by simp [hk]
  have hstep : Inv instanceIds (setCall { w with replicaSyncTasks := tasks } k
      { w.call k with phase := .done }) := by
    exact h.step_inactive (by simp [hk]) (h.known k) (by simp)
  refine { hstep with alone := fun p j hp => ?_, settled := fun p j hp i hi hip => ?_ }
  · by_cases hmem : p ∈ (w.call k).replicas
    · obtain rfl : k = j := by simpa [setCall, hmem] using hp
      refine ⟨by simp [setCall, hmem], by simp [setCall], fun j hj hpj => ?_⟩
      by_cases hne : j = k
      · simp [setCall, hne] at hj
      · simp only [setCall, Function.update_of_ne hne] at hj hpj
        exact hne (h.exclusive j k p hj hactive hpj hmem)
    · exact hstep.alone p j (by simpa [setCall, hmem] using hp)
  · by_cases hmem : p ∈ (w.call k).replicas
    · obtain rfl : k = j := by simpa [setCall, hmem] using hp
      have hrunning := h.running k hactive i hi (hip ▸ hmem)
      simp only [setCall, Function.update_self, ← hip]
      exact ⟨hrunning.gathered (by simp [hk]), hrunning.corrected hk⟩
    · exact hstep.settled p j (by simpa [setCall, hmem] using hp) i hi hip

theorem Inv.pull {k : Call} {p : Replica} {version : Nat} (hpulls : (w.call k).phase.Pulls) :
    Inv instanceIds (w.setCall k { w.call k with
      pulled := Function.update (w.call k).pulled p (some version) }) := by
  have hactive : (w.call k).phase.Active ∧ ¬ (w.call k).phase.Gathered ∧
      (w.call k).phase ≠ .restarting := by
    cases hphase : (w.call k).phase <;> simp_all
  obtain ⟨hactive, hgathered, hrestarting⟩ := hactive
  exact h.step_active hactive rfl (fun _ _ => ⟨rfl, rfl⟩) fun i hi hmem hok =>
    ⟨hok.offered, fun hphase => absurd hphase hgathered, fun hphase => absurd hphase hrestarting⟩

theorem Inv.gatherPulls {k : Call} (hphase : (w.call k).phase = .pulling)
    (hall : ∀ p ∈ (w.call k).replicas, (w.call k).pulled p ≠ none) :
    Inv instanceIds (setCall { w with
      versionAfterSync := fun i =>
        if i ∈ instanceIds ∧ i.1 ∈ (w.call k).replicas then ((w.call k).pulled i.1).getD 0
        else w.versionAfterSync i } k { w.call k with
      phase :=
        if ∀ p ∈ (w.call k).replicas, (w.call k).pulled p = some (w.call k).advertised then
          .restarting
        else .correcting }) := by
  refine h.step_active (by simp [hphase]) rfl (fun i hout => by simp [hout]) fun i hi hmem hok => ?_
  have hoffered := hok.offered (by simp [hphase])
  obtain ⟨version, hversion⟩ := Option.ne_none_iff_exists'.mp (hall i.1 hmem)
  simp only [hi, hmem, and_self, if_true, hversion, Option.getD_some]
  refine ⟨fun _ => hoffered, fun _ => hversion, fun hrestarting => ?_⟩
  -- nothing is corrected when every replica pulled the advertised version
  have hsame : ∀ p ∈ (w.call k).replicas, (w.call k).pulled p = some (w.call k).advertised := by
    by_contra hnot
    simp only [if_neg hnot, reduceCtorEq] at hrestarting
  have hadvertised : version = (w.call k).advertised :=
    Option.some.inj (hversion.symm.trans (hsame i.1 hmem))
  simp [SyncCall.final, hadvertised, hoffered]

theorem Inv.gatewayCorrects {k : Call} (hphase : (w.call k).phase = .correcting) :
    Inv instanceIds (setCall { w with
      published := fun i =>
        if i ∈ instanceIds ∧ i.1 ∈ (w.call k).replicas ∧
            (w.call k).pulled i.1 ≠ some (w.call k).advertised then
          ((w.call k).pulled i.1).getD 0
        else w.published i } k { w.call k with phase := .restarting }) := by
  refine h.step_active (by simp [hphase]) rfl (fun i hout => by simp [hout]) fun i hi hmem hok => ?_
  have hoffered := hok.offered (by simp [hphase])
  have hversion := hok.gathered (by simp [hphase])
  refine ⟨fun hc => by simp at hc, fun _ => hversion, fun _ => ?_⟩
  by_cases hsame : w.versionAfterSync i = (w.call k).advertised
  · simp [SyncCall.final, hversion, hsame, hoffered]
  · simp [SyncCall.final, hversion, hsame, hi, hmem]

theorem Inv.exec {a : Action Call Replica} (henabled : w.Enabled a)
    (hseparate : w.Separate a) (hexec : w.exec instanceIds a = .ok w') : Inv instanceIds w' := by
  cases a with
  | callSync k ids waitModelSync =>
      cases hexec
      have hphase : (w.call k).phase = .unused := henabled
      refine h.step_inactive (by simp [hphase]) (fun p hp => ?_) (by simp)
      obtain ⟨i, hi, rfl⟩ := Finset.mem_image.mp hp
      exact ⟨i, (Finset.mem_filter.mp hi).1, rfl⟩
  | hearSleeping k sleeping =>
      cases hexec
      have hphase : (w.call k).phase = .asking := henabled
      refine h.step_inactive (by simp [hphase])
        (fun p hp => h.known k p (Finset.mem_sdiff.mp hp).1) ?_
      dsimp only
      split <;> simp
  | start k => cases hexec; exact h.start henabled.1 hseparate
  | requestPulls k =>
      cases hexec
      have hphase : (w.call k).phase = .pausing := henabled
      refine h.step_active (by simp [hphase]) rfl (fun _ _ => ⟨rfl, rfl⟩) fun i hi hmem _ => ?_
      constructor <;> simp
  | gatewayPublishes k =>
      cases hexec
      have hphase : (w.call k).phase = .publishing := henabled
      refine h.step_active (by simp [hphase]) rfl
        (fun i hout => by simp [hout]) fun i hi hmem _ => ?_
      constructor <;> simp [hi, hmem]
  | publishReturns k =>
      cases hexec
      have hphase : (w.call k).phase = .published := henabled
      refine h.step_active (by simp [hphase]) rfl
        (fun i hout => by simp [hout]) fun i hi hmem hok => ?_
      have hoffered := hok.offered (by simp [hphase])
      constructor <;> simp [hoffered]
  | resumeRouting k =>
      cases hexec
      have hphase : (w.call k).phase = .resuming := henabled
      refine h.step_active (by simp [hphase]) rfl (fun _ _ => ⟨rfl, rfl⟩) fun i hi hmem hok => ?_
      have hoffered := hok.offered (by simp [hphase])
      constructor <;> simp [hoffered]
  | pull k p version =>
      cases hexec
      exact h.pull henabled.1
  | gatherPulls k =>
      cases hexec
      exact h.gatherPulls henabled.1 henabled.2
  | gatewayCorrects k =>
      cases hexec
      exact h.gatewayCorrects henabled
  | finish k => cases hexec; exact h.finish henabled
  | fail k =>
      cases hexec
      refine h.step_inactive (fun hdone => ?_) (h.known k) (by simp)
      simp [Enabled, hdone] at henabled
  | setPsModelVersion version =>
      cases hexec
      exact ⟨h.known, h.exclusive, h.running, h.alone, h.settled⟩

end

end Invariant

/-! ### Runs -/

section Runs

variable [DecidableEq Call] [DecidableEq Replica] {instanceIds : Finset (Replica × Nat)}
  {w : SyncSystem Call Replica}

/-- **Advertised versions.** In every run in which the syncs of one replica do not overlap, let
a sync of `p` be the last one and completed without error. Then the coordinator holds the
version that `p` pulled, and so does the gateway, unless the pulled version is the one read
last while another one was published. -/
theorem advertised_version_iff {version : Nat}
    (hreach : Run.Reachable (exec instanceIds) (fun w a => w.Enabled a ∧ w.Separate a)
      (init version) w)
    {p : Replica} {k : Call} (hsynced : w.synced p = some k) :
    ∃ pulled, (w.call k).pulled p = some pulled ∧
      ((∀ i ∈ instanceIds, i.1 = p → w.published i = pulled ∧ w.versionAfterSync i = pulled) ↔
        (pulled = (w.call k).advertised → (w.call k).requested = (w.call k).advertised)) := by
  have hinv : Inv instanceIds w := hreach.invariant (Inv.init version)
    fun w a w' hinv hallowed hexec => hinv.exec hallowed.1 hallowed.2 hexec
  obtain ⟨i, hi, hip⟩ := hinv.known k p (hinv.alone p k hsynced).1
  obtain ⟨hpulled, hpublished⟩ := hinv.settled p k hsynced i hi hip
  refine ⟨w.versionAfterSync i, hpulled, fun hall hadvertised => ?_, fun hcondition j hj hjp => ?_⟩
  · have hsame := (hall i hi hip).1
    rw [hpublished, SyncCall.final, if_pos hadvertised] at hsame
    rw [hsame, hadvertised]
  · obtain ⟨hpulled', hpublished'⟩ := hinv.settled p k hsynced j hj hjp
    have hversion : w.versionAfterSync j = w.versionAfterSync i :=
      Option.some.inj (hpulled'.symm.trans hpulled)
    refine ⟨?_, hversion⟩
    rw [hpublished', hversion, SyncCall.final]
    split
    · rename_i hadvertised
      rw [hcondition hadvertised, hadvertised]
    · rfl

end Runs

/-- One blocking sync of one replica. -/
theorem advertised_version_one_sync :
    ∃ w : SyncSystem (Fin 1) (Fin 1), w.synced 0 = some 0 ∧
      (∀ i ∈ ({(0, 0)} : Finset (Fin 1 × Nat)), i.1 = 0 →
        w.published i = 2 ∧ w.versionAfterSync i = 2) := by
  obtain ⟨w, hreach, hw⟩ : ∃ w : SyncSystem (Fin 1) (Fin 1),
      Run.Reachable (exec {(0, 0)}) (fun w a => w.Enabled a ∧ w.Separate a) (init 0) w ∧
      decide (w.synced 0 = some 0 ∧ (w.call 0).pulled 0 = some 2 ∧
        (w.call 0).advertised = 1) = true :=
    Run.exists_reachable_of_perform (l := [.setPsModelVersion 1, .callSync 0 {(0, 0)} true,
      .hearSleeping 0 ∅, .start 0, .requestPulls 0, .gatewayPublishes 0, .publishReturns 0,
      .resumeRouting 0, .setPsModelVersion 2, .pull 0 0 2, .gatherPulls 0, .gatewayCorrects 0,
      .finish 0]) (by decide +kernel)
  obtain ⟨hsynced, hpulled, hadvertised⟩ := of_decide_eq_true hw
  obtain ⟨pulled, hpulled', hiff⟩ := advertised_version_iff hreach hsynced
  obtain rfl : 2 = pulled := Option.some.inj (hpulled.symm.trans hpulled')
  exact ⟨w, hsynced, hiff.mpr fun heq => by simp [hadvertised] at heq⟩

/-- The version rises while the gateway is being told: the replica pulls the new version, the
gateway keeps the old one, and the version is not corrected since it equals the one read last. -/
theorem advertised_version_stale :
    ∃ w : SyncSystem (Fin 1) (Fin 1),
      Run.Reachable (exec {(0, 0)}) (fun w a => w.Enabled a ∧ w.Separate a) (init 0) w ∧
      w.synced 0 = some 0 ∧ (w.call 0).pulled 0 = some 2 ∧ w.published (0, 0) = 1 := by
  obtain ⟨w, hreach, hw⟩ : ∃ w : SyncSystem (Fin 1) (Fin 1),
      Run.Reachable (exec {(0, 0)}) (fun w a => w.Enabled a ∧ w.Separate a) (init 0) w ∧
      decide (w.synced 0 = some 0 ∧ (w.call 0).pulled 0 = some 2 ∧ w.published (0, 0) = 1) = true :=
    Run.exists_reachable_of_perform (l := [.setPsModelVersion 1, .callSync 0 {(0, 0)} false,
      .hearSleeping 0 ∅, .start 0, .requestPulls 0, .setPsModelVersion 2, .gatewayPublishes 0,
      .publishReturns 0, .resumeRouting 0, .pull 0 0 2, .gatherPulls 0, .finish 0])
      (by decide +kernel)
  exact ⟨w, hreach, of_decide_eq_true hw⟩

end SyncSystem

end Psrl
