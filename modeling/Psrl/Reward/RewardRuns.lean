import Psrl.Reward.Waiting

/-!
# Psrl.Reward.RewardRuns

**Which reward a wait is resolved with.** `Waiting` is the half of the invariant about futures;
`Attempts` is the other half: what is recorded are the latest attempts.

Both halves need conditions (`InOrder`), because the code does not look again after an await: a
checked result is delivered although an abort or a new attempt came in between, and a wait that
ends takes away whatever future its keys have by then, also one that another wait holds.
-/

namespace Psrl

open Py

namespace RewardWait

variable {ρ : Type} {call : RewardWait ρ}

/-- The call took something for the key, or waits for it. -/
def Has (call : RewardWait ρ) (key : RewardKey) : Prop :=
  call.futuresToWait.get? key ≠ none ∨ call.requestKeyToReward.get? key ≠ none

/-- The call has something for each of its keys, and returned it. -/
structure Covered (call : RewardWait ρ) : Prop where
  has : ∀ key ∈ call.keys, call.Has key.1
  all : ∀ l, call.returned = some l → l.map Prod.fst = call.keys.map Prod.fst

end RewardWait

namespace RewardManager

variable {ρ : Type} {nTrajectory : Nat → Nat} {s s' : RewardManager ρ} {key : RewardKey}
  {outcome : Outcome ρ}

/-! ### Attempts -/

/-- What is recorded are the latest attempts whose result has not been delivered, and a checked
result is one of the latest attempt. -/
structure Attempts (nTrajectory : Nat → Nat) (s : RewardManager ρ) : Prop where
  recorded : ∀ k attemptId, s.requestKeyToAttempt.get? k = some attemptId ↔
    s.latest k.requestId = some attemptId ∧ k ∈ rewardKeys k.requestId (nTrajectory k.requestId) ∧
      ∀ d ∈ s.deliveries, d.requestId = k.requestId → d.attemptId ≠ attemptId
  checked : ∀ result ∈ s.checked, s.latest result.requestId = some result.attemptId ∧
    result.requestKeys = rewardKeys result.requestId (nTrajectory result.requestId)
  counts : ∀ requestId n, s.requestIdToNTrajectory.get? requestId = some n →
    n = nTrajectory requestId
  started : ∀ attempt ∈ s.started, attempt.2.2 = nTrajectory attempt.1
  issued : ∀ requestId attemptId, s.latest requestId = some attemptId →
    attemptId ≤ s.attemptCounter
  delivered : ∀ d ∈ s.deliveries, d.latest = some d.attemptId ∧ d.attemptId ≤ s.attemptCounter

/-- After a loop over keys each of them has the same entry. -/
theorem attempt_foldl {step : RewardManager ρ → RewardKey → RewardManager ρ} {v : Option Nat}
    (hstep : ∀ s k k', (step s k).requestKeyToAttempt.get? k' =
      if k' = k then v else s.requestKeyToAttempt.get? k') (k' : RewardKey) :
    ∀ (keys : List RewardKey) (s : RewardManager ρ),
      (keys.foldl step s).requestKeyToAttempt.get? k' =
        if k' ∈ keys then v else s.requestKeyToAttempt.get? k'
  | [], _ => (if_neg List.not_mem_nil).symm
  | k :: keys, s => by
      rw [List.foldl_cons, attempt_foldl hstep k' keys, hstep]
      by_cases hmem : k' ∈ keys
      · rw [if_pos hmem, if_pos (List.mem_cons_of_mem _ hmem)]
      · rw [if_neg hmem]
        by_cases heq : k' = k
        · rw [if_pos heq, heq, if_pos (List.mem_cons_self ..)]
        · rw [if_neg heq, if_neg (by simp [heq, hmem])]

theorem attempt_ensureFuture (s : RewardManager ρ) (key : RewardKey) :
    (s.ensureFuture key).requestKeyToAttempt = s.requestKeyToAttempt := by
  unfold ensureFuture
  split
  · split <;> rfl
  · rfl

theorem attempt_startKey (attemptId : Nat) (s : RewardManager ρ) (k k' : RewardKey) :
    (startKey attemptId s k).requestKeyToAttempt.get? k' =
      if k' = k then some attemptId else s.requestKeyToAttempt.get? k' := by
  show ((s.ensureFuture k).requestKeyToAttempt.set k attemptId).get? k' = _
  rw [Dict.get?_set, attempt_ensureFuture]

theorem attempt_giveUpKey (s : RewardManager ρ) (key : RewardKey) :
    (s.giveUpKey key).requestKeyToAttempt = s.requestKeyToAttempt := by
  unfold giveUpKey
  split
  · exact attempt_setResult ..
  · rfl

theorem attempt_foldl_giveUpKey (keys : List RewardKey) (s : RewardManager ρ) :
    (keys.foldl giveUpKey s).requestKeyToAttempt = s.requestKeyToAttempt :=
  List.foldlRecOn keys giveUpKey
    (motive := fun s' : RewardManager ρ => s'.requestKeyToAttempt = s.requestKeyToAttempt) rfl
    fun s' hs' k _ => (attempt_giveUpKey s' k).trans hs'

theorem attempt_abortKey (s : RewardManager ρ) (k k' : RewardKey) :
    (s.abortKey k).requestKeyToAttempt.get? k' =
      if k' = k then none else s.requestKeyToAttempt.get? k' := by
  show ((s.giveUpKey k).requestKeyToAttempt.erase k).get? k' = _
  rw [Dict.get?_erase, attempt_giveUpKey]

theorem attempt_deliverKey (outcome : Outcome ρ) (s : RewardManager ρ) (k k' : RewardKey) :
    (deliverKey outcome s k).requestKeyToAttempt.get? k' =
      if k' = k then none else s.requestKeyToAttempt.get? k' := by
  unfold deliverKey resolveKey
  split
  · rw [attempt_setResult, Dict.get?_erase]
  · exact Dict.get?_erase ..

namespace Attempts

theorem init : Attempts nTrajectory (init : RewardManager ρ) where
  recorded _ _ := ⟨fun h => (by cases h), fun h => (by cases h.1)⟩
  checked _ h := absurd h List.not_mem_nil
  counts _ _ h := by cases h
  started _ h := absurd h List.not_mem_nil
  issued _ _ h := by cases h
  delivered _ h := absurd h List.not_mem_nil

variable (h : Attempts nTrajectory s)

include h

theorem congr (hsame : SameLedger s s')
    (hattempt : s'.requestKeyToAttempt = s.requestKeyToAttempt) : Attempts nTrajectory s' where
  recorded := by
    rw [hattempt, hsame.latest, hsame.deliveries]
    exact h.recorded
  checked := by
    rw [hsame.checked, hsame.latest]
    exact h.checked
  counts := by
    rw [hsame.counts]
    exact h.counts
  started := by
    rw [hsame.started]
    exact h.started
  issued := by
    rw [hsame.latest, hsame.counter]
    exact h.issued
  delivered := by
    rw [hsame.deliveries, hsame.counter]
    exact h.delivered

/-- The attempt recorded for a key, as long as its request is not the one at hand. -/
theorem recorded_of_ne {requestId : Nat} {latest : Option Nat}
    {k : RewardKey} (hne : k.requestId ≠ requestId) (attemptId : Nat) :
    s.requestKeyToAttempt.get? k = some attemptId ↔
      Function.update s.latest requestId latest k.requestId = some attemptId ∧
        k ∈ rewardKeys k.requestId (nTrajectory k.requestId) ∧
        ∀ d ∈ s.deliveries, d.requestId = k.requestId → d.attemptId ≠ attemptId := by
  rw [Function.update_of_ne hne]
  exact h.recorded k attemptId

/-- Nothing is recorded for keys the request does not have. -/
theorem not_recorded {k : RewardKey} {attemptId : Nat}
    (hk : k ∉ rewardKeys k.requestId (nTrajectory k.requestId)) :
    s.requestKeyToAttempt.get? k ≠ some attemptId :=
  fun hget => hk ((h.recorded k attemptId).mp hget).2.1

theorem checked_update {requestId : Nat} {latest : Option Nat}
    (hfree : ∀ result ∈ s.checked, result.requestId ≠ requestId) : ∀ result ∈ s.checked,
      Function.update s.latest requestId latest result.requestId = some result.attemptId ∧
        result.requestKeys = rewardKeys result.requestId (nTrajectory result.requestId) := by
  intro result hresult
  rw [Function.update_of_ne (hfree result hresult)]
  exact h.checked result hresult

theorem issued_update {requestId counter : Nat} {latest : Option Nat}
    (hle : s.attemptCounter ≤ counter) (hlatest : ∀ a ∈ latest, a ≤ counter) :
    ∀ r a, Function.update s.latest requestId latest r = some a → a ≤ counter := by
  intro r a hget
  rw [Function.update_apply] at hget
  split at hget
  · exact hlatest a hget
  · exact Nat.le_trans (h.issued r a hget) hle

theorem counts_set (requestId : Nat) :
    ∀ r n, (s.requestIdToNTrajectory.set requestId (nTrajectory requestId)).get? r = some n →
      n = nTrajectory r := by
  intro r n hget
  rw [Dict.get?_set] at hget
  split at hget
  · rename_i heq
    cases hget
    rw [heq]
  · exact h.counts r n hget

theorem computeScore_ok {requestId : Nat}
    (hfree : ∀ result ∈ s.checked, result.requestId ≠ requestId) :
    Attempts nTrajectory (s.computeScore requestId (nTrajectory requestId) true) := by
  set keys := rewardKeys requestId (nTrajectory requestId) with hkeys
  set attemptId := s.attemptCounter + 1 with hattempt
  set s₁ : RewardManager ρ := { s with
    requestIdToNTrajectory := s.requestIdToNTrajectory.set requestId (nTrajectory requestId)
    attemptCounter := attemptId
    latest := Function.update s.latest requestId (some attemptId)
    started := s.started ++ [(requestId, attemptId, nTrajectory requestId)] } with hs₁
  have hsame : SameLedger s₁ (keys.foldl (startKey attemptId) s₁) :=
    SameLedger.foldl (SameLedger.startKey attemptId) keys s₁
  show Attempts nTrajectory (keys.foldl (startKey attemptId) s₁)
  constructor
  case recorded =>
    intro k a
    rw [attempt_foldl (attempt_startKey attemptId) k keys s₁, hsame.latest, hsame.deliveries]
    show _ ↔ Function.update s.latest requestId (some attemptId) k.requestId = some a ∧ _
    by_cases hk : k ∈ keys
    · have hr := requestId_of_mem_rewardKeys hk
      rw [if_pos hk, hr, Function.update_self]
      refine ⟨fun ha => ⟨ha, hk, fun d hd _ heq => ?_⟩, fun ha => ha.1⟩
      have hle := (h.delivered d hd).2
      cases ha
      omega
    · rw [if_neg hk]
      by_cases hr : k.requestId = requestId
      · have hk' : k ∉ rewardKeys k.requestId (nTrajectory k.requestId) := by rw [hr]; exact hk
        exact ⟨fun ha => absurd ha (h.not_recorded hk'), fun ha => absurd ha.2.1 hk'⟩
      · exact h.recorded_of_ne hr a
  case checked =>
    rw [hsame.checked, hsame.latest]
    exact h.checked_update hfree
  case counts =>
    rw [hsame.counts]
    exact h.counts_set requestId
  case started =>
    rw [hsame.started]
    intro attempt hattempt
    rcases List.mem_append.mp hattempt with hmem | hmem
    · exact h.started attempt hmem
    · obtain rfl := List.mem_singleton.mp hmem
      rfl
  case issued =>
    rw [hsame.latest, hsame.counter]
    refine h.issued_update (Nat.le_succ _) fun a ha => ?_
    cases ha
    exact Nat.le_refl _
  case delivered =>
    rw [hsame.deliveries, hsame.counter]
    intro d hd
    exact ⟨(h.delivered d hd).1, Nat.le_succ_of_le (h.delivered d hd).2⟩

/-- A request that is given up has no attempt any more. -/
theorem giveUp {requestId : Nat} (hfree : ∀ result ∈ s.checked, result.requestId ≠ requestId)
    (hlatest : s'.latest = Function.update s.latest requestId none)
    (hdeliveries : s'.deliveries = s.deliveries) (hchecked : s'.checked = s.checked)
    (hstarted : s'.started = s.started) (hcounter : s.attemptCounter ≤ s'.attemptCounter)
    (hcounts : ∀ r n, s'.requestIdToNTrajectory.get? r = some n → n = nTrajectory r)
    (hattempt : ∀ k, s'.requestKeyToAttempt.get? k =
      if k ∈ rewardKeys requestId (nTrajectory requestId) then none
      else s.requestKeyToAttempt.get? k) : Attempts nTrajectory s' where
  recorded k a := by
    rw [hattempt, hlatest, hdeliveries]
    by_cases hr : k.requestId = requestId
    · -- whatever is recorded for the request is recorded for one of its keys
      have hnone : (if k ∈ rewardKeys requestId (nTrajectory requestId) then none
          else s.requestKeyToAttempt.get? k) ≠ some a := by
        split
        · exact Option.some_ne_none a |>.symm
        · rename_i hk
          rw [← hr] at hk
          exact h.not_recorded hk
      rw [hr, Function.update_self]
      exact ⟨fun ha => absurd ha hnone, fun ha => by cases ha.1⟩
    · rw [if_neg fun hk => hr (requestId_of_mem_rewardKeys hk)]
      exact h.recorded_of_ne hr a
  checked := by
    rw [hchecked, hlatest]
    exact h.checked_update hfree
  counts := hcounts
  started := by
    rw [hstarted]
    exact h.started
  issued := by
    rw [hlatest]
    exact h.issued_update hcounter fun a ha => by cases ha
  delivered := by
    rw [hdeliveries]
    exact fun d hd => ⟨(h.delivered d hd).1, Nat.le_trans (h.delivered d hd).2 hcounter⟩

/-- The PSManager refuses a request that no attempt is recorded for. -/
theorem computeScore_refused {requestId : Nat}
    (hfree : ∀ result ∈ s.checked, result.requestId ≠ requestId)
    (hnone : ∀ k ∈ rewardKeys requestId (nTrajectory requestId),
      s.requestKeyToAttempt.get? k = none) :
    Attempts nTrajectory (s.computeScore requestId (nTrajectory requestId) false) := by
  have hsame := SameLedger.foldl SameLedger.giveUpKey
    (rewardKeys requestId (nTrajectory requestId)) { s with
      requestIdToNTrajectory := s.requestIdToNTrajectory.set requestId (nTrajectory requestId)
      attemptCounter := s.attemptCounter + 1
      latest := Function.update s.latest requestId none
      aborted := insert requestId s.aborted }
  refine h.giveUp hfree hsame.latest hsame.deliveries hsame.checked hsame.started
    (Nat.le_of_succ_le hsame.counter.ge) ?_ fun k => ?_
  · rw [show (s.computeScore requestId (nTrajectory requestId) false).requestIdToNTrajectory =
      _ from hsame.counts]
    exact h.counts_set requestId
  · rw [show (s.computeScore requestId (nTrajectory requestId) false).requestKeyToAttempt =
      s.requestKeyToAttempt from attempt_foldl_giveUpKey ..]
    split
    · rename_i hk
      exact hnone k hk
    · rfl

/-- The number of trajectories an abort goes by. -/
theorem abortKeys_eq {requestId : Nat}
    (hcount : 1 < nTrajectory requestId → s.requestIdToNTrajectory.get? requestId ≠ none) :
    s.abortKeys requestId = rewardKeys requestId (nTrajectory requestId) := by
  unfold abortKeys
  cases hget : s.requestIdToNTrajectory.get? requestId with
  | some n => rw [h.counts requestId n hget, Option.getD_some]
  | none =>
      have hle : ¬ nTrajectory requestId > 1 := fun hlt => hcount hlt hget
      unfold rewardKeys
      rw [if_neg hle, Option.getD_none, if_neg (Nat.lt_irrefl 1)]

theorem abort {requestId : Nat} (hfree : ∀ result ∈ s.checked, result.requestId ≠ requestId)
    (hcount : 1 < nTrajectory requestId → s.requestIdToNTrajectory.get? requestId ≠ none) :
    Attempts nTrajectory (s.abort requestId) := by
  unfold RewardManager.abort
  rw [h.abortKeys_eq hcount]
  have hsame := SameLedger.foldl SameLedger.abortKey
    (rewardKeys requestId (nTrajectory requestId)) { s with
      requestIdToNTrajectory := s.requestIdToNTrajectory.erase requestId
      latest := Function.update s.latest requestId none
      aborted := insert requestId s.aborted }
  refine h.giveUp hfree hsame.latest hsame.deliveries hsame.checked hsame.started hsame.counter.ge
    ?_ fun k => attempt_foldl attempt_abortKey k _ _
  intro r n hget
  rw [hsame.counts] at hget
  have hget : (s.requestIdToNTrajectory.erase requestId).get? r = some n := hget
  rw [Dict.get?_erase] at hget
  split at hget
  · cases hget
  · exact h.counts r n hget

/-- The next checked result is delivered. -/
theorem deliver : Attempts nTrajectory s.deliver := by
  unfold RewardManager.deliver
  cases hchecked : s.checked with
  | nil => exact h
  | cons result rest =>
      obtain ⟨hlatest, hkeys⟩ := h.checked result (by rw [hchecked]; exact List.mem_cons_self ..)
      set s₁ : RewardManager ρ := { s with
        checked := rest
        deliveries := s.deliveries ++
          [⟨result.requestId, result.attemptId, result.reward, s.latest result.requestId⟩] }
        with hs₁
      set outcome : Outcome ρ := .result result.attemptId result.reward
      have hsame : SameLedger s₁ (result.requestKeys.foldl (deliverKey outcome) s₁) :=
        SameLedger.foldl (SameLedger.deliverKey outcome) _ s₁
      show Attempts nTrajectory (result.requestKeys.foldl (deliverKey outcome) s₁)
      constructor
      case recorded =>
        intro k a
        rw [attempt_foldl (attempt_deliverKey outcome) k _ s₁, hsame.latest, hsame.deliveries,
          hkeys]
        show (if k ∈ _ then none else s.requestKeyToAttempt.get? k) = some a ↔
          s.latest k.requestId = some a ∧ _ ∧ ∀ d ∈ s.deliveries ++ _, _
        rw [List.forall_mem_append, List.forall_mem_singleton]
        by_cases hr : k.requestId = result.requestId
        · refine ⟨fun ha => ?_, fun ⟨ha, _, _, hnew⟩ => ?_⟩
          · split at ha
            · cases ha
            · rename_i hk
              rw [← hr] at hk
              exact absurd ha (h.not_recorded hk)
          · rw [hr, hlatest] at ha
            cases ha
            exact absurd rfl (hnew hr.symm)
        · rw [if_neg fun hk => hr (requestId_of_mem_rewardKeys hk), h.recorded k a]
          exact ⟨fun ⟨ha, hk, hold⟩ => ⟨ha, hk, hold, fun heq => absurd heq.symm hr⟩,
            fun ⟨ha, hk, hold, _⟩ => ⟨ha, hk, hold⟩⟩
      case checked =>
        rw [hsame.checked, hsame.latest]
        intro result' hresult'
        exact h.checked result' (by rw [hchecked]; exact List.mem_cons_of_mem _ hresult')
      case counts =>
        rw [hsame.counts]
        exact h.counts
      case started =>
        rw [hsame.started]
        exact h.started
      case issued =>
        rw [hsame.latest, hsame.counter]
        exact h.issued
      case delivered =>
        rw [hsame.deliveries, hsame.counter]
        show ∀ d ∈ s.deliveries ++ _, _
        rw [List.forall_mem_append, List.forall_mem_singleton]
        exact ⟨h.delivered, hlatest, h.issued _ _ hlatest⟩

/-- A result is accepted exactly if it is one of the latest attempt and no result of the attempt
was delivered before. -/
theorem isExpected_iff {result : RewardResult ρ}
    (hkeys : result.requestKeys = rewardKeys result.requestId (nTrajectory result.requestId)) :
    s.isExpected result = true ↔ s.latest result.requestId = some result.attemptId ∧
      ∀ d ∈ s.deliveries, d.requestId = result.requestId → d.attemptId ≠ result.attemptId := by
  unfold isExpected
  cases hlist : result.requestKeys with
  | nil => exact absurd (hlist.symm.trans hkeys).symm (rewardKeys_ne_nil _ _)
  | cons key rest =>
      have hmem : key ∈ rewardKeys result.requestId (nTrajectory result.requestId) := by
        rw [← hkeys, hlist]
        exact List.mem_cons_self ..
      have hr := requestId_of_mem_rewardKeys hmem
      rw [← hr] at hmem ⊢
      rw [decide_eq_true_iff, h.recorded]
      exact ⟨fun ⟨hl, _, hd⟩ => ⟨hl, hd⟩, fun ⟨hl, hd⟩ => ⟨hl, hmem, hd⟩⟩

theorem handleRewardResults {results : List (RewardResult ρ)} (hresults : ∀ result ∈ results,
      result.requestKeys = rewardKeys result.requestId (nTrajectory result.requestId)) :
    Attempts nTrajectory (s.handleRewardResults results) where
  recorded := h.recorded
  checked result hresult := by
    have hmem : result ∈ results.filter s.isExpected := by
      rcases List.mem_append.mp hresult with hin | hin
      · exact (List.mem_filter.mp hin).1
      · exact (List.mem_filter.mp hin).1
    obtain ⟨hin, hexpected⟩ := List.mem_filter.mp hmem
    exact ⟨((h.isExpected_iff (hresults result hin)).mp hexpected).1, hresults result hin⟩
  counts := h.counts
  started := h.started
  issued := h.issued
  delivered := h.delivered

end Attempts

/-! ### Calls have an answer for each key -/

theorem has_waitKey {call : RewardWait ρ} {key : RewardKey × Bool} {k : RewardKey}
    (h : k = key.1 ∨ call.Has k) : (waitKey (s, call) key).2.Has k := by
  have hreward : ∀ outcome, RewardWait.Has
      { call with requestKeyToReward := call.requestKeyToReward.set key.1 outcome } k := by
    intro outcome
    rcases h with h | h | h
    · exact .inr (Dict.get?_set_ne_none (.inl h))
    · exact .inl h
    · exact .inr (Dict.get?_set_ne_none (.inr h))
  have hwait : ∀ fut, RewardWait.Has
      { call with futuresToWait := call.futuresToWait.set key.1 fut } k := by
    intro fut
    rcases h with h | h | h
    · exact .inl (Dict.get?_set_ne_none (.inl h))
    · exact .inl (Dict.get?_set_ne_none (.inr h))
    · exact .inr h
  unfold waitKey
  dsimp only
  split
  · exact hreward _
  split
  · exact hreward _
  split
  · exact hwait _
  · exact hwait _

theorem has_foldl_waitKey : ∀ {keys : List (RewardKey × Bool)} {s : RewardManager ρ}
    {call : RewardWait ρ} {k : RewardKey}, k ∈ keys.map Prod.fst ∨ call.Has k →
      (keys.foldl waitKey (s, call)).2.Has k
  | [], _, _, _, h => h.resolve_left List.not_mem_nil
  | key :: keys, s, call, k, h => by
      rw [List.foldl_cons]
      refine has_foldl_waitKey ?_
      rw [List.map_cons, List.mem_cons, or_assoc] at h
      rcases h with h | h | h
      · exact .inr (has_waitKey (.inl h))
      · exact .inl h
      · exact .inr (has_waitKey (.inr h))

/-- All futures of the call are done, so it has an outcome for each key. -/
theorem received_ne_none {call : RewardWait ρ} (hreturn : s.CanReturn call) (hhas : call.Has key) :
    s.received call key ≠ none := by
  unfold received
  split
  · rename_i fut hget
    exact Option.isSome_iff_ne_none.mp (hreturn.2 (key, fut) (Dict.get?_eq_some_iff.mp hget))
  · rename_i hget
    exact hhas.resolve_left fun hne => hne hget

theorem map_fst_filterMap {call : RewardWait ρ} : ∀ (keys : List (RewardKey × Bool)),
    (∀ key ∈ keys, s.received call key.1 ≠ none) →
      (keys.filterMap fun key => (s.received call key.1).map fun outcome => (key.1, outcome)).map
        Prod.fst = keys.map Prod.fst
  | [], _ => rfl
  | key :: keys, h => by
      obtain ⟨outcome, hout⟩ := Option.ne_none_iff_exists'.mp (h key (List.mem_cons_self ..))
      have hrest := map_fst_filterMap keys fun k hk => h k (List.mem_cons_of_mem _ hk)
      rw [List.filterMap_cons_some (by rw [hout]; rfl), List.map_cons, List.map_cons, hrest]

theorem covered_finishWait {call : RewardWait ρ} (hreturn : s.CanReturn call)
    (hhas : ∀ key ∈ call.keys, call.Has key.1) : (s.finishWait call).2.Covered where
  has := hhas
  all l hl := by
    cases hl
    exact map_fst_filterMap call.keys fun key hkey => received_ne_none hreturn (hhas key hkey)

/-! ### Runs -/

/-- What keeps the rewards right: the attempts of a request have one number of trajectories, no
attempt is started and no request is aborted while a result of the request waits for the RPC, a
request is not refused while an attempt is recorded, an abort finds the number of trajectories, and
the futures a wait takes away at its end are resolved. -/
def InOrder (nTrajectory : Nat → Nat) (s : RewardManager ρ) : Action ρ → Prop
  | .compute requestId n statusOk => n = nTrajectory requestId ∧
      (∀ result ∈ s.checked, result.requestId ≠ requestId) ∧
      (statusOk = false → ∀ k ∈ rewardKeys requestId (nTrajectory requestId),
        (s.requestKeyToAttempt.get? k).isNone = true)
  | .abort requestId => (∀ result ∈ s.checked, result.requestId ≠ requestId) ∧
      (1 < nTrajectory requestId → (s.requestIdToNTrajectory.get? requestId).isSome = true)
  | .wait keys => (∀ key ∈ keys, s.AtHand key) → ∀ key ∈ keys, s.Replaceable key.1
  | .endWait i => ∀ call ∈ s.calls[i]?, ∀ key ∈ call.keys, s.Replaceable key.1
  | _ => True

instance (nTrajectory : Nat → Nat) (s : RewardManager ρ) (a : Action ρ) :
    Decidable (s.InOrder nTrajectory a) :=
  match a with
  | .compute .. | .collect _ | .deliver | .abort _ | .wait _ | .endWait _ => by
      dsimp only [InOrder]
      infer_instance

structure Inv (nTrajectory : Nat → Nat) (s : RewardManager ρ) : Prop where
  waiting : Waiting s
  attempts : Attempts nTrajectory s
  covered : ∀ call ∈ s.calls, call.Covered

namespace Inv

theorem init : Inv nTrajectory (init : RewardManager ρ) :=
  ⟨.init, .init, fun _ h => absurd h List.not_mem_nil⟩

variable (h : Inv nTrajectory s)

include h

theorem computeScore_ok {requestId : Nat}
    (hfree : ∀ result ∈ s.checked, result.requestId ≠ requestId) :
    Inv nTrajectory (s.computeScore requestId (nTrajectory requestId) true) where
  waiting := List.foldlRecOn _ (startKey (s.attemptCounter + 1))
    (h.waiting.congr ⟨rfl, rfl, rfl, rfl, rfl, rfl⟩ (.of_eq rfl rfl))
    fun _ hs _ _ => hs.startKey _
  attempts := h.attempts.computeScore_ok hfree
  covered := by
    rw [show (s.computeScore requestId (nTrajectory requestId) true).calls = s.calls from
      (SameLedger.foldl (SameLedger.startKey _) _ _).calls]
    exact h.covered

theorem computeScore_refused {requestId : Nat}
    (hfree : ∀ result ∈ s.checked, result.requestId ≠ requestId)
    (hnone : ∀ k ∈ rewardKeys requestId (nTrajectory requestId),
      s.requestKeyToAttempt.get? k = none) :
    Inv nTrajectory (s.computeScore requestId (nTrajectory requestId) false) where
  waiting := @Waiting.foldl ρ _ .aborted _ _ requestId
    (h.waiting.congr ⟨rfl, rfl, rfl, rfl, rfl, rfl⟩
      ⟨List.Subset.refl _, Finset.subset_insert requestId s.aborted⟩)
    (fun _ => requestId_of_mem_rewardKeys) SameLedger.giveUpKey
    (fun _ _ hs _ hlegit => hs.giveUpKey hlegit)
    fun _ hk => hk ▸ Finset.mem_insert_self _ _
  attempts := h.attempts.computeScore_refused hfree hnone
  covered := by
    rw [show (s.computeScore requestId (nTrajectory requestId) false).calls = s.calls from
      (SameLedger.foldl SameLedger.giveUpKey _ _).calls]
    exact h.covered

theorem abort {requestId : Nat} (hfree : ∀ result ∈ s.checked, result.requestId ≠ requestId)
    (hcount : 1 < nTrajectory requestId → s.requestIdToNTrajectory.get? requestId ≠ none) :
    Inv nTrajectory (s.abort requestId) where
  waiting := @Waiting.foldl ρ _ .aborted _ _ requestId
    (h.waiting.congr ⟨rfl, rfl, rfl, rfl, rfl, rfl⟩
      ⟨List.Subset.refl _, Finset.subset_insert requestId s.aborted⟩)
    (fun _ => requestId_of_mem_rewardKeys) SameLedger.abortKey
    (fun _ _ hs _ hlegit => (hs.giveUpKey hlegit).setAttempts _)
    fun _ hk => hk ▸ Finset.mem_insert_self _ _
  attempts := h.attempts.abort hfree hcount
  covered := by
    rw [show (s.abort requestId).calls = s.calls from
      (SameLedger.foldl SameLedger.abortKey _ _).calls]
    exact h.covered

theorem deliver : Inv nTrajectory s.deliver := by
  refine ⟨?_, h.attempts.deliver, ?_⟩
  · unfold RewardManager.deliver
    cases hchecked : s.checked with
    | nil => exact h.waiting
    | cons result rest =>
        obtain ⟨-, hkeys⟩ :=
          h.attempts.checked result (by rw [hchecked]; exact List.mem_cons_self ..)
        refine Waiting.foldl
          (h.waiting.congr ⟨rfl, rfl, rfl, rfl, rfl, rfl⟩
            ⟨List.subset_append_left _ _, Finset.Subset.refl _⟩)
          (fun k hk => requestId_of_mem_rewardKeys (hkeys ▸ hk)) (SameLedger.deliverKey _)
          (fun _ _ hs _ hlegit => hs.deliverKey hlegit) fun k hk => ?_
        exact ⟨_, List.mem_append_right _ (List.mem_singleton_self _), hk.symm, rfl, rfl⟩
  · unfold RewardManager.deliver
    cases hchecked : s.checked with
    | nil => exact h.covered
    | cons result rest =>
        rw [show (({ s with checked := rest } : RewardManager ρ).setRewardForRequestKeys
          result).calls = s.calls from (SameLedger.foldl (SameLedger.deliverKey _) _ _).calls]
        exact h.covered

theorem withCalls {calls : List (RewardWait ρ)}
    (hcalls : ∀ call ∈ calls, s.Call call ∧ call.Covered) :
    Inv nTrajectory { s with calls := calls } where
  waiting := h.waiting.withCalls fun call hcall => (hcalls call hcall).1
  attempts := { h.attempts with }
  covered call hcall := (hcalls call hcall).2

theorem of_frame (hframe : WaitFrame s s') (hwaiting : Waiting s') : Inv nTrajectory s' :=
  ⟨hwaiting, h.attempts.congr hframe.toSameLedger hframe.attempt, hframe.calls ▸ h.covered⟩

/-- A call that has just started, or has just ended, is added. -/
theorem addCall {call : RewardWait ρ} (hcall : s.Call call)
    (hcovered : call.Covered) : Inv nTrajectory { s with calls := s.calls ++ [call] } := by
  refine h.withCalls fun call' hcall' => ?_
  rcases List.mem_append.mp hcall' with hold | hnew
  · exact ⟨h.waiting.calls call' hold, h.covered call' hold⟩
  · rw [List.mem_singleton.mp hnew]
    exact ⟨hcall, hcovered⟩

theorem wait {keys : List (RewardKey × Bool)}
    (hfree : (∀ key ∈ keys, s.AtHand key) → ∀ key ∈ keys, s.Replaceable key.1) :
    Inv nTrajectory (s.waitForRewardOfRequests keys) := by
  have hstart := h.waiting.startWait keys
  have hframe := WaitFrame.startWait s keys
  have hinv := h.of_frame hframe hstart.waiting
  have hhas : ∀ key ∈ (s.startWait keys).2.keys, (s.startWait keys).2.Has key.1 := by
    rw [hstart.keys]
    exact fun key hkey => has_foldl_waitKey (.inl (List.mem_map_of_mem hkey))
  unfold waitForRewardOfRequests
  dsimp only
  split
  · rename_i hnil
    obtain ⟨-, hhand, hmap, hfutures⟩ := foldl_waitKey_of_nil hnil
    have hfree' : ∀ key ∈ (s.startWait keys).2.keys, (s.startWait keys).1.Replaceable key.1 := by
      rw [hstart.keys]
      intro key hkey fut hfut
      rw [show (s.startWait keys).1.requestKeyToFuture = _ from hmap] at hfut
      rw [show (s.startWait keys).1.futures = _ from hfutures]
      exact hfree hhand key hkey fut hfut
    have hreturn : (s.startWait keys).1.CanReturn (s.startWait keys).2 := by
      refine ⟨by rw [hstart.opened]; rfl, fun item hitem => ?_⟩
      rw [hnil] at hitem
      cases hitem
    obtain ⟨hwaiting, hcall⟩ := hstart.waiting.finishWait hstart.call hfree'
    exact (hinv.of_frame (WaitFrame.finishWait ..) hwaiting).addCall hcall
      (covered_finishWait hreturn hhas)
  · refine hinv.addCall hstart.call ⟨hhas, fun l hl => ?_⟩
    rw [hstart.opened] at hl
    cases hl

theorem endWait {i : Nat} {call : RewardWait ρ}
    (hget : s.calls[i]? = some call) (hreturn : s.CanReturn call)
    (hfree : ∀ key ∈ call.keys, s.Replaceable key.1) : Inv nTrajectory (s.endWait i) := by
  have hmem := List.mem_of_getElem? hget
  obtain ⟨hwaiting, hcall⟩ := h.waiting.finishWait (h.waiting.calls call hmem) hfree
  have hinv := h.of_frame (WaitFrame.finishWait s call) hwaiting
  unfold RewardManager.endWait
  rw [hget]
  refine hinv.withCalls fun call' hcall' => ?_
  rcases List.mem_or_eq_of_mem_set hcall' with hold | rfl
  · exact ⟨hinv.waiting.calls call' hold, hinv.covered call' hold⟩
  · exact ⟨hcall, covered_finishWait hreturn (h.covered call hmem).has⟩

theorem exec {a : Action ρ} (hallowed : s.Allowed a)
    (horder : s.InOrder nTrajectory a) (hexec : exec s a = .ok s') : Inv nTrajectory s' := by
  cases a with
  | compute requestId n statusOk =>
      cases hexec
      obtain ⟨rfl, hfree, hnone⟩ := horder
      cases statusOk with
      | true => exact h.computeScore_ok hfree
      | false =>
          exact h.computeScore_refused hfree fun k hk =>
            Option.isNone_iff_eq_none.mp (hnone rfl k hk)
  | collect results =>
      cases hexec
      refine ⟨h.waiting.congr ⟨rfl, rfl, rfl, rfl, rfl, rfl⟩ (.of_eq rfl rfl),
        h.attempts.handleRewardResults fun result hresult => ?_, h.covered⟩
      obtain ⟨attempt, hmem, hid, -, hkeys⟩ := hallowed.2 result hresult
      rw [hkeys, h.attempts.started attempt hmem, hid]
  | deliver =>
      cases hexec
      exact h.deliver
  | abort requestId =>
      cases hexec
      exact h.abort horder.1 fun hlt => Option.isSome_iff_ne_none.mp (horder.2 hlt)
  | wait keys =>
      cases hexec
      exact h.wait horder
  | endWait i =>
      cases hexec
      obtain ⟨call, hget, hreturn⟩ := hallowed
      exact h.endWait hget hreturn (horder call hget)

end Inv

/-! ### What resolves a wait -/

/-- The action delivers a result for the key or gives its request up. -/
def Answers (nTrajectory : Nat → Nat) (s : RewardManager ρ) : Action ρ → RewardKey → Prop
  | .compute requestId n statusOk, key => statusOk = false ∧ key ∈ rewardKeys requestId n
  | .deliver, key => ∃ result ∈ s.checked.head?, key ∈ result.requestKeys
  | .abort requestId, key => key ∈ rewardKeys requestId (nTrajectory requestId)
  | _, _ => False

/-- The future a key is mapped to is resolved by the actions that answer the key. -/
theorem Inv.answers (h : Inv nTrajectory s) {a : Action ρ} (horder : s.InOrder nTrajectory a)
    (hexec : RewardManager.exec s a = .ok s') (hanswers : s.Answers nTrajectory a key)
    {fut : Nat} (hget : s.requestKeyToFuture.get? key = some fut) : s'.futures fut ≠ none := by
  cases a with
  | compute requestId n statusOk =>
      obtain ⟨rfl, hmem⟩ := hanswers
      cases hexec
      exact settles_giveUpKey.foldl hmem hget
  | deliver =>
      obtain ⟨result, hhead, hmem⟩ := hanswers
      cases hexec
      unfold RewardManager.deliver
      split
      · rename_i hnil
        rw [hnil] at hhead
        cases hhead
      · rename_i hcons
        rw [hcons] at hhead
        cases hhead
        exact (settles_deliverKey _).foldl hmem hget
  | abort requestId =>
      cases hexec
      have hkeys := h.attempts.abortKeys_eq fun hlt => Option.isSome_iff_ne_none.mp (horder.2 hlt)
      exact settles_abortKey.foldl (hkeys ▸ hanswers) hget
  | collect | wait | endWait => exact hanswers.elim

end RewardManager

end Psrl
