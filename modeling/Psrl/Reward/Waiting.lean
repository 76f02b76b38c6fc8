import Psrl.Reward.RewardManager

/-!
# Psrl.Reward.Waiting

**The futures of the reward manager.** A wait that is not resolved holds the future its key is
mapped to, so that the next delivery or abort of the key resolves it, and everything handed out
comes from a delivery of its request or from an abort (`Legit`). `Waiting` is kept by every step
that takes away only futures that are resolved (`Replaceable`).
-/

namespace Psrl

open Py

namespace RewardManager

variable {ρ : Type} {s s' : RewardManager ρ} {key : RewardKey} {outcome : Outcome ρ}
  {call : RewardWait ρ}

/-- The outcome was delivered for the key's request, or the request was aborted. -/
def Legit (s : RewardManager ρ) (key : RewardKey) : Outcome ρ → Prop
  | .result attemptId reward => ∃ d ∈ s.deliveries, d.requestId = key.requestId ∧
      d.attemptId = attemptId ∧ d.reward = reward
  | .aborted => key.requestId ∈ s.aborted
  | .padding => False

/-- What a call may have for a key. -/
def Proper (s : RewardManager ρ) (call : RewardWait ρ) (key : RewardKey) (outcome : Outcome ρ) :
    Prop :=
  (outcome = .padding ∧ (key, true) ∈ call.keys) ∨ s.Legit key outcome

/-- The histories only grow. -/
structure Later (s s' : RewardManager ρ) : Prop where
  deliveries : s.deliveries ⊆ s'.deliveries
  aborted : s.aborted ⊆ s'.aborted

theorem Later.of_eq (hdeliveries : s'.deliveries = s.deliveries)
    (haborted : s'.aborted = s.aborted) :
    Later s s' :=
  ⟨fun _ hd => hdeliveries ▸ hd, haborted.ge⟩

theorem Legit.later (h : s.Legit key outcome) (hlater : Later s s') : s'.Legit key outcome := by
  cases outcome with
  | result attemptId reward =>
      obtain ⟨d, hd, hmatch⟩ := h
      exact ⟨d, hlater.deliveries hd, hmatch⟩
  | aborted => exact hlater.aborted h
  | padding => exact h

theorem Proper.later (h : s.Proper call key outcome) (hlater : Later s s') :
    s'.Proper call key outcome :=
  h.imp id fun hlegit => hlegit.later hlater

/-- A call and the futures it waits for. -/
structure Call (s : RewardManager ρ) (call : RewardWait ρ) : Prop where
  waits : ∀ k fut, call.futuresToWait.get? k = some fut → fut < s.nextFuture ∧
    s.futureKey fut = k ∧
    (call.returned = none → s.futures fut = none → s.requestKeyToFuture.get? k = some fut)
  took : ∀ k outcome, call.requestKeyToReward.get? k = some outcome → s.Proper call k outcome
  returned : ∀ l, call.returned = some l → ∀ item ∈ l, s.Proper call item.1 item.2

structure Waiting (s : RewardManager ρ) : Prop where
  mapped : ∀ k fut, s.requestKeyToFuture.get? k = some fut →
    fut < s.nextFuture ∧ s.futureKey fut = k
  unmade : ∀ fut, s.nextFuture ≤ fut → s.futures fut = none
  resolved : ∀ fut outcome, s.futures fut = some outcome → s.Legit (s.futureKey fut) outcome
  stored : ∀ k outcome, s.requestKeyToReward.get? k = some outcome → s.Legit k outcome
  calls : ∀ call ∈ s.calls, s.Call call

/-- The part of the state that `Waiting` is about is the same. -/
structure SameFutures (s s' : RewardManager ρ) : Prop where
  map : s'.requestKeyToFuture = s.requestKeyToFuture
  reward : s'.requestKeyToReward = s.requestKeyToReward
  futures : s'.futures = s.futures
  next : s'.nextFuture = s.nextFuture
  key : s'.futureKey = s.futureKey
  calls : s'.calls = s.calls

/-- The future of a key may be replaced: nobody waits for it any more. -/
def Replaceable (s : RewardManager ρ) (key : RewardKey) : Prop :=
  ∀ fut ∈ s.requestKeyToFuture.get? key, (s.futures fut).isSome = true

instance (s : RewardManager ρ) (key : RewardKey) : Decidable (s.Replaceable key) :=
  inferInstanceAs (Decidable (∀ fut ∈ s.requestKeyToFuture.get? key, (s.futures fut).isSome = true))

theorem Replaceable.ne_none (h : s.Replaceable key) {fut : Nat}
    (hget : s.requestKeyToFuture.get? key = some fut) : s.futures fut ≠ none := by
  rw [← Option.isSome_iff_ne_none]
  exact h fut hget

/-! ### Futures -/

/-- A call keeps its property as long as unresolved futures stay mapped. -/
theorem Call.congr (h : s.Call call) (hlater : Later s s')
    (hnext : s.nextFuture ≤ s'.nextFuture)
    (hkey : ∀ fut < s.nextFuture, s'.futureKey fut = s.futureKey fut)
    (hmap : ∀ k fut, s.requestKeyToFuture.get? k = some fut → s'.futures fut = none →
      s.futures fut = none ∧ s'.requestKeyToFuture.get? k = some fut)
    (hfutures : ∀ fut < s.nextFuture, s'.futures fut = none → s.futures fut = none) :
    s'.Call call where
  waits k fut hget := by
    obtain ⟨hlt, hkey', hwait⟩ := h.waits k fut hget
    refine ⟨Nat.lt_of_lt_of_le hlt hnext, (hkey fut hlt).trans hkey', fun hopen hnone => ?_⟩
    exact (hmap k fut (hwait hopen (hfutures fut hlt hnone)) hnone).2
  took k outcome hget := (h.took k outcome hget).later hlater
  returned l hl item hitem := (h.returned l hl item hitem).later hlater

theorem get?_popFuture (s : RewardManager ρ) (key k : RewardKey) :
    (s.popFuture key).requestKeyToFuture.get? k =
      if k = key then none else s.requestKeyToFuture.get? k :=
  Dict.get?_erase _ _ _

theorem get?_newFuture (s : RewardManager ρ) (key k : RewardKey) :
    (s.newFuture key).requestKeyToFuture.get? k =
      if k = key then some s.nextFuture else s.requestKeyToFuture.get? k :=
  Dict.get?_set _ _ _ _

theorem futureKey_newFuture {fut : Nat} (hlt : fut < s.nextFuture) :
    (s.newFuture key).futureKey fut = s.futureKey fut :=
  Function.update_of_ne (Nat.ne_of_lt hlt) _ _

theorem Call.popFuture (h : s.Call call) (hfree : s.Replaceable key) :
    (s.popFuture key).Call call := by
  refine h.congr (.of_eq rfl rfl) (Nat.le_refl _) (fun _ _ => rfl)
    (fun k fut hmap hnone => ⟨hnone, ?_⟩)
    fun _ _ hnone => hnone
  rw [get?_popFuture, if_neg]
  · exact hmap
  · rintro rfl
    exact hfree.ne_none hmap hnone

theorem Call.newFuture (h : s.Call call) (hfree : s.Replaceable key) :
    (s.newFuture key).Call call := by
  refine h.congr (.of_eq rfl rfl) (Nat.le_succ _) (fun _ hlt => futureKey_newFuture hlt)
    (fun k fut hmap hnone => ⟨hnone, ?_⟩) fun _ _ hnone => hnone
  rw [get?_newFuture, if_neg]
  · exact hmap
  · rintro rfl
    exact hfree.ne_none hmap hnone

/-- A call takes what it finds for a key. -/
theorem Call.take (h : s.Call call) (hproper : s.Proper call key outcome) :
    s.Call { call with requestKeyToReward := call.requestKeyToReward.set key outcome } where
  waits := h.waits
  took k out hget := by
    have hget : (call.requestKeyToReward.set key outcome).get? k = some out := hget
    rw [Dict.get?_set] at hget
    split at hget
    · rename_i heq
      cases hget
      rw [heq]
      exact hproper
    · exact h.took k out hget
  returned := h.returned

/-- A call waits for the future of a key. -/
theorem Call.waitFor (h : s.Call call) {fut : Nat} (hlt : fut < s.nextFuture)
    (hkey : s.futureKey fut = key) (hget : s.requestKeyToFuture.get? key = some fut) :
    s.Call { call with futuresToWait := call.futuresToWait.set key fut } where
  waits k fut' hwait := by
    have hwait : (call.futuresToWait.set key fut).get? k = some fut' := hwait
    rw [Dict.get?_set] at hwait
    split at hwait
    · rename_i heq
      cases hwait
      subst heq
      exact ⟨hlt, hkey, fun _ _ => hget⟩
    · exact h.waits k fut' hwait
  took := h.took
  returned := h.returned

namespace Waiting

theorem init : Waiting (init : RewardManager ρ) where
  mapped _ _ h := by cases h
  unmade _ _ := rfl
  resolved _ _ h := by cases h
  stored _ _ h := by cases h
  calls _ h := absurd h List.not_mem_nil

theorem congr (h : Waiting s) (hsame : SameFutures s s') (hlater : Later s s') : Waiting s' where
  mapped := by
    rw [hsame.map, hsame.next, hsame.key]
    exact h.mapped
  unmade := by
    rw [hsame.next, hsame.futures]
    exact h.unmade
  resolved fut outcome hget := by
    rw [hsame.futures] at hget
    rw [hsame.key]
    exact (h.resolved fut outcome hget).later hlater
  stored k outcome hget := by
    rw [hsame.reward] at hget
    exact (h.stored k outcome hget).later hlater
  calls call hcall := by
    rw [hsame.calls] at hcall
    refine (h.calls call hcall).congr hlater hsame.next.ge (fun fut _ => by rw [hsame.key])
      (fun k fut hget hnone => ?_) fun fut _ hnone => by rw [← hsame.futures]; exact hnone
    rw [hsame.futures] at hnone
    rw [hsame.map]
    exact ⟨hnone, hget⟩

/-- A future is resolved. -/
theorem setResult (h : Waiting s) {fut : Nat} (hlt : fut < s.nextFuture)
    (hlegit : s.Legit (s.futureKey fut) outcome) : Waiting (s.setResult fut outcome) := by
  unfold RewardManager.setResult
  split
  · exact h
  · have hstill : ∀ fut', Function.update s.futures fut (some outcome) fut' = none →
        s.futures fut' = none := by
      intro fut' hnone
      rw [Function.update_apply] at hnone
      split at hnone
      · cases hnone
      · exact hnone
    constructor
    case mapped => exact h.mapped
    case unmade =>
      intro fut' hle
      exact (Function.update_of_ne (Nat.ne_of_gt (Nat.lt_of_lt_of_le hlt hle)) _ _).trans
        (h.unmade fut' hle)
    case resolved =>
      intro fut' outcome' hget
      simp only [Function.update_apply] at hget
      split at hget
      · rename_i heq
        cases hget
        rw [heq]
        exact hlegit.later (.of_eq rfl rfl)
      · exact (h.resolved fut' outcome' hget).later (.of_eq rfl rfl)
    case stored =>
      exact fun k out hget => (h.stored k out hget).later
        (.of_eq rfl rfl)
    case calls =>
      exact fun call hcall => (h.calls call hcall).congr
        (.of_eq rfl rfl) (Nat.le_refl _) (fun _ _ => rfl)
        (fun k fut' hget hnone => ⟨hstill fut' hnone, hget⟩) fun fut' _ hnone => hstill fut' hnone

theorem store (h : Waiting s) (hlegit : s.Legit key outcome) : Waiting (s.store key outcome) := by
  have hlater : Later s (s.store key outcome) := .of_eq rfl rfl
  refine ⟨h.mapped, h.unmade, fun fut out hget => (h.resolved fut out hget).later hlater,
    fun k out hget => ?_, fun call hcall => (h.calls call hcall).congr hlater (Nat.le_refl _)
      (fun _ _ => rfl) (fun _ _ hget hnone => ⟨hnone, hget⟩) fun _ _ hnone => hnone⟩
  have hget : (s.requestKeyToReward.set key outcome).get? k = some out := hget
  rw [Dict.get?_set] at hget
  split at hget
  · rename_i heq
    cases hget
    rw [heq]
    exact hlegit.later hlater
  · exact (h.stored k out hget).later hlater

/-- A future nobody waits for is taken away. -/
theorem popFuture (h : Waiting s) (hfree : s.Replaceable key) : Waiting (s.popFuture key) where
  mapped k fut hmap := by
    rw [get?_popFuture] at hmap
    split at hmap
    · cases hmap
    · exact h.mapped k fut hmap
  unmade := h.unmade
  resolved fut out hres := (h.resolved fut out hres).later (.of_eq rfl rfl)
  stored k out hst := (h.stored k out hst).later (.of_eq rfl rfl)
  calls call hcall := (h.calls call hcall).popFuture hfree

theorem lt_of_resolved (h : Waiting s) {fut : Nat} (hres : s.futures fut = some outcome) :
    fut < s.nextFuture := by
  refine Nat.lt_of_not_le fun hle => ?_
  rw [h.unmade fut hle] at hres
  cases hres

/-- A new future for a key. -/
theorem newFuture (h : Waiting s) (hfree : s.Replaceable key) : Waiting (s.newFuture key) where
  mapped k fut hmap := by
    rw [get?_newFuture] at hmap
    split at hmap
    · rename_i heq
      cases hmap
      exact ⟨Nat.lt_succ_self _, (Function.update_self ..).trans heq.symm⟩
    · obtain ⟨hlt, hkey⟩ := h.mapped k fut hmap
      exact ⟨Nat.lt_succ_of_lt hlt, (futureKey_newFuture hlt).trans hkey⟩
  unmade fut hle := h.unmade fut (Nat.le_of_succ_le hle)
  resolved fut out hres := by
    rw [futureKey_newFuture (h.lt_of_resolved hres)]
    exact (h.resolved fut out hres).later (.of_eq rfl rfl)
  stored k out hst := (h.stored k out hst).later (.of_eq rfl rfl)
  calls call hcall := (h.calls call hcall).newFuture hfree

/-- A stored reward is taken. -/
theorem takeReward (h : Waiting s) :
    Waiting { s with requestKeyToReward := s.requestKeyToReward.erase key } := by
  have hlater : Later s { s with requestKeyToReward := s.requestKeyToReward.erase key } :=
    .of_eq rfl rfl
  refine ⟨h.mapped, h.unmade, fun fut out hget => (h.resolved fut out hget).later hlater,
    fun k out hget => ?_, fun call hcall => (h.calls call hcall).congr hlater (Nat.le_refl _)
      (fun _ _ => rfl) (fun _ _ hget hnone => ⟨hnone, hget⟩) fun _ _ hnone => hnone⟩
  have hget : (s.requestKeyToReward.erase key).get? k = some out := hget
  rw [Dict.get?_erase] at hget
  split at hget
  · cases hget
  · exact (h.stored k out hget).later hlater

theorem ensureFuture (h : Waiting s) : Waiting (s.ensureFuture key) := by
  unfold RewardManager.ensureFuture
  split
  · rename_i fut hget
    split
    · rename_i hdone
      refine h.newFuture fun fut' hfut' => ?_
      rw [hget] at hfut'
      cases hfut'
      exact hdone
    · exact h
  · rename_i hget
    refine h.newFuture fun fut' hfut' => ?_
    rw [hget] at hfut'
    cases hfut'

end Waiting

/-! ### What the steps for one key leave alone -/

/-- The calls, the attempts that were started, the results and the histories are the same. -/
structure SameLedger (s s' : RewardManager ρ) : Prop where
  counts : s'.requestIdToNTrajectory = s.requestIdToNTrajectory
  counter : s'.attemptCounter = s.attemptCounter
  checked : s'.checked = s.checked
  latest : s'.latest = s.latest
  started : s'.started = s.started
  aborted : s'.aborted = s.aborted
  deliveries : s'.deliveries = s.deliveries
  calls : s'.calls = s.calls

namespace SameLedger

theorem later (h : SameLedger s s') : Later s s' :=
  .of_eq h.deliveries h.aborted

variable (s)

theorem refl : SameLedger s s := ⟨rfl, rfl, rfl, rfl, rfl, rfl, rfl, rfl⟩

theorem trans {s₁ s₂ s₃ : RewardManager ρ} (h : SameLedger s₁ s₂) (h' : SameLedger s₂ s₃) :
    SameLedger s₁ s₃ :=
  ⟨h'.counts.trans h.counts, h'.counter.trans h.counter, h'.checked.trans h.checked,
    h'.latest.trans h.latest, h'.started.trans h.started, h'.aborted.trans h.aborted,
    h'.deliveries.trans h.deliveries, h'.calls.trans h.calls⟩

theorem setResult (fut : Nat) (outcome : Outcome ρ) : SameLedger s (s.setResult fut outcome) := by
  unfold RewardManager.setResult
  split <;> exact ⟨rfl, rfl, rfl, rfl, rfl, rfl, rfl, rfl⟩

theorem ensureFuture (key : RewardKey) : SameLedger s (s.ensureFuture key) := by
  unfold RewardManager.ensureFuture
  split
  · split <;> exact ⟨rfl, rfl, rfl, rfl, rfl, rfl, rfl, rfl⟩
  · exact ⟨rfl, rfl, rfl, rfl, rfl, rfl, rfl, rfl⟩

theorem startKey (attemptId : Nat) (s : RewardManager ρ) (key : RewardKey) :
    SameLedger s (RewardManager.startKey attemptId s key) :=
  (ensureFuture s key).trans ⟨rfl, rfl, rfl, rfl, rfl, rfl, rfl, rfl⟩

theorem giveUpKey (key : RewardKey) : SameLedger s (s.giveUpKey key) := by
  unfold RewardManager.giveUpKey
  split
  · exact (setResult ..).trans ⟨rfl, rfl, rfl, rfl, rfl, rfl, rfl, rfl⟩
  · exact ⟨rfl, rfl, rfl, rfl, rfl, rfl, rfl, rfl⟩

theorem abortKey (key : RewardKey) : SameLedger s (s.abortKey key) :=
  (giveUpKey s key).trans ⟨rfl, rfl, rfl, rfl, rfl, rfl, rfl, rfl⟩

theorem resolveKey (outcome : Outcome ρ) (s : RewardManager ρ) (key : RewardKey) :
    SameLedger s (RewardManager.resolveKey outcome s key) := by
  unfold RewardManager.resolveKey
  split
  · exact setResult ..
  · exact ⟨rfl, rfl, rfl, rfl, rfl, rfl, rfl, rfl⟩

theorem setAttempts (attempts : Dict RewardKey Nat) :
    SameLedger s { s with requestKeyToAttempt := attempts } :=
  ⟨rfl, rfl, rfl, rfl, rfl, rfl, rfl, rfl⟩

theorem deliverKey (outcome : Outcome ρ) (s : RewardManager ρ) (key : RewardKey) :
    SameLedger s (RewardManager.deliverKey outcome s key) :=
  (setAttempts s _).trans (resolveKey ..)

theorem foldl {step : RewardManager ρ → RewardKey → RewardManager ρ}
    (hstep : ∀ s k, SameLedger s (step s k)) (keys : List RewardKey) (s : RewardManager ρ) :
    SameLedger s (keys.foldl step s) :=
  List.foldlRecOn keys step (refl s) fun s' hs' k _ => hs'.trans (hstep s' k)

end SameLedger

/-! ### The steps for one key -/

theorem futures_setResult (s : RewardManager ρ) (fut : Nat) (outcome : Outcome ρ) :
    (s.setResult fut outcome).futures fut ≠ none := by
  unfold setResult
  split
  · rename_i h
    rw [h]
    exact Option.some_ne_none _
  · simp only [Function.update_self]
    exact Option.some_ne_none _

/-- What is resolved stays as it is. -/
theorem futures_setResult_of_some {fut fut' : Nat} {outcome' : Outcome ρ}
    (h : s.futures fut' = some outcome') :
    (s.setResult fut outcome).futures fut' = some outcome' := by
  unfold setResult
  split
  · exact h
  · rename_i hnone
    have hne : fut' ≠ fut := by
      rintro rfl
      rw [h] at hnone
      cases hnone
    exact (Function.update_of_ne hne _ _).trans h

theorem map_setResult (s : RewardManager ρ) (fut : Nat) (outcome : Outcome ρ) :
    (s.setResult fut outcome).requestKeyToFuture = s.requestKeyToFuture := by
  unfold setResult
  split <;> rfl

theorem attempt_setResult (s : RewardManager ρ) (fut : Nat) (outcome : Outcome ρ) :
    (s.setResult fut outcome).requestKeyToAttempt = s.requestKeyToAttempt := by
  unfold setResult
  split <;> rfl

/-- Steps that resolve the future of their key. -/
structure Settles (step : RewardManager ρ → RewardKey → RewardManager ρ) : Prop where
  keeps : ∀ s k fut outcome, s.futures fut = some outcome →
    (step s k).futures fut = some outcome
  own : ∀ s k fut, s.requestKeyToFuture.get? k = some fut → (step s k).futures fut ≠ none
  other : ∀ s k k', k' ≠ k →
    (step s k).requestKeyToFuture.get? k' = s.requestKeyToFuture.get? k'

namespace Settles

variable {step : RewardManager ρ → RewardKey → RewardManager ρ}

theorem keeps_foldl (h : Settles step) (keys : List RewardKey) {fut : Nat} :
    s.futures fut = some outcome → (keys.foldl step s).futures fut = some outcome := fun hsome =>
  List.foldlRecOn keys step (motive := fun s' => s'.futures fut = some outcome) hsome
    fun s' hs' k _ => h.keeps s' k fut outcome hs'

/-- After the loop the futures its keys had before are resolved. -/
theorem foldl (h : Settles step) : ∀ {keys : List RewardKey} {s : RewardManager ρ} {fut : Nat},
    key ∈ keys → s.requestKeyToFuture.get? key = some fut →
    (keys.foldl step s).futures fut ≠ none
  | [], _, _, hmem, _ => absurd hmem List.not_mem_nil
  | k :: keys, s, fut, hmem, hget => by
      rw [List.foldl_cons]
      by_cases heq : key = k
      · subst heq
        obtain ⟨outcome, hout⟩ := Option.ne_none_iff_exists'.mp (h.own s key fut hget)
        rw [h.keeps_foldl keys hout]
        exact Option.some_ne_none _
      · have hmem := (List.mem_cons.mp hmem).resolve_left heq
        exact h.foldl hmem ((h.other s k key heq).trans hget)

end Settles

theorem settles_giveUpKey : Settles (@giveUpKey ρ) where
  keeps s k fut outcome hsome := by
    unfold giveUpKey
    split
    · exact futures_setResult_of_some hsome
    · exact hsome
  own s k fut hget := by
    unfold giveUpKey
    rw [hget]
    exact futures_setResult s fut .aborted
  other s k k' hne := by
    unfold giveUpKey
    split
    · show ((s.setResult _ _).requestKeyToFuture.erase k).get? k' = _
      rw [Dict.get?_erase, if_neg hne, map_setResult]
    · exact (Dict.get?_erase ..).trans (if_neg hne)

theorem settles_abortKey : Settles (@abortKey ρ) :=
  ⟨settles_giveUpKey.keeps, settles_giveUpKey.own, settles_giveUpKey.other⟩

theorem settles_resolveKey (outcome : Outcome ρ) : Settles (resolveKey outcome) where
  keeps s k fut outcome' hsome := by
    unfold resolveKey
    split
    · exact futures_setResult_of_some hsome
    · exact hsome
  own s k fut hget := by
    unfold resolveKey
    rw [hget]
    exact futures_setResult s fut outcome
  other s k k' hne := by
    unfold resolveKey
    split
    · rw [map_setResult]
    · rfl

theorem settles_deliverKey (outcome : Outcome ρ) : Settles (deliverKey outcome) where
  keeps _ k fut _ hsome := (settles_resolveKey outcome).keeps _ k fut _ hsome
  own s k fut hget := (settles_resolveKey outcome).own
    { s with requestKeyToAttempt := s.requestKeyToAttempt.erase k } k fut hget
  other s k k' hne := (settles_resolveKey outcome).other
    { s with requestKeyToAttempt := s.requestKeyToAttempt.erase k } k k' hne

namespace Waiting

theorem giveUpKey (h : Waiting s) (haborted : key.requestId ∈ s.aborted) :
    Waiting (s.giveUpKey key) := by
  unfold RewardManager.giveUpKey
  split
  · rename_i fut hget
    obtain ⟨hlt, hkey⟩ := h.mapped key fut hget
    have hlegit : s.Legit (s.futureKey fut) .aborted := by
      rw [hkey]
      exact haborted
    refine ((h.setResult hlt hlegit).popFuture fun fut' hfut' => ?_).store ?_
    · rw [map_setResult, hget] at hfut'
      cases hfut'
      exact Option.isSome_iff_ne_none.mpr (futures_setResult s fut .aborted)
    · show key.requestId ∈ (s.setResult fut .aborted).aborted
      rw [(SameLedger.setResult ..).aborted]
      exact haborted
  · rename_i hget
    refine (h.popFuture fun fut' hfut' => ?_).store haborted
    rw [hget] at hfut'
    cases hfut'

theorem setAttempts (h : Waiting s) (attempts : Dict RewardKey Nat) :
    Waiting { s with requestKeyToAttempt := attempts } :=
  h.congr ⟨rfl, rfl, rfl, rfl, rfl, rfl⟩ (.of_eq rfl rfl)

theorem startKey (h : Waiting s) (attemptId : Nat) :
    Waiting (RewardManager.startKey attemptId s key) :=
  h.ensureFuture.setAttempts _

theorem resolveKey (h : Waiting s) (hlegit : s.Legit key outcome) :
    Waiting (RewardManager.resolveKey outcome s key) := by
  unfold RewardManager.resolveKey
  split
  · rename_i fut hget
    obtain ⟨hlt, hkey⟩ := h.mapped key fut hget
    rw [← hkey] at hlegit
    exact h.setResult hlt hlegit
  · exact h.store hlegit

theorem deliverKey (h : Waiting s) (hlegit : s.Legit key outcome) :
    Waiting (RewardManager.deliverKey outcome s key) :=
  (h.setAttempts _).resolveKey (hlegit.later (SameLedger.setAttempts ..).later)

/-- A loop over keys of one request, each step of which needs an outcome of the request. -/
theorem foldl {step : RewardManager ρ → RewardKey → RewardManager ρ} {keys : List RewardKey}
    {requestId : Nat} (h : Waiting s) (hkeys : ∀ k ∈ keys, k.requestId = requestId)
    (hsame : ∀ s k, SameLedger s (step s k))
    (hstep : ∀ s k, Waiting s → k.requestId = requestId → s.Legit k outcome → Waiting (step s k))
    (hlegit : ∀ k : RewardKey, k.requestId = requestId → s.Legit k outcome) :
    Waiting (keys.foldl step s) := by
  have hboth : Waiting (keys.foldl step s) ∧
      ∀ k : RewardKey, k.requestId = requestId → (keys.foldl step s).Legit k outcome := by
    refine List.foldlRecOn keys step (motive := fun s' => Waiting s' ∧
      ∀ k : RewardKey, k.requestId = requestId → s'.Legit k outcome) ⟨h, hlegit⟩
      fun s' hs' k hk => ?_
    have hk := hkeys k hk
    exact ⟨hstep s' k hs'.1 hk (hs'.2 k hk), fun k' hk' => (hs'.2 k' hk').later (hsame s' k).later⟩
  exact hboth.1

theorem withCalls (h : Waiting s) {calls : List (RewardWait ρ)}
    (hcalls : ∀ call ∈ calls, s.Call call) : Waiting { s with calls := calls } where
  mapped := h.mapped
  unmade := h.unmade
  resolved fut out hres := (h.resolved fut out hres).later (.of_eq rfl rfl)
  stored k out hst := (h.stored k out hst).later (.of_eq rfl rfl)
  calls call hcall := (hcalls call hcall).congr (.of_eq rfl rfl) (Nat.le_refl _) (fun _ _ => rfl)
    (fun _ _ hget hnone => ⟨hnone, hget⟩) fun _ _ hnone => hnone

end Waiting

/-! ### Waits -/

/-- What the first half of a wait and its end leave alone. -/
structure WaitFrame (s s' : RewardManager ρ) : Prop extends SameLedger s s' where
  futures : s'.futures = s.futures
  attempt : s'.requestKeyToAttempt = s.requestKeyToAttempt

namespace WaitFrame

theorem refl (s : RewardManager ρ) : WaitFrame s s := ⟨.refl s, rfl, rfl⟩

theorem trans {s₁ s₂ s₃ : RewardManager ρ} (h : WaitFrame s₁ s₂) (h' : WaitFrame s₂ s₃) :
    WaitFrame s₁ s₃ :=
  ⟨h.toSameLedger.trans h'.toSameLedger, h'.futures.trans h.futures, h'.attempt.trans h.attempt⟩

theorem newFuture (s : RewardManager ρ) (key : RewardKey) : WaitFrame s (s.newFuture key) :=
  ⟨⟨rfl, rfl, rfl, rfl, rfl, rfl, rfl, rfl⟩, rfl, rfl⟩

theorem waitKey (state : RewardManager ρ × RewardWait ρ) (key : RewardKey × Bool) :
    WaitFrame state.1 (waitKey state key).1 := by
  unfold RewardManager.waitKey
  dsimp only
  split
  · exact refl _
  split
  · exact ⟨⟨rfl, rfl, rfl, rfl, rfl, rfl, rfl, rfl⟩, rfl, rfl⟩
  split
  · exact refl _
  · exact newFuture _ _

theorem startWait (s : RewardManager ρ) (keys : List (RewardKey × Bool)) :
    WaitFrame s (s.startWait keys).1 :=
  List.foldlRecOn keys RewardManager.waitKey
    (motive := fun state : RewardManager ρ × RewardWait ρ => WaitFrame s state.1) (refl s)
    fun state hstate key _ => hstate.trans (waitKey state key)

theorem finishWait (s : RewardManager ρ) (call : RewardWait ρ) :
    WaitFrame s (s.finishWait call).1 :=
  List.foldlRecOn call.keys (fun (s : RewardManager ρ) key => s.popFuture key.1) (refl s)
    fun _ hs _ _ => hs.trans ⟨⟨rfl, rfl, rfl, rfl, rfl, rfl, rfl, rfl⟩, rfl, rfl⟩

end WaitFrame

/-- A wait that is being set up. -/
structure Starting (keys : List (RewardKey × Bool)) (state : RewardManager ρ × RewardWait ρ) :
    Prop where
  waiting : Waiting state.1
  call : state.1.Call state.2
  keys : state.2.keys = keys
  opened : state.2.returned = none

theorem Starting.waitKey {keys : List (RewardKey × Bool)} {state : RewardManager ρ × RewardWait ρ}
    (h : Starting keys state) {key : RewardKey × Bool} (hkey : key ∈ keys) :
    Starting keys (waitKey state key) := by
  obtain ⟨s, call⟩ := state
  have hwaiting : Waiting s := h.waiting
  have hcall : s.Call call := h.call
  unfold RewardManager.waitKey
  dsimp only
  split
  · rename_i hpad
    have hmem : (key.1, true) ∈ call.keys := by
      rw [h.keys, ← hpad]
      exact hkey
    exact ⟨hwaiting, hcall.take (.inl ⟨rfl, hmem⟩), h.keys, h.opened⟩
  split
  · rename_i outcome hget
    have htake := hcall.take (.inr (hwaiting.stored key.1 outcome hget))
    exact ⟨hwaiting.takeReward, htake.congr (.of_eq rfl rfl) (Nat.le_refl _) (fun _ _ => rfl)
      (fun _ _ hget hnone => ⟨hnone, hget⟩) fun _ _ hnone => hnone, h.keys, h.opened⟩
  split
  · rename_i fut hget
    obtain ⟨hlt, hfut⟩ := hwaiting.mapped key.1 fut hget
    exact ⟨hwaiting, hcall.waitFor hlt hfut hget, h.keys, h.opened⟩
  · rename_i hget
    have hfree : s.Replaceable key.1 := by
      intro fut hfut
      rw [hget] at hfut
      cases hfut
    refine ⟨hwaiting.newFuture hfree, (hcall.newFuture hfree).waitFor (Nat.lt_succ_self _)
      (Function.update_self ..) ?_, h.keys, h.opened⟩
    rw [get?_newFuture, if_pos rfl]

theorem Waiting.startWait (h : Waiting s) (keys : List (RewardKey × Bool)) :
    Starting keys (s.startWait keys) := by
  refine List.foldlRecOn keys RewardManager.waitKey ?_ fun state hstate key hkey =>
    hstate.waitKey hkey
  refine ⟨h, ⟨fun k fut hget => ?_, fun k out hget => ?_, fun l hl => ?_⟩, rfl, rfl⟩
  · cases hget
  · cases hget
  · cases hl

/-- What a call has for a key is proper. -/
theorem Waiting.received (h : Waiting s) (hcall : s.Call call)
    (hget : s.received call key = some outcome) : s.Proper call key outcome := by
  unfold RewardManager.received at hget
  split at hget
  · rename_i fut hwait
    obtain ⟨-, hkey, -⟩ := hcall.waits key fut hwait
    rw [← hkey]
    exact .inr (h.resolved fut outcome hget)
  · exact hcall.took key outcome hget

/-- The state after the futures of some keys were taken away. -/
def popFutures (s : RewardManager ρ) (keys : List (RewardKey × Bool)) : RewardManager ρ :=
  keys.foldl (fun s key => s.popFuture key.1) s

theorem replaceable_popFuture {k : RewardKey} (h : s.Replaceable k) :
    (s.popFuture key).Replaceable k := by
  intro fut hfut
  rw [get?_popFuture] at hfut
  split at hfut
  · cases hfut
  · exact h fut hfut

/-- The futures of keys whose futures are resolved may be taken away. -/
theorem Waiting.popFutures : ∀ {keys : List (RewardKey × Bool)}
    {s : RewardManager ρ}, Waiting s → s.Call call → (∀ key ∈ keys, s.Replaceable key.1) →
      Waiting (s.popFutures keys) ∧ (s.popFutures keys).Call call
  | [], _, h, hcall, _ => ⟨h, hcall⟩
  | key :: keys, s, h, hcall, hfree => by
      have hhead := hfree key (List.mem_cons_self ..)
      exact (h.popFuture hhead).popFutures (hcall.popFuture hhead) fun k hk =>
        replaceable_popFuture (hfree k (List.mem_cons_of_mem _ hk))

/-- The end of a wait. -/
theorem Waiting.finishWait (h : Waiting s) (hcall : s.Call call)
    (hfree : ∀ key ∈ call.keys, s.Replaceable key.1) :
    Waiting (s.finishWait call).1 ∧ (s.finishWait call).1.Call (s.finishWait call).2 := by
  obtain ⟨hwaiting, hpop⟩ := h.popFutures hcall hfree
  refine ⟨hwaiting, ⟨fun k fut hget => ?_, hpop.took, fun l hl item hitem => ?_⟩⟩
  · obtain ⟨hlt, hkey, -⟩ := hpop.waits k fut hget
    exact ⟨hlt, hkey, fun hopen => by cases hopen⟩
  · cases hl
    obtain ⟨key, -, hkey⟩ := List.mem_filterMap.mp hitem
    obtain ⟨outcome, hout, rfl⟩ := Option.map_eq_some_iff.mp hkey
    exact (h.received hcall hout).later (WaitFrame.finishWait s call).later

/-! ### A wait that does not suspend -/

/-- The key is padding, or its reward is there. -/
def AtHand (s : RewardManager ρ) (key : RewardKey × Bool) : Prop :=
  key.2 = true ∨ (s.requestKeyToReward.get? key.1).isSome = true

instance (s : RewardManager ρ) (key : RewardKey × Bool) : Decidable (s.AtHand key) :=
  inferInstanceAs (Decidable (_ ∨ _))

theorem waitKey_of_nil {key : RewardKey × Bool}
    (h : (waitKey (s, call) key).2.futuresToWait.items = []) :
    s.AtHand key ∧ call.futuresToWait.items = [] ∧
      (waitKey (s, call) key).1.requestKeyToFuture = s.requestKeyToFuture ∧
      (waitKey (s, call) key).1.futures = s.futures ∧
      ∀ key', (waitKey (s, call) key).1.AtHand key' → s.AtHand key' := by
  unfold waitKey at h ⊢
  dsimp only at h ⊢
  split at h
  · rename_i hpad
    rw [if_pos hpad]
    exact ⟨.inl hpad, h, rfl, rfl, fun _ => id⟩
  · rename_i hpad
    rw [if_neg hpad]
    split at h
    · rename_i outcome hget
      refine ⟨.inr (by rw [hget]; rfl), h, rfl, rfl, fun key' hkey' => hkey'.imp id fun hsome => ?_⟩
      have hsome : ((s.requestKeyToReward.erase key.1).get? key'.1).isSome = true := hsome
      rw [Dict.get?_erase] at hsome
      split at hsome
      · cases hsome
      · exact hsome
    · split at h
      · exact (Dict.items_set_ne_nil _ _ _ h).elim
      · exact (Dict.items_set_ne_nil _ _ _ h).elim

/-- Without a future to wait for, every key was at hand. -/
theorem foldl_waitKey_of_nil : ∀ {keys : List (RewardKey × Bool)} {s : RewardManager ρ}
    {call : RewardWait ρ}, (keys.foldl waitKey (s, call)).2.futuresToWait.items = [] →
      call.futuresToWait.items = [] ∧ (∀ key ∈ keys, s.AtHand key) ∧
        (keys.foldl waitKey (s, call)).1.requestKeyToFuture = s.requestKeyToFuture ∧
        (keys.foldl waitKey (s, call)).1.futures = s.futures
  | [], _, _, h => ⟨h, fun _ hkey => absurd hkey List.not_mem_nil, rfl, rfl⟩
  | key :: keys, s, call, h => by
      rw [List.foldl_cons] at h ⊢
      obtain ⟨hnil, hrest, hmap, hfutures⟩ := foldl_waitKey_of_nil h
      obtain ⟨hhead, hnil, hmap', hfutures', hback⟩ := waitKey_of_nil hnil
      refine ⟨hnil, fun k hk => ?_, hmap.trans hmap', hfutures.trans hfutures'⟩
      rcases List.mem_cons.mp hk with rfl | hk
      · exact hhead
      · exact hback k (hrest k hk)

end RewardManager

end Psrl
