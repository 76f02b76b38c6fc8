import Psrl.Gen.SessionRouter

/-!
# Psrl.Gen.SessionRuns

**Runs of the session router.** Every session object keeps its control fields in step
(`SessionState.Sound`), and its counter `inflight` is the number of turns that were admitted and
have not been closed (`Inv.counted`). A turn that has ended without being closed stays in the
count for good: that happens when it is cancelled while its body is read, or when the turn writer
raises.
-/

namespace Psrl

open Py

/-! ### The control fields of a session -/

namespace SessionState

variable {state : SessionState}

/-- The control fields fit together. -/
structure Sound (state : SessionState) : Prop where
  running : state.hangState = .running ↔ state.continueEvent.isSet = true
  drained : state.drained.isSet = true ↔ state.inflight = 0
  hung : state.hangState = .hung → state.inflight = 0 ∧ state.closing = false
  marked : state.markedForHang = true → 0 < state.inflight ∧ state.closing = false

/-- What the end of a turn does to the control fields. -/
structure Closed (state state' : SessionState) : Prop where
  inflight : state'.inflight = state.inflight - 1
  closing : state'.closing = state.closing
  pin : state'.pinOnceInstance = state.pinOnceInstance
  drained : state'.drained = if state.inflight - 1 = 0 then state.drained.set else state.drained
  marked : state'.markedForHang = (state.markedForHang && decide (state.inflight - 1 ≠ 0))
  hang : if state.markedForHang = true ∧ state.inflight - 1 = 0
    then state'.hangState = .hung ∧ state'.continueEvent = state.continueEvent.clear
    else state'.hangState = state.hangState ∧ state'.continueEvent = state.continueEvent

/-- The bookkeeping of a turn touches none of the control fields. -/
theorem settle_control (state : SessionState) (trajectoryId : Option Int)
    (result : Option HttpResponse) :
    ∃ trajectoryTurns baseWorkerId targetDpRank versionTag totalTokens,
      state.settle trajectoryId result = { state with
        trajectoryTurns := trajectoryTurns
        baseWorkerId := baseWorkerId
        targetDpRank := targetDpRank
        versionTag := versionTag
        totalTokens := totalTokens } := by
  cases result with
  | none => exact ⟨_, _, _, _, _, rfl⟩
  | some result =>
      unfold settle
      dsimp only
      split
      · exact ⟨_, _, _, _, _, rfl⟩
      · exact ⟨_, _, _, _, _, rfl⟩

theorem closeTurn_closed (state : SessionState) (trajectoryId : Option Int)
    (result : Option HttpResponse) : state.Closed (state.closeTurn trajectoryId result) := by
  obtain ⟨_, _, _, _, _, hsettle⟩ := state.countDown.settle_control trajectoryId result
  unfold closeTurn applyDeferredHang
  rw [hsettle]
  split
  · rename_i happly
    have hhang : state.markedForHang = true ∧ state.inflight - 1 = 0 := happly
    exact ⟨rfl, rfl, rfl, rfl, by simp [hhang.2], by rw [if_pos hhang]; exact ⟨rfl, rfl⟩⟩
  · rename_i happly
    have hhang : ¬ (state.markedForHang = true ∧ state.inflight - 1 = 0) := happly
    refine ⟨rfl, rfl, rfl, rfl, ?_, by rw [if_neg hhang]; exact ⟨rfl, rfl⟩⟩
    show state.markedForHang = _
    cases hmarked : state.markedForHang with
    | false => rfl
    | true =>
        have hbusy : state.inflight - 1 ≠ 0 := fun hzero => hhang ⟨hmarked, hzero⟩
        simp [hbusy]

namespace Sound

theorem new (headers : Dict String String) : (SessionState.new headers).Sound where
  running := by simp [SessionState.new]
  drained := by simp [SessionState.new]
  hung := fun h => by cases h
  marked := fun h => by cases h

/-- A turn is admitted while the session runs. -/
theorem admitTurn (h : state.Sound) (hclosing : state.closing = false)
    (hrunning : state.hangState = .running) : state.admitTurn.Sound where
  running := h.running
  drained := by simp [SessionState.admitTurn]
  hung := fun hhung => by
    have : state.hangState = .hung := hhung
    rw [hrunning] at this
    cases this
  marked := fun _ => ⟨Nat.succ_pos _, hclosing⟩

theorem closed {state' : SessionState} (h : state.Sound) (hstate : state.Closed state')
    (hpos : 0 < state.inflight) : state'.Sound := by
  have hhang := hstate.hang
  constructor
  case running =>
    split at hhang
    · rw [hhang.1, hhang.2]
      simp
    · rw [hhang.1, hhang.2]
      exact h.running
  case drained =>
    have hset : ¬ state.drained.isSet = true := fun hset => by
      have := h.drained.mp hset
      omega
    rw [hstate.drained, hstate.inflight]
    split
    · rename_i hzero
      simp [hzero]
    · rename_i hzero
      simp [hset, hzero]
  case hung =>
    intro hhung
    split at hhang
    · rename_i hmarked
      rw [hstate.inflight, hstate.closing]
      exact ⟨hmarked.2, (h.marked hmarked.1).2⟩
    · rw [hhang.1] at hhung
      have := (h.hung hhung).1
      omega
  case marked =>
    intro hmarked
    rw [hstate.marked, Bool.and_eq_true, decide_eq_true_iff] at hmarked
    rw [hstate.inflight, hstate.closing]
    exact ⟨Nat.pos_of_ne_zero hmarked.2, (h.marked hmarked.1).2⟩

theorem beginDelete (h : state.Sound) : state.beginDelete.Sound where
  running := by simp [SessionState.beginDelete]
  drained := h.drained
  hung := fun hhung => by cases hhung
  marked := fun hmarked => by cases hmarked

theorem hang (h : state.Sound) : state.hang.Sound := by
  unfold SessionState.hang
  split
  · exact h
  · rename_i hclosing
    split
    · rename_i hzero
      exact ⟨by simp, h.drained, fun _ => ⟨hzero, by simpa using hclosing⟩,
        fun hmarked => by cases hmarked⟩
    · rename_i hzero
      exact ⟨h.running, h.drained, h.hung,
        fun _ => ⟨Nat.pos_of_ne_zero hzero, by simpa using hclosing⟩⟩

theorem continueWith (h : state.Sound) (inst : Option (String × String)) :
    (state.continueWith inst).Sound where
  running := by simp [SessionState.continueWith]
  drained := h.drained
  hung := fun hhung => by cases hhung
  marked := fun hmarked => by cases hmarked

end Sound

end SessionState

/-! ### Counting turns -/

namespace TurnPhase

/-- Admitted and not yet ended. -/
def inFlight : TurnPhase → Bool
  | .body | .upstream _ => true
  | _ => false

/-- Ended after the admission without being closed. -/
def leaked : TurnPhase → Bool
  | .ended .bodyRaised | .ended .writerRaised => true
  | _ => false

end TurnPhase

namespace SessionRouter

variable {s : SessionRouter} {ref : Nat}

/-- The turns on an object that have passed admission and not yet ended. -/
def outstanding (s : SessionRouter) (ref : Nat) : Nat :=
  s.turns.countP fun turn => turn.ref = ref ∧ turn.phase.inFlight = true

def leaks (s : SessionRouter) (ref : Nat) : Nat :=
  s.turns.countP fun turn => turn.ref = ref ∧ turn.phase.leaked = true

/-- A turn that `inflight` of its object still counts. -/
def holds (ref : Nat) (turn : Turn) : Bool :=
  decide (turn.ref = ref) && (turn.phase.inFlight || turn.phase.leaked)

theorem countP_holds (s : SessionRouter) (ref : Nat) :
    s.turns.countP (holds ref) = s.outstanding ref + s.leaks ref := by
  unfold outstanding leaks
  induction s.turns with
  | nil => rfl
  | cons turn rest ih =>
      rw [List.countP_cons, List.countP_cons, List.countP_cons, ih]
      have hone : (if holds ref turn = true then 1 else 0) =
          (if decide (turn.ref = ref ∧ turn.phase.inFlight = true) = true then 1 else 0) +
          (if decide (turn.ref = ref ∧ turn.phase.leaked = true) = true then 1 else 0) := by
        unfold holds
        by_cases href : turn.ref = ref
        · cases hphase : turn.phase with
          | ended how => cases how <;> simp [href, TurnPhase.inFlight, TurnPhase.leaked]
          | _ => simp [href, TurnPhase.inFlight, TurnPhase.leaked]
        · simp [href]
      omega

/-- A turn goes on: what it counted before and what it counts now. -/
theorem countP_holds_set (ref : Nat) {turns : List Turn} {i : Nat} {turn : Turn} (turn' : Turn)
    (hi : turns[i]? = some turn) :
    (turns.set i turn').countP (holds ref) + (if holds ref turn = true then 1 else 0) =
      turns.countP (holds ref) + (if holds ref turn' = true then 1 else 0) := by
  obtain ⟨hlt, rfl⟩ := List.getElem?_eq_some_iff.mp hi
  rw [List.countP_set hlt]
  have hpos : (if holds ref turns[i] = true then 1 else 0) ≤ turns.countP (holds ref) := by
    split
    · rename_i hholds
      exact List.countP_pos_iff.mpr ⟨_, List.getElem_mem hlt, hholds⟩
    · exact Nat.zero_le _
  omega

theorem countP_holds_same {turns : List Turn} {i : Nat} {turn turn' : Turn}
    (hi : turns[i]? = some turn) (hsame : holds ref turn' = holds ref turn) :
    (turns.set i turn').countP (holds ref) = turns.countP (holds ref) := by
  have := countP_holds_set ref turn' hi
  rw [hsame] at this
  omega

/-! ### The invariant -/

/-- The pins that are armed and used; `pinOnceInstance` is set while one is armed. -/
structure Pins (s : SessionRouter) : Prop where
  tied : ∀ ref, (s.objects ref).pinOnceInstance.isSome = (s.armed ref).isSome
  fresh : ∀ ref n, s.armed ref = some n → n < s.pinCount ∧ n ∉ s.pinUses
  distinct : ∀ ref ref' n, s.armed ref = some n → s.armed ref' = some n → ref = ref'
  used : ∀ n ∈ s.pinUses, n < s.pinCount
  nodup : s.pinUses.Nodup

/-- A deletion waits for its session, which is closing, to be drained. -/
structure Drains (state : SessionState) (ticket : Nat) : Prop where
  closing : state.closing = true
  valid : ticket ≤ state.drained.epoch
  released : ticket < state.drained.epoch ↔ state.drained.isSet = true

namespace Pins

/-- The object changes, but not whether a pin is armed for it. -/
theorem keep (h : Pins s) {state' : SessionState}
    (hpin : state'.pinOnceInstance.isSome = (s.objects ref).pinOnceInstance.isSome) :
    Pins { s with objects := Function.update s.objects ref state' } := by
  refine ⟨fun r => ?_, h.fresh, h.distinct, h.used, h.nodup⟩
  simp only [Function.update_apply]
  split
  · rename_i hr
    rw [hpin, hr]
    exact h.tied ref
  · exact h.tied r

/-- A new pin is armed for the object, in the place of the last one. -/
theorem arm (h : Pins s) {state' : SessionState} (hpin : state'.pinOnceInstance.isSome = true) :
    Pins { s with
      objects := Function.update s.objects ref state'
      armed := Function.update s.armed ref (some s.pinCount)
      pinCount := s.pinCount + 1 } := by
  have harmed : ∀ r n, Function.update s.armed ref (some s.pinCount) r = some n →
      (r = ref ∧ n = s.pinCount) ∨ (s.armed r = some n ∧ n < s.pinCount) := by
    intro r n hr
    rw [Function.update_apply] at hr
    split at hr
    · rename_i heq
      exact .inl ⟨heq, (Option.some.inj hr).symm⟩
    · exact .inr ⟨hr, (h.fresh r n hr).1⟩
  refine ⟨fun r => ?_, fun r n hr => ?_, fun r r' n hr hr' => ?_,
    fun n hn => Nat.lt_succ_of_lt (h.used n hn), h.nodup⟩
  · simp only [Function.update_apply]
    split
    · rw [hpin]
      rfl
    · exact h.tied r
  · obtain ⟨-, rfl⟩ | ⟨hr, hlt⟩ := harmed r n hr
    · exact ⟨Nat.lt_succ_self _, fun hn => Nat.lt_irrefl _ (h.used _ hn)⟩
    · exact ⟨Nat.lt_succ_of_lt hlt, (h.fresh r n hr).2⟩
  · obtain ⟨rfl, rfl⟩ | ⟨hr, hlt⟩ := harmed r n hr
    · obtain ⟨rfl, -⟩ | ⟨-, hlt⟩ := harmed r' _ hr'
      · rfl
      · exact absurd hlt (Nat.lt_irrefl _)
    · obtain ⟨-, rfl⟩ | ⟨hr', -⟩ := harmed r' n hr'
      · exact absurd hlt (Nat.lt_irrefl _)
      · exact h.distinct r r' n hr hr'

end Pins

structure Inv (s : SessionRouter) : Prop where
  sound : ∀ ref, (s.objects ref).Sound
  counted : ∀ ref, (s.objects ref).inflight = s.turns.countP (holds ref)
  turnRefs : ∀ turn ∈ s.turns, turn.ref < s.nextRef
  stateRefs : ∀ sid ref, s.states.get? sid = some ref → ref < s.nextRef
  deleteRefs : ∀ d ∈ s.deletes, d.ref < s.nextRef
  draining : ∀ d ∈ s.deletes, ∀ ticket, d.phase = .draining ticket →
    Drains (s.objects d.ref) ticket
  sent : ∀ ref ∈ s.deleteSent, ref < s.nextRef ∧ (s.objects ref).closing = true ∧
    (s.objects ref).inflight = 0
  deferred : ∀ ref, s.hangDeferred ref = true →
    ref < s.nextRef ∧ ((s.objects ref).markedForHang = true ∨ (s.objects ref).hangState = .hung)
  pins : Pins s
  unarmed : ∀ ref n, s.armed ref = some n → ref < s.nextRef

namespace Inv

theorem init (strategy : TrajectoryIdStrategy) : Inv (init strategy) where
  sound _ := .new _
  counted _ := rfl
  turnRefs turn hturn := absurd hturn List.not_mem_nil
  stateRefs sid ref h := by cases h
  deleteRefs d hd := absurd hd List.not_mem_nil
  draining d hd := absurd hd List.not_mem_nil
  sent ref href := absurd href List.not_mem_nil
  deferred ref h := by cases h
  pins := ⟨fun _ => rfl, fun _ _ h => (by cases h), fun _ _ _ h => (by cases h),
    fun n hn => absurd hn List.not_mem_nil, List.nodup_nil⟩
  unarmed ref n h := by cases h

/-- A new object is created where none was. -/
theorem ensureState (h : Inv s) (sid : String) :
    Inv (s.ensureState sid).2 ∧ (s.ensureState sid).1 < (s.ensureState sid).2.nextRef := by
  unfold SessionRouter.ensureState
  split
  · rename_i ref href
    exact ⟨h, h.stateRefs sid ref href⟩
  · refine ⟨?_, Nat.lt_succ_self _⟩
    have hold : ∀ {r : Nat}, r < s.nextRef → ∀ state : SessionState,
        Function.update s.objects s.nextRef state r = s.objects r :=
      fun hr state => Function.update_of_ne (Nat.ne_of_lt hr) _ _
    constructor
    case sound =>
      intro ref
      simp only [Function.update_apply]
      split
      · exact .new _
      · exact h.sound ref
    case counted =>
      intro ref
      simp only [Function.update_apply]
      split
      · rename_i href
        subst href
        refine (List.countP_eq_zero.mpr fun turn hturn => ?_).symm
        simp [holds, Nat.ne_of_lt (h.turnRefs turn hturn)]
      · exact h.counted ref
    case turnRefs => exact fun turn hturn => Nat.lt_succ_of_lt (h.turnRefs turn hturn)
    case stateRefs =>
      intro sid' ref href
      dsimp only at href
      rw [Dict.get?_set] at href
      split at href
      · cases href
        exact Nat.lt_succ_self _
      · exact Nat.lt_succ_of_lt (h.stateRefs sid' ref href)
    case deleteRefs => exact fun d hd => Nat.lt_succ_of_lt (h.deleteRefs d hd)
    case draining =>
      intro d hd ticket hphase
      dsimp only
      rw [hold (h.deleteRefs d hd)]
      exact h.draining d hd ticket hphase
    case sent =>
      intro ref href
      obtain ⟨hlt, hsent⟩ := h.sent ref href
      dsimp only
      rw [hold hlt]
      exact ⟨Nat.lt_succ_of_lt hlt, hsent⟩
    case deferred =>
      intro ref href
      obtain ⟨hlt, hdeferred⟩ := h.deferred ref href
      dsimp only
      rw [hold hlt]
      exact ⟨Nat.lt_succ_of_lt hlt, hdeferred⟩
    case pins =>
      refine ⟨fun ref => ?_, h.pins.fresh, h.pins.distinct, h.pins.used, h.pins.nodup⟩
      simp only [Function.update_apply]
      split
      · rename_i href
        subst href
        cases harmed : s.armed s.nextRef with
        | none => rfl
        | some n => exact absurd (h.unarmed _ n harmed) (Nat.lt_irrefl _)
      · exact h.pins.tied ref
    case unarmed => exact fun ref n harmed => Nat.lt_succ_of_lt (h.unarmed ref n harmed)

/-- A turn goes on without a change to its object. -/
theorem setTurns (h : Inv s) {turns : List Turn} (hrefs : ∀ turn ∈ turns, turn.ref < s.nextRef)
    (hcount : ∀ r, turns.countP (holds r) = s.turns.countP (holds r)) :
    Inv { s with turns := turns } :=
  ⟨h.sound, fun r => (h.counted r).trans (hcount r).symm, hrefs, h.stateRefs, h.deleteRefs,
    h.draining, h.sent, h.deferred, ⟨h.pins.1, h.pins.2, h.pins.3, h.pins.4, h.pins.5⟩, h.unarmed⟩

theorem setDeletes (h : Inv s) {deletes : List Delete} {deleteSent : List Nat}
    (hrefs : ∀ d ∈ deletes, d.ref < s.nextRef)
    (hdraining : ∀ d ∈ deletes, ∀ ticket, d.phase = .draining ticket →
      Drains (s.objects d.ref) ticket)
    (hsent : ∀ ref ∈ deleteSent, ref < s.nextRef ∧ (s.objects ref).closing = true ∧
      (s.objects ref).inflight = 0) :
    Inv { s with deletes := deletes, deleteSent := deleteSent } :=
  ⟨h.sound, h.counted, h.turnRefs, h.stateRefs, hrefs, hdraining, hsent, h.deferred,
    ⟨h.pins.1, h.pins.2, h.pins.3, h.pins.4, h.pins.5⟩, h.unarmed⟩

/-- A turn is admitted to the object `ref`, and counted. -/
theorem admitTurn (h : Inv s) {turns : List Turn} (href : ref < s.nextRef)
    (hclosing : (s.objects ref).closing = false) (hrunning : (s.objects ref).hangState = .running)
    (hrefs : ∀ turn ∈ turns, turn.ref < s.nextRef)
    (hcount : ∀ r, turns.countP (holds r) = s.turns.countP (holds r) + if r = ref then 1 else 0) :
    Inv { s with
      objects := Function.update s.objects ref (s.objects ref).admitTurn
      armed := Function.update s.armed ref none
      pinUses := s.pinUses ++ (s.armed ref).toList
      turns := turns } := by
  constructor
  case sound =>
    intro r
    simp only [Function.update_apply]
    split
    · rename_i hr
      exact (h.sound ref).admitTurn hclosing hrunning
    · exact h.sound r
  case counted =>
    intro r
    simp only [Function.update_apply]
    rw [hcount]
    split
    · rename_i hr
      rw [hr, ← h.counted]
      rfl
    · exact h.counted r
  case turnRefs => exact hrefs
  case stateRefs => exact h.stateRefs
  case deleteRefs => exact h.deleteRefs
  case draining =>
    intro d hd ticket hphase
    have hdrains := h.draining d hd ticket hphase
    simp only [Function.update_apply]
    rw [if_neg]
    · exact hdrains
    · intro heq
      have := hdrains.closing
      rw [heq, hclosing] at this
      cases this
  case sent =>
    intro r hr
    obtain ⟨hlt, hsent⟩ := h.sent r hr
    simp only [Function.update_apply]
    rw [if_neg]
    · exact ⟨hlt, hsent⟩
    · intro heq
      rw [heq, hclosing] at hsent
      cases hsent.1
  case deferred =>
    intro r hr
    simp only [Function.update_apply]
    refine ⟨(h.deferred r hr).1, ?_⟩
    split
    · rename_i heq
      subst heq
      exact (h.deferred r hr).2
    · exact (h.deferred r hr).2
  case pins =>
    obtain ⟨htied, hfresh, hdistinct, hused, hnodup⟩ := h.pins
    have hmem : ∀ n, n ∈ s.pinUses ++ (s.armed ref).toList ↔
        n ∈ s.pinUses ∨ s.armed ref = some n := by
      intro n
      rw [List.mem_append, Option.mem_toList]
    have harmed : ∀ r n, Function.update s.armed ref none r = some n →
        r ≠ ref ∧ s.armed r = some n := by
      intro r n hr
      rw [Function.update_apply] at hr
      split at hr
      · cases hr
      · exact ⟨by assumption, hr⟩
    refine ⟨fun r => ?_, fun r n hr => ?_, fun r r' n hr hr' => ?_, fun n hn => ?_, ?_⟩
    · simp only [Function.update_apply]
      split
      · rfl
      · exact htied r
    · obtain ⟨hne, hr⟩ := harmed r n hr
      refine ⟨(hfresh r n hr).1, fun hn => ?_⟩
      obtain hn | hn := (hmem n).mp hn
      · exact (hfresh r n hr).2 hn
      · exact hne (hdistinct r ref n hr hn)
    · exact hdistinct r r' n (harmed r n hr).2 (harmed r' n hr').2
    · obtain hn | hn := (hmem n).mp hn
      · exact hused n hn
      · exact (hfresh ref n hn).1
    · refine List.nodup_append.mpr ⟨hnodup, ?_, fun a ha b hb hab => ?_⟩
      · cases s.armed ref <;> simp
      · exact (hfresh ref b (Option.mem_toList.mp hb)).2 (hab ▸ ha)
  case unarmed =>
    intro r n hr
    simp only [Function.update_apply] at hr
    split at hr
    · cases hr
    · exact h.unarmed r n hr

/-- A turn on the object `ref` is closed, and no longer counted. -/
theorem close (h : Inv s) {turns : List Turn} {state' : SessionState}
    (hclosed : (s.objects ref).Closed state') (hpos : 0 < (s.objects ref).inflight)
    (hrefs : ∀ turn ∈ turns, turn.ref < s.nextRef)
    (hcount : ∀ r, turns.countP (holds r) + (if r = ref then 1 else 0) = s.turns.countP (holds r))
    (writes : List TurnRecord) (served : Nat → List String) :
    Inv { s with
      objects := Function.update s.objects ref state'
      turns := turns
      writes := writes
      served := served } := by
  constructor
  case sound =>
    intro r
    simp only [Function.update_apply]
    split
    · exact (h.sound ref).closed hclosed hpos
    · exact h.sound r
  case counted =>
    intro r
    have := hcount r
    simp only [Function.update_apply]
    split
    · rename_i hr
      rw [if_pos hr] at this
      rw [hclosed.inflight, h.counted, ← hr, ← this, Nat.add_sub_cancel]
    · rename_i hr
      rw [if_neg hr] at this
      rw [h.counted, ← this, Nat.add_zero]
  case turnRefs => exact hrefs
  case stateRefs => exact h.stateRefs
  case deleteRefs => exact h.deleteRefs
  case draining =>
    intro d hd ticket hphase
    have hdrains := h.draining d hd ticket hphase
    simp only [Function.update_apply]
    split
    · rename_i heq
      rw [heq] at hdrains
      have hunset : ¬ (s.objects ref).drained.isSet = true := fun hset => by
        have := (h.sound ref).drained.mp hset
        omega
      refine ⟨hclosed.closing.trans hdrains.closing, ?_, ?_⟩
      · rw [hclosed.drained]
        split
        · exact hdrains.valid.trans (Event.epoch_le_set _)
        · exact hdrains.valid
      · rw [hclosed.drained]
        split
        · simp [Event.lt_epoch_set hdrains.valid fun hset => absurd hset hunset]
        · exact hdrains.released
    · exact hdrains
  case sent =>
    intro r hr
    obtain ⟨hlt, hclosing, hzero⟩ := h.sent r hr
    simp only [Function.update_apply]
    refine ⟨hlt, ?_⟩
    split
    · rename_i heq
      rw [heq] at hzero
      omega
    · exact ⟨hclosing, hzero⟩
  case deferred =>
    intro r hr
    obtain ⟨hlt, hdeferred⟩ := h.deferred r hr
    simp only [Function.update_apply]
    refine ⟨hlt, ?_⟩
    split
    · rename_i heq
      rw [heq] at hdeferred
      obtain hmarked | hhung := hdeferred
      · by_cases hzero : (s.objects ref).inflight - 1 = 0
        · have hhang := hclosed.hang
          rw [if_pos ⟨hmarked, hzero⟩] at hhang
          exact .inr hhang.1
        · refine .inl ?_
          rw [hclosed.marked, hmarked]
          simp [hzero]
      · have := ((h.sound ref).hung hhung).1
        omega
    · exact hdeferred
  case pins =>
    refine ⟨fun r => ?_, h.pins.fresh, h.pins.distinct, h.pins.used, h.pins.nodup⟩
    simp only [Function.update_apply]
    split
    · rename_i hr
      rw [hclosed.pin, hr]
      exact h.pins.tied ref
    · exact h.pins.tied r
  case unarmed => exact h.unarmed

/-- A command changes the control fields of an object, but not its turns. -/
theorem command (h : Inv s) {state' : SessionState} {deferred : Nat → Bool} (href : ref < s.nextRef)
    (hsound : state'.Sound) (hinflight : state'.inflight = (s.objects ref).inflight)
    (hdrained : state'.drained = (s.objects ref).drained)
    (hclosing : (s.objects ref).closing = true → state'.closing = true)
    (hself : deferred ref = true → state'.markedForHang = true ∨ state'.hangState = .hung)
    (hother : ∀ r, r ≠ ref → deferred r = s.hangDeferred r) {armed : Nat → Option Nat}
    {pinCount : Nat} (hunarmed : ∀ r n, armed r = some n → r < s.nextRef)
    (hpins : Pins { s with
      objects := Function.update s.objects ref state'
      armed := armed
      pinCount := pinCount }) :
    Inv { s with
      objects := Function.update s.objects ref state'
      hangDeferred := deferred
      armed := armed
      pinCount := pinCount } := by
  constructor
  case sound =>
    intro r
    simp only [Function.update_apply]
    split
    · exact hsound
    · exact h.sound r
  case counted =>
    intro r
    simp only [Function.update_apply]
    split
    · rename_i hr
      rw [hinflight, hr]
      exact h.counted ref
    · exact h.counted r
  case turnRefs => exact h.turnRefs
  case stateRefs => exact h.stateRefs
  case deleteRefs => exact h.deleteRefs
  case draining =>
    intro d hd ticket hphase
    have hdrains := h.draining d hd ticket hphase
    simp only [Function.update_apply]
    split
    · rename_i heq
      rw [heq] at hdrains
      refine ⟨hclosing hdrains.closing, ?_, ?_⟩
      · rw [hdrained]
        exact hdrains.valid
      · rw [hdrained]
        exact hdrains.released
    · exact hdrains
  case sent =>
    intro r hr
    obtain ⟨hlt, hsent⟩ := h.sent r hr
    simp only [Function.update_apply]
    refine ⟨hlt, ?_⟩
    split
    · rename_i heq
      rw [heq] at hsent
      exact ⟨hclosing hsent.1, hinflight.trans hsent.2⟩
    · exact hsent
  case deferred =>
    intro r hr
    simp only [Function.update_apply]
    by_cases heq : r = ref
    · subst heq
      rw [if_pos rfl]
      exact ⟨href, hself hr⟩
    · rw [if_neg heq]
      exact h.deferred r (by rw [← hother r heq]; exact hr)
  case pins => exact ⟨hpins.1, hpins.2, hpins.3, hpins.4, hpins.5⟩
  case unarmed => exact hunarmed

theorem hangSession (h : Inv s) (sid : String) : Inv (s.hangSession sid) := by
  unfold SessionRouter.hangSession
  split
  · exact h
  · rename_i ref hget
    have href := h.stateRefs sid ref hget
    have hsound := h.sound ref
    have hframe : (s.objects ref).hang.inflight = (s.objects ref).inflight ∧
        (s.objects ref).hang.drained = (s.objects ref).drained ∧
        (s.objects ref).hang.closing = (s.objects ref).closing ∧
        (s.objects ref).hang.pinOnceInstance = (s.objects ref).pinOnceInstance := by
      unfold SessionState.hang
      split
      · exact ⟨rfl, rfl, rfl, rfl⟩
      · split <;> exact ⟨rfl, rfl, rfl, rfl⟩
    refine h.command href hsound.hang hframe.1 hframe.2.1 (fun hc => hframe.2.2.1.trans hc)
      (fun hdeferred => ?_) (fun r hr => ?_) h.unarmed (h.pins.keep (by rw [hframe.2.2.2]))
    · unfold SessionState.hang
      split at hdeferred
      · rename_i hclosing
        rw [if_pos hclosing]
        exact (h.deferred ref hdeferred).2
      · rename_i hclosing
        rw [Function.update_self, decide_eq_true_iff] at hdeferred
        rw [if_neg hclosing, if_neg (Nat.ne_of_gt hdeferred)]
        exact .inl rfl
    · split
      · rfl
      · exact Function.update_of_ne hr _ _

theorem continueSession (h : Inv s) (pin : String × Option (String × String)) :
    Inv (s.continueSession pin) := by
  obtain ⟨sid, inst⟩ := pin
  unfold SessionRouter.continueSession
  dsimp only
  split
  · exact h
  · rename_i ref hget
    have href := h.stateRefs sid ref hget
    have hself : Function.update s.hangDeferred ref false ref = true →
        ((s.objects ref).continueWith inst).markedForHang = true ∨
          ((s.objects ref).continueWith inst).hangState = .hung := by
      rw [Function.update_self]
      exact fun hfalse => by cases hfalse
    have hother : ∀ r, r ≠ ref → Function.update s.hangDeferred ref false r = s.hangDeferred r :=
      fun r hr => Function.update_of_ne hr _ _
    have hsound := (h.sound ref).continueWith inst
    cases inst with
    | none => exact h.command href hsound rfl rfl id hself hother h.unarmed (h.pins.keep rfl)
    | some inst =>
        refine h.command href hsound rfl rfl id hself hother (fun r n hr => ?_) (h.pins.arm rfl)
        rw [Function.update_apply] at hr
        split at hr
        · rename_i heq
          exact heq ▸ href
        · exact h.unarmed r n hr

theorem markClosing_self (s : SessionRouter) (ref : Nat) :
    (s.markClosing ref).objects ref = (s.objects ref).beginDelete :=
  Function.update_self ..

theorem markClosing (h : Inv s) (href : ref < s.nextRef) : Inv (s.markClosing ref) :=
  h.command href (h.sound ref).beginDelete rfl rfl (fun _ => rfl)
    (by rw [Function.update_self]; exact fun hfalse => by cases hfalse)
    (fun r hr => Function.update_of_ne hr _ _) h.unarmed (h.pins.keep rfl)

/-- A deletion of a closing session waits, or goes on at once if nothing is in flight. -/
theorem awaitDrained (h : Inv s) (sid : String) (href : ref < s.nextRef)
    (hclosing : (s.objects ref).closing = true) : Inv (s.awaitDrained sid ref) := by
  have hrefs : ∀ (phase : DeletePhase), ∀ d ∈ s.deletes ++ [⟨sid, ref, phase⟩],
      d.ref < s.nextRef := by
    intro phase d hd
    obtain hd | hd := List.mem_append.mp hd
    · exact h.deleteRefs d hd
    · rw [List.mem_singleton.mp hd]
      exact href
  unfold SessionRouter.awaitDrained Event.wait
  by_cases hset : (s.objects ref).drained.isSet = true
  · rw [if_pos hset]
    refine h.setDeletes (hrefs _) (fun d hd ticket hphase => ?_) fun r hr => ?_
    · obtain hd | hd := List.mem_append.mp hd
      · exact h.draining d hd ticket hphase
      · rw [List.mem_singleton.mp hd] at hphase
        cases hphase
    · obtain hr | hr := List.mem_append.mp hr
      · exact h.sent r hr
      · rw [List.mem_singleton.mp hr]
        exact ⟨href, hclosing, (h.sound ref).drained.mp hset⟩
  · rw [if_neg hset]
    refine h.setDeletes (hrefs _) (fun d hd ticket hphase => ?_) h.sent
    obtain hd | hd := List.mem_append.mp hd
    · exact h.draining d hd ticket hphase
    · rw [List.mem_singleton.mp hd] at hphase ⊢
      cases hphase
      exact ⟨hclosing, Nat.le_refl _, by simp [hset]⟩

theorem deleteSession (h : Inv s) (sid : String) : Inv (s.deleteSession sid) := by
  obtain ⟨hensured, href⟩ := h.ensureState sid
  exact (hensured.markClosing href).awaitDrained sid href
    (congrArg SessionState.closing (markClosing_self (s.ensureState sid).2 _))

/-- A released deletion finds its session drained. -/
theorem sendDelete (h : Inv s) {i : Nat} (hallowed : s.Allowed (.drained i)) :
    Inv (s.sendDelete i) := by
  obtain ⟨d, hd, ticket, hticket, hpasses⟩ := hallowed
  have hmem := List.mem_of_getElem? hd
  have hphase : d.phase = .draining ticket := by
    cases hp : d.phase <;> rw [hp] at hticket <;> cases hticket
    rfl
  have hdrains := h.draining d hmem ticket hphase
  have hset := hdrains.released.mp (hpasses ticket rfl)
  unfold SessionRouter.sendDelete
  rw [show s.deletes[i]? = some d from hd]
  refine h.setDeletes (fun d' hd' => ?_) (fun d' hd' ticket' hphase' => ?_) fun r hr => ?_
  · obtain hd' | rfl := List.mem_or_eq_of_mem_set hd'
    · exact h.deleteRefs d' hd'
    · exact h.deleteRefs d hmem
  · obtain hd' | rfl := List.mem_or_eq_of_mem_set hd'
    · exact h.draining d' hd' ticket' hphase'
    · cases hphase'
  · obtain hr | hr := List.mem_append.mp hr
    · exact h.sent r hr
    · rw [List.mem_singleton.mp hr]
      exact ⟨h.deleteRefs d hmem, hdrains.closing, (h.sound d.ref).drained.mp hset⟩

theorem endDelete (h : Inv s) (i : Nat) : Inv (s.endDelete i) := by
  unfold SessionRouter.endDelete
  split
  · exact h
  · rename_i d hd
    have hmem := List.mem_of_getElem? hd
    have hdeletes : Inv { s with deletes := s.deletes.set i { d with phase := .ended } } := by
      refine h.setDeletes (fun d' hd' => ?_) (fun d' hd' ticket hphase => ?_) h.sent
      · obtain hd' | rfl := List.mem_or_eq_of_mem_set hd'
        · exact h.deleteRefs d' hd'
        · exact h.deleteRefs d hmem
      · obtain hd' | rfl := List.mem_or_eq_of_mem_set hd'
        · exact h.draining d' hd' ticket hphase
        · cases hphase
    refine ⟨hdeletes.1, hdeletes.2, hdeletes.3, fun sid ref href => ?_, hdeletes.5, hdeletes.6,
      hdeletes.7, hdeletes.8, ⟨h.pins.1, h.pins.2, h.pins.3, h.pins.4, h.pins.5⟩, hdeletes.10⟩
    dsimp only at href
    split at href
    · rw [Dict.get?_erase] at href
      split at href
      · cases href
      · exact h.stateRefs sid ref href
    · exact h.stateRefs sid ref href

/-! ### The steps of a turn -/

/-- One pass through the loop in front of the hang point: the turn is admitted, or nothing
happens to its object. -/
theorem enter_cases (s : SessionRouter) (turn : Turn) :
    (∃ phase, phase.inFlight = false ∧ phase.leaked = false ∧
      s.enter turn = (s, { turn with phase := phase })) ∨
    ((s.objects turn.ref).closing = false ∧ (s.objects turn.ref).hangState = .running ∧
      s.enter turn = ({ s with
        objects := Function.update s.objects turn.ref (s.objects turn.ref).admitTurn
        armed := Function.update s.armed turn.ref none
        pinUses := s.pinUses ++ (s.armed turn.ref).toList },
      { turn with
        sent := upstreamHeaders s.strategy turn.request (s.objects turn.ref)
        servedBefore := s.served turn.ref
        phase := .body })) := by
  unfold SessionRouter.enter SessionRouter.admitTurn
  dsimp only
  by_cases hclosing : (s.objects turn.ref).closing = true
  · rw [if_pos hclosing]
    exact .inl ⟨_, rfl, rfl, rfl⟩
  · rw [if_neg hclosing]
    cases hhang : (s.objects turn.ref).hangState with
    | hung =>
        rw [if_neg (by simp)]
        exact .inl ⟨_, rfl, rfl, rfl⟩
    | running =>
        rw [if_pos (by simp), if_neg hclosing]
        exact .inr ⟨by simpa using hclosing, rfl, rfl⟩

theorem startTurn (h : Inv s) {turn : Turn} (href : turn.ref < s.nextRef) :
    Inv (s.startTurn turn) := by
  have hrefs : ∀ turn' : Turn, turn'.ref = turn.ref →
      ∀ t ∈ s.turns ++ [turn'], t.ref < s.nextRef := by
    intro turn' hturn' t ht
    obtain ht | ht := List.mem_append.mp ht
    · exact h.turnRefs t ht
    · rw [List.mem_singleton.mp ht, hturn']
      exact href
  unfold SessionRouter.startTurn
  obtain ⟨phase, hflight, hleaked, henter⟩ | ⟨hclosing, hrunning, henter⟩ := enter_cases s turn
  · rw [henter]
    refine h.setTurns (hrefs _ rfl) fun r => ?_
    rw [List.countP_append]
    simp [holds, hflight, hleaked]
  · rw [henter]
    refine h.admitTurn href hclosing hrunning (hrefs _ rfl) fun r => ?_
    rw [List.countP_append]
    by_cases hr : r = turn.ref
    · simp [holds, hr, TurnPhase.inFlight]
    · simp [holds, hr, Ne.symm hr]

theorem sessionChatCompletions (h : Inv s) (sid : String) (trajectoryId : Int)
    (request : Dict String String) : Inv (s.sessionChatCompletions sid trajectoryId request) := by
  obtain ⟨hensured, href⟩ := h.ensureState sid
  exact hensured.startTurn href

/-- A turn that stays on its object. -/
theorem turnRefs_set (h : Inv s) {i : Nat} {turn turn' : Turn} (hi : s.turns[i]? = some turn)
    (href : turn'.ref = turn.ref) : ∀ t ∈ s.turns.set i turn', t.ref < s.nextRef := by
  intro t ht
  obtain ht | rfl := List.mem_or_eq_of_mem_set ht
  · exact h.turnRefs t ht
  · rw [href]
    exact h.turnRefs turn (List.mem_of_getElem? hi)

theorem wake (h : Inv s) {i : Nat} (hallowed : s.Allowed (.wake i)) :
    Inv (s.resumeTurn i s.enter) := by
  obtain ⟨turn, hi, ticket, hticket, -⟩ := hallowed
  have hi : s.turns[i]? = some turn := hi
  have hnot : ∀ r, holds r turn = false := by
    intro r
    cases hphase : turn.phase <;> rw [hphase] at hticket <;> cases hticket
    simp [holds, hphase, TurnPhase.inFlight, TurnPhase.leaked]
  unfold SessionRouter.resumeTurn
  rw [hi]
  dsimp only
  obtain ⟨phase, hflight, hleaked, henter⟩ | ⟨hclosing, hrunning, henter⟩ := enter_cases s turn
  · rw [henter]
    refine h.setTurns (h.turnRefs_set hi rfl) fun r => countP_holds_same hi ?_
    rw [hnot r]
    simp [holds, hflight, hleaked]
  · rw [henter]
    refine h.admitTurn (h.turnRefs turn (List.mem_of_getElem? hi)) hclosing hrunning
      (h.turnRefs_set hi rfl) fun r => ?_
    have := countP_holds_set r { turn with
        sent := upstreamHeaders s.strategy turn.request (s.objects turn.ref)
        servedBefore := s.served turn.ref
        phase := .body } hi
    rw [hnot r, if_neg Bool.false_ne_true] at this
    rw [Nat.add_zero] at this
    rw [this]
    by_cases hr : r = turn.ref
    · simp [holds, hr, TurnPhase.inFlight]
    · simp [holds, hr, Ne.symm hr]

theorem readBody (h : Inv s) {i : Nat} (hallowed : s.Allowed (.readBody i)) :
    Inv (s.resumeTurn i s.sendUpstream) := by
  obtain ⟨turn, hi, hphase⟩ := hallowed
  have hi : s.turns[i]? = some turn := hi
  unfold SessionRouter.resumeTurn SessionRouter.sendUpstream
  rw [hi]
  dsimp only
  refine h.setTurns (h.turnRefs_set hi rfl) fun r => countP_holds_same hi ?_
  simp [holds, hphase, TurnPhase.inFlight]

/-- A turn that is cancelled while its body is read is counted for good. -/
theorem abandon (h : Inv s) {i : Nat} (hallowed : s.Allowed (.abandon i)) :
    Inv (s.resumeTurn i s.abandon) := by
  obtain ⟨turn, hi, hphase⟩ := hallowed
  have hi : s.turns[i]? = some turn := hi
  obtain ⟨phase, habandon, hholds⟩ : ∃ phase, s.abandon turn = (s, { turn with phase := phase }) ∧
      ∀ r, holds r { turn with phase := phase } = holds r turn := by
    unfold SessionRouter.abandon
    cases hp : turn.phase with
    | hung ticket =>
        exact ⟨_, rfl, fun r => by simp [holds, hp, TurnPhase.inFlight, TurnPhase.leaked]⟩
    | body => exact ⟨_, rfl, fun r => by simp [holds, hp, TurnPhase.inFlight, TurnPhase.leaked]⟩
    | upstream turnIndex => rw [hp] at hphase; simp [TurnPhase.ticket?] at hphase
    | ended how => rw [hp] at hphase; simp [TurnPhase.ticket?] at hphase
  unfold SessionRouter.resumeTurn
  rw [hi]
  dsimp only
  rw [habandon]
  exact h.setTurns (h.turnRefs_set hi rfl) fun r => countP_holds_same hi (hholds r)

/-- The upstream request of a turn ends: the turn is closed, unless its writer raises. -/
theorem finish (h : Inv s) {i : Nat} {result : Option HttpResponse} {writerRaises : Bool}
    (hallowed : s.Allowed (.finish i result writerRaises)) :
    Inv (s.resumeTurn i fun turn => s.finish turn result writerRaises) := by
  obtain ⟨turn, hi, hphase⟩ := hallowed
  have hi : s.turns[i]? = some turn := hi
  obtain ⟨turnIndex, hphase⟩ : ∃ turnIndex, turn.phase = .upstream turnIndex := by
    cases hp : turn.phase <;> rw [hp] at hphase <;> first | exact ⟨_, rfl⟩ | cases hphase
  have hholds : ∀ r, holds r turn = decide (turn.ref = r) := by
    intro r
    simp [holds, hphase, TurnPhase.inFlight]
  unfold SessionRouter.resumeTurn SessionRouter.finish SessionRouter.finishTurn
  rw [hi]
  dsimp only
  rw [hphase]
  dsimp only
  by_cases hwriter : writerRaises = true
  · rw [if_pos hwriter]
    refine h.setTurns (h.turnRefs_set hi rfl) fun r => countP_holds_same hi ?_
    rw [hholds r]
    simp [holds, TurnPhase.leaked]
  · rw [if_neg hwriter]
    have hset : ∀ how, TurnPhase.leaked (.ended how) = false → ∀ r,
        (s.turns.set i { turn with phase := .ended how }).countP (holds r) +
          (if r = turn.ref then 1 else 0) = s.turns.countP (holds r) := by
      intro how hleaked r
      have := countP_holds_set r { turn with phase := .ended how } hi
      rw [hholds r] at this
      simp only [holds, TurnPhase.inFlight, hleaked, Bool.false_or, Bool.and_false,
        decide_eq_true_eq, eq_comm (a := turn.ref)] at this
      simpa using this
    have hpos : 0 < (s.objects turn.ref).inflight := by
      rw [h.counted]
      exact List.countP_pos_iff.mpr ⟨turn, List.mem_of_getElem? hi, by rw [hholds]; simp⟩
    refine h.close (SessionState.closeTurn_closed _ _ _) hpos ?_ (hset _ ?_) _ _
    · exact h.turnRefs_set hi rfl
    · cases result <;> rfl

theorem exec {s' : SessionRouter} {a : Action} (h : Inv s) (hallowed : s.Allowed a)
    (hexec : s.exec a = .ok s') : Inv s' := by
  cases a with
  | chat sid trajectoryId request =>
      cases hexec
      exact h.sessionChatCompletions sid trajectoryId request
  | wake i =>
      cases hexec
      exact h.wake hallowed
  | readBody i =>
      cases hexec
      exact h.readBody hallowed
  | finish i result writerRaises =>
      cases hexec
      exact h.finish hallowed
  | abandon i =>
      cases hexec
      exact h.abandon hallowed
  | delete sid =>
      cases hexec
      exact h.deleteSession sid
  | drained i =>
      cases hexec
      exact h.sendDelete hallowed
  | deleteAnswered i =>
      cases hexec
      exact h.endDelete i
  | hang sids =>
      cases hexec
      exact List.foldlRecOn sids _ h fun s hs sid _ => hs.hangSession sid
  | continueSessions pins =>
      cases hexec
      exact List.foldlRecOn pins.items _ h fun s hs pin _ => hs.continueSession pin

theorem of_reachable {strategy : TrajectoryIdStrategy}
    (hreach : Run.Reachable SessionRouter.exec Allowed (SessionRouter.init strategy) s) : Inv s :=
  hreach.invariant (Inv.init strategy) fun _ _ _ hs hallowed hexec => hs.exec hallowed hexec

end Inv

/-! ### Deferred hangs -/

/-- `control_hang` finds turns of the open session `sid` in flight. -/
structure Defers (s : SessionRouter) (sid : String) (ref : Nat) : Prop where
  state : s.states.get? sid = some ref
  busy : (s.objects ref).closing = false ∧ 0 < (s.objects ref).inflight

theorem Defers.hangSession {sid : String} (h : s.Defers sid ref) (sid' : String) :
    (s.hangSession sid').Defers sid ref ∧
      (s.hangDeferred ref = true ∨ sid' = sid → (s.hangSession sid').hangDeferred ref = true) := by
  obtain ⟨hstate, hopen, hbusy⟩ := h
  unfold SessionRouter.hangSession
  split
  · exact ⟨⟨hstate, hopen, hbusy⟩, by grind⟩
  · rename_i ref' hget
    by_cases heq : ref = ref'
    · subst heq
      refine ⟨⟨hstate, ?_⟩, fun _ => by simp [hopen, hbusy]⟩
      simp [SessionState.hang, hopen, hbusy, Nat.ne_of_gt hbusy]
    · refine ⟨⟨hstate, by simp [Function.update_of_ne heq, hopen, hbusy]⟩, fun hor => ?_⟩
      have hdeferred : s.hangDeferred ref = true := by grind
      dsimp only
      split
      · exact hdeferred
      · rw [Function.update_of_ne heq, hdeferred]

theorem Defers.controlHang {sid : String} : ∀ {sids : List String} {s : SessionRouter},
    s.Defers sid ref → s.hangDeferred ref = true ∨ sid ∈ sids →
      (s.controlHang sids).hangDeferred ref = true
  | [], _, _, hor => hor.resolve_right List.not_mem_nil
  | sid' :: _, _, h, hor => by
      obtain ⟨hnext, hdeferred⟩ := h.hangSession sid'
      refine hnext.controlHang ?_
      obtain hflag | hmem := hor
      · exact .inl (hdeferred (.inl hflag))
      · exact (List.mem_cons.mp hmem).imp_left fun heq => hdeferred (.inr heq.symm)

/-- A call that deletes or continues the session of an object, or asks for its hang again. -/
def Commands (s : SessionRouter) (ref : Nat) : Action → Prop
  | .delete sid => (s.ensureState sid).1 = ref
  | .hang sids => ∃ sid ∈ sids, s.states.get? sid = some ref
  | .continueSessions pins => ∃ pin ∈ pins.items, s.states.get? pin.1 = some ref
  | _ => False

/-- A loop over sessions that changes the flag of each one's object alone. -/
theorem hangDeferred_foldl {γ : Type} {f : SessionRouter → γ → SessionRouter} {sid : γ → String}
    (hf : ∀ s x, (f s x).states = s.states ∧ (s.states.get? (sid x) ≠ some ref →
      (f s x).hangDeferred ref = s.hangDeferred ref))
    {l : List γ} (hl : ∀ x ∈ l, s.states.get? (sid x) ≠ some ref) :
    (l.foldl f s).hangDeferred ref = s.hangDeferred ref :=
  (List.foldlRecOn l f (motive := fun t => t.states = s.states ∧
    t.hangDeferred ref = s.hangDeferred ref) ⟨rfl, rfl⟩ fun t ht x hx =>
      ⟨(hf t x).1.trans ht.1, ((hf t x).2 (ht.1 ▸ hl x hx)).trans ht.2⟩).2

theorem hangDeferred_enter (s : SessionRouter) (turn : Turn) :
    (s.enter turn).1.hangDeferred = s.hangDeferred := by
  unfold enter admitTurn
  dsimp only
  repeat' split
  all_goals rfl

theorem hangDeferred_resumeTurn {f : Turn → SessionRouter × Turn}
    (hf : ∀ turn, (f turn).1.hangDeferred = s.hangDeferred) (i : Nat) :
    (s.resumeTurn i f).hangDeferred = s.hangDeferred := by
  unfold resumeTurn
  split
  · rfl
  · exact hf _

theorem hangDeferred_exec {a : Action} (ha : ¬s.Commands ref a) (hexec : s.exec a = .ok s') :
    s'.hangDeferred ref = s.hangDeferred ref := by
  cases a with
  | chat sid trajectoryId request =>
      cases hexec
      refine congrFun ((hangDeferred_enter _ _).trans ?_) ref
      split <;> rfl
  | wake i =>
      cases hexec
      rw [hangDeferred_resumeTurn s.hangDeferred_enter i]
  | readBody i =>
      cases hexec
      rw [hangDeferred_resumeTurn (f := s.sendUpstream) (fun _ => rfl) i]
  | finish i result writerRaises =>
      cases hexec
      refine congrFun (hangDeferred_resumeTurn (fun turn => ?_) i) ref
      unfold SessionRouter.finish finishTurn
      repeat' split
      all_goals rfl
  | abandon i =>
      cases hexec
      refine congrFun (hangDeferred_resumeTurn (fun turn => ?_) i) ref
      unfold SessionRouter.abandon
      split <;> rfl
  | drained i =>
      cases hexec
      unfold sendDelete
      split <;> rfl
  | deleteAnswered i =>
      cases hexec
      unfold endDelete
      split <;> rfl
  | delete sid =>
      cases hexec
      have hensure : (s.ensureState sid).2.hangDeferred = s.hangDeferred := by
        unfold ensureState
        split <;> rfl
      -- only the object of the session is marked
      have hmark := Function.update_of_ne (Ne.symm ha) false (s.ensureState sid).2.hangDeferred
      rw [← hensure, ← hmark]
      unfold deleteSession awaitDrained markClosing
      dsimp only
      split <;> rfl
  | hang sids =>
      cases hexec
      refine hangDeferred_foldl (fun s sid => ?_) fun sid hsid hget => ha ⟨sid, hsid, hget⟩
      unfold SessionRouter.hangSession
      repeat' split
      all_goals grind
  | continueSessions pins =>
      cases hexec
      refine hangDeferred_foldl (fun s pin => ?_) fun pin hpin hget => ha ⟨pin, hpin, hget⟩
      unfold SessionRouter.continueSession
      repeat' split
      all_goals grind

/-! ### The state machine -/

/-- In every state of every run, whatever turns, deletions and commands overlap and however the
turns end. A `control_hang` that finds turns of an open session in flight defers its hang, and it
stays deferred until the session is deleted, continued or hung again. -/
theorem session_state_machine {strategy : TrajectoryIdStrategy}
    (hreach : Run.Reachable exec Allowed (init strategy) s) :
    (∀ ref,
      ((s.objects ref).hangState = .hung → (s.objects ref).inflight = 0 ∧
        (s.objects ref).closing = false ∧ (s.objects ref).continueEvent.isSet = false) ∧
      ((s.objects ref).hangState = .running ↔ (s.objects ref).continueEvent.isSet = true) ∧
      ((s.objects ref).drained.isSet = true ↔ (s.objects ref).inflight = 0) ∧
      (ref ∈ s.deleteSent → s.outstanding ref = 0) ∧
      (s.hangDeferred ref = true →
        if (s.objects ref).inflight = 0 then (s.objects ref).hangState = .hung
        else (s.objects ref).markedForHang = true) ∧
      (∀ sids, ∀ sid ∈ sids, s.Defers sid ref → (s.controlHang sids).hangDeferred ref = true) ∧
      (∀ a s', ¬s.Commands ref a → s.exec a = .ok s' →
        s'.hangDeferred ref = s.hangDeferred ref) ∧
      (s.objects ref).pinOnceInstance.isSome = (s.armed ref).isSome) ∧
    s.pinUses.Nodup := by
  have h := Inv.of_reachable hreach
  refine ⟨fun ref => ?_, h.pins.nodup⟩
  have hsound := h.sound ref
  refine ⟨fun hhung => ⟨(hsound.hung hhung).1, (hsound.hung hhung).2, ?_⟩, hsound.running,
    hsound.drained, fun hsent => ?_, fun hdeferred => ?_,
    fun sids sid hmem hdefers => hdefers.controlHang (.inr hmem),
    fun _ _ => hangDeferred_exec, h.pins.tied ref⟩
  · rw [Bool.eq_false_iff]
    intro hset
    rw [hsound.running.mpr hset] at hhung
    cases hhung
  · have hzero := (h.sent ref hsent).2.2
    rw [h.counted, countP_holds] at hzero
    omega
  · obtain hmarked | hhung := (h.deferred ref hdeferred).2
    · rw [if_neg (Nat.ne_of_gt (hsound.marked hmarked).1)]
      exact hmarked
    · rw [if_pos (hsound.hung hhung).1]
      exact hhung

/-- A successful response, served by the given version. -/
def servedBy (version : String) : HttpResponse where
  status := 200
  headers := Dict.empty.set "x-version-tag" version
  usage := none

/-- A hang is deferred to the end of a turn, the next turn is hung, continued with a pin and
outlived by a deletion. -/
def hangContinueDelete : List Action :=
  [.chat "a" 0 .empty, .hang ["a"], .readBody 0, .finish 0 (some (servedBy "1")) false,
    .chat "a" 0 .empty, .continueSessions (Dict.empty.set "a" (some ("w", "0"))), .wake 1,
    .delete "a", .readBody 1, .finish 1 (some (servedBy "2")) false, .drained 0]

theorem session_state_machine_hang_continue_delete :
    ∃ s, Run.Reachable exec Allowed (init .manual) s ∧ s.deleteSent = [0] ∧ s.outstanding 0 = 0 ∧
      s.pinUses = [0] ∧ s.pinUses.Nodup := by
  obtain ⟨s, hreach, hs⟩ : ∃ s, Run.Reachable exec Allowed (init .manual) s ∧
      decide (s.deleteSent = [0] ∧ s.pinUses = [0]) = true :=
    Run.exists_reachable_of_perform (l := hangContinueDelete) (by decide +kernel)
  obtain ⟨hsent, huses⟩ := of_decide_eq_true hs
  have hmachine := session_state_machine hreach
  exact ⟨s, hreach, hsent, (hmachine.1 0).2.2.2.1 (by simp [hsent]), huses, hmachine.2⟩

/-- The counter of an object is right exactly as long as no turn on it was cancelled while its
body was read and no turn's writer raised. As long as that is so, a deletion is released once all
outstanding turns have ended, and a session marked for hang is hung then; after it, the session
never drains. -/
theorem inflight_eq_outstanding_iff {strategy : TrajectoryIdStrategy}
    (hreach : Run.Reachable exec Allowed (init strategy) s) (ref : Nat) :
    ((s.objects ref).inflight = s.outstanding ref ↔
      ∀ turn ∈ s.turns, turn.ref = ref →
        turn.phase ≠ .ended .bodyRaised ∧ turn.phase ≠ .ended .writerRaised) ∧
    (s.outstanding ref = 0 →
      (∀ d ∈ s.deletes, d.ref = ref → ∀ ticket, d.phase = .draining ticket →
        ((s.objects ref).drained.Passes (some ticket) ↔
          (s.objects ref).inflight = s.outstanding ref)) ∧
      (s.hangDeferred ref = true → (s.objects ref).inflight = s.outstanding ref →
        (s.objects ref).hangState = .hung)) := by
  have h := Inv.of_reachable hreach
  have hsound := h.sound ref
  have hcounted := (h.counted ref).trans (countP_holds s ref)
  refine ⟨?_, fun hnone => ⟨fun d hd href ticket hphase => ?_, fun hdeferred hzero => ?_⟩⟩
  · have hleaks : (s.objects ref).inflight = s.outstanding ref ↔ s.leaks ref = 0 := by omega
    rw [hleaks, leaks, List.countP_eq_zero]
    refine forall₂_congr fun turn _ => ?_
    rw [decide_eq_true_iff, not_and]
    refine imp_congr_right fun _ => ?_
    cases turn.phase with
    | ended how => cases how <;> simp [TurnPhase.leaked]
    | _ => simp [TurnPhase.leaked]
  · have hdrains := h.draining d hd ticket hphase
    rw [href] at hdrains
    rw [hnone, ← hsound.drained, ← hdrains.released]
    simp [Event.Passes]
  · obtain hmarked | hhung := (h.deferred ref hdeferred).2
    · have := (hsound.marked hmarked).1
      omega
    · exact hhung

theorem inflight_eq_outstanding_after_upstream_failure :
    ∃ s, Run.Reachable exec Allowed (init .manual) s ∧ s.outstanding 0 = 0 ∧
      (s.objects 0).inflight = 0 ∧ ∀ d ∈ s.deletes, d.ref = 0 → ∀ ticket,
        d.phase = .draining ticket → (s.objects 0).drained.Passes (some ticket) := by
  obtain ⟨s, hreach, hs⟩ : ∃ s, Run.Reachable exec Allowed (init .manual) s ∧
      decide (s.outstanding 0 = 0 ∧ ∀ turn ∈ s.turns, turn.ref = 0 →
        turn.phase ≠ .ended .bodyRaised ∧ turn.phase ≠ .ended .writerRaised) = true :=
    Run.exists_reachable_of_perform (l := [.chat "a" 0 .empty, .readBody 0, .delete "a",
      .finish 0 none false]) (by decide +kernel)
  obtain ⟨hnone, hturns⟩ := of_decide_eq_true hs
  obtain ⟨hiff, hreleased⟩ := inflight_eq_outstanding_iff hreach 0
  have hinflight := hiff.mpr hturns
  exact ⟨s, hreach, hnone, hinflight.trans hnone, fun d hd href ticket hphase =>
    ((hreleased hnone).1 d hd href ticket hphase).mpr hinflight⟩

/-- A turn cancelled while its body is read, and one whose writer raises: all turns have ended,
the counter stays at one and the deletion is not released. -/
theorem inflight_leaks :
    (∃ s, Run.Reachable exec Allowed (init .manual) s ∧
      (∀ turn ∈ s.turns, turn.phase = .ended .bodyRaised) ∧ (s.objects 0).inflight = 1 ∧
      s.deletes = [⟨"a", 0, .draining 1⟩] ∧ ¬ (s.objects 0).drained.Passes (some 1)) ∧
    (∃ s, Run.Reachable exec Allowed (init .manual) s ∧
      (∀ turn ∈ s.turns, turn.phase = .ended .writerRaised) ∧ (s.objects 0).inflight = 1 ∧
      s.deletes = [⟨"a", 0, .draining 1⟩] ∧ ¬ (s.objects 0).drained.Passes (some 1)) := by
  constructor
  · obtain ⟨s, hreach, hs⟩ : ∃ s, Run.Reachable exec Allowed (init .manual) s ∧
        decide ((∀ turn ∈ s.turns, turn.phase = .ended .bodyRaised) ∧ (s.objects 0).inflight = 1 ∧
          s.deletes = [⟨"a", 0, .draining 1⟩] ∧ ¬ (s.objects 0).drained.Passes (some 1)) = true :=
      Run.exists_reachable_of_perform (l := [.chat "a" 0 .empty, .abandon 0, .delete "a"])
        (by decide +kernel)
    exact ⟨s, hreach, of_decide_eq_true hs⟩
  · obtain ⟨s, hreach, hs⟩ : ∃ s, Run.Reachable exec Allowed (init .manual) s ∧
        decide ((∀ turn ∈ s.turns, turn.phase = .ended .writerRaised) ∧
          (s.objects 0).inflight = 1 ∧ s.deletes = [⟨"a", 0, .draining 1⟩] ∧
          ¬ (s.objects 0).drained.Passes (some 1)) = true :=
      Run.exists_reachable_of_perform (l := [.chat "a" 0 .empty, .readBody 0,
        .finish 0 (some (servedBy "1")) true, .delete "a"]) (by decide +kernel)
    exact ⟨s, hreach, of_decide_eq_true hs⟩

end SessionRouter

end Psrl
