import Psrl.Manager.AbortScope
import Psrl.Staleness.Progress

/-!
# Psrl.Manager.VersionRuns

Aborted versions and the groups in flight, without redundant rollout.

A version is aborted when the buffers that could still train on it are full. No group of
such a version should then be left in the inventory: it would wait for a batch that never
takes it. The argument couples three things over a whole run. A reservation sits at most
`staleness` buffers after its versions; a buffer that was ready once keeps its batch until it
is deleted; and the version of the model passes a buffer only after the buffer was ready. So
when version `w` is aborted, a reservation of version at most `w` would sit in a buffer that
is ready, and a ready buffer has no reservation.

`Watched` records beside the manager which buffers have been ready. `InOrder` is the order
in which the components use the manager, `Timely` are the further conditions under which the
argument holds.
-/

namespace Psrl

open Py

namespace PSManager

open StalenessInventory Layout

variable {m m' : PSManager}

/-! ### Conditions on single calls -/

/-- A request joins its group only if its version is not too old for the group's buffer, and
a new group is not placed by a bound that is mistaken for a missing one. -/
def ReservesInWindow (m : PSManager) (r : Reservation) : Prop :=
  (∀ loc ∈ m.stalenessInventory.dataTracker.get? (r.requestId / m.rolloutN),
    loc.1 ≤ r.modelVersion + m.staleness) ∧
  (m.stalenessInventory.dataTracker.get? (r.requestId / m.rolloutN) = none →
    m.stalenessInventory.BoundSeen m.staleness r.modelVersion)

/-- Each request of a list is reserved in its window, one after the other. -/
def ReservesAllInWindow (guaranteeNotAborted : Bool) : PSManager → List Reservation → Prop
  | _, [] => True
  | m, r :: rest => m.ReservesInWindow r ∧
    ∀ result ∈ (m.reserveOne guaranteeNotAborted false r).toOption,
      ReservesAllInWindow guaranteeNotAborted result.2 rest

instance (m : PSManager) (r : Reservation) : Decidable (m.ReservesInWindow r) :=
  inferInstanceAs (Decidable (_ ∧ _))

instance decidableReservesAllInWindow (guaranteeNotAborted : Bool) :
    (m : PSManager) → (rs : List Reservation) →
      Decidable (ReservesAllInWindow guaranteeNotAborted m rs)
  | _, [] => inferInstanceAs (Decidable True)
  | m, r :: rest =>
    have : ∀ m', Decidable (ReservesAllInWindow guaranteeNotAborted m' rest) :=
      fun m' => decidableReservesAllInWindow guaranteeNotAborted m' rest
    inferInstanceAs (Decidable (_ ∧ ∀ result ∈ (m.reserveOne guaranteeNotAborted false r).toOption,
      ReservesAllInWindow guaranteeNotAborted result.2 rest))

end PSManager

/-- A manager and the training buffers that have been ready so far. -/
structure Watched where
  manager : PSManager
  everReady : Finset Int

namespace Watched

open PSManager (Action)

def start (config : PSManagerConfig) : Watched := ⟨.new config, ∅⟩

def exec (s : Watched) (a : Action) : Except PyError Watched := do
  let m ← s.manager.exec a
  .ok ⟨m, s.everReady ∪ m.stalenessInventory.readyBufferIds⟩

/-- The order of the calls: requests are reserved at versions that exist and their versions
raised to such versions, each group finishes once, `handle_ready_buffer` is called for
buffers that have become ready, and a version is pushed when the buffers before it have been
ready. Nothing else moves the entries of the training inventory. -/
def InOrder (s : Watched) : Action → Prop
  | .reserveRolloutInstanceRequests rs _ false =>
      ∀ r ∈ rs, r.modelVersion ≤ s.manager.modelVersion
  | .updateRequestVersionTag requestId new false => new ≤ s.manager.modelVersion ∧
      s.manager.stalenessInventory.RaisesVersion requestId new
  | .occupyRolloutInstanceRequest _ promptId _ false =>
      s.manager.stalenessInventory.promptCategory promptId ≠ some .occupied
  | .handleReadyBuffer _ _ bid => bid ∈ s.everReady
  | .pushModelStateDict versionTag => s.manager.modelVersion ≤ versionTag ∧
      ∀ b ∈ Int.range s.manager.modelVersion versionTag, b ∈ s.everReady
  | .moveOccupiedEntries _ _ false | .clearOccupiedEntries _ false
  | .clearReservedEntries _ _ false | .initModelVersionForResume _ => False
  | _ => True

/-- Reservations respect their windows, and aborts are aborts of groups that spare the
finished ones. -/
def Timely (s : Watched) : Action → Prop
  | .reserveRolloutInstanceRequests rs guaranteeNotAborted false =>
      PSManager.ReservesAllInWindow guaranteeNotAborted s.manager rs
  | .abortRequests _ requestIds abortGroup => abortGroup = true ∧
      s.manager.SparesFinished (.requests requestIds true)
  | .handleReadyBuffer _ _ bid => s.manager.SparesFinished (.ready bid)
  | _ => True

instance (s : Watched) (a : Action) : Decidable (s.InOrder a) := by
  dsimp only [InOrder]
  split <;> infer_instance

instance (s : Watched) (a : Action) : Decidable (s.Timely a) := by
  unfold Timely
  split <;> infer_instance

end Watched

namespace PSManager

open StalenessInventory Layout

variable {m m' : PSManager}

/-- The progress of the training inventory over a call, bounded by the aborted versions and
the version of the model. -/
def Advances (m m' : PSManager) : Prop :=
  Progress m.staleness m.maxAbortedVersion m.modelVersion m.stalenessInventory
    m'.stalenessInventory

theorem Advances.trans {m1 : PSManager} (hr : Routine m m1) (h : m.Advances m1)
    (h' : m1.Advances m') : m.Advances m' := by
  unfold Advances at h' ⊢
  rw [hr.staleness, hr.maxAborted, hr.modelVersion] at h'
  exact Progress.trans h h'

/-! ### Calls that only reach the inventory -/

/-- With all requests of a group required, a group that is hit is given up. -/
theorem Sound.givesUp_of_hit (hm : m.Sound) (hwhole : m.algRolloutN = m.rolloutN)
    {ids : Finset Nat} {p : Nat} (hp : p ∈ ids.image (· / m.rolloutN))
    (hentry : (m.stalenessInventory.entryOf? p).isSome = true) : m.GivesUp true ids p := by
  obtain ⟨id, hid, rfl⟩ := Finset.mem_image.mp hp
  refine ⟨rfl, hentry, ?_⟩
  have hlt := Nat.mod_lt id hm.positive
  -- the request that was hit is no survivor
  have hsub : m.survivors ids (id / m.rolloutN) ⊆
      (Finset.range m.rolloutN).erase (id % m.rolloutN) := by
    intro i hi
    obtain ⟨hrec, hnot⟩ := mem_survivors.mp hi
    refine Finset.mem_erase.mpr ⟨?_, Finset.mem_range.mpr (hm.recorded_lt hrec)⟩
    rintro rfl
    exact hnot (by rw [Nat.div_add_mod']; exact hid)
  have hcard := Finset.card_le_card hsub
  rw [Finset.card_erase_of_mem (Finset.mem_range.mpr hlt), Finset.card_range] at hcard
  rw [hwhole]
  have := hm.positive
  omega

section Calls

variable (hplain : PlainRun m.staleness m.stalenessInventory)
  (hlive : Live m.maxAbortedVersion m.modelVersion m.stalenessInventory)
include hplain

theorem advances_onInventory {isValidate : Bool}
    {f : StalenessInventory → Except PyError StalenessInventory}
    (hf : ∀ inv, isValidate = false → f m.stalenessInventory = .ok inv →
      Progress m.staleness m.maxAbortedVersion m.modelVersion m.stalenessInventory inv)
    (h : m.onInventory isValidate f = .ok m') : m.Advances m' := by
  obtain ⟨inv, hinv, h⟩ := bind_eq_ok.mp h
  cases h
  cases isValidate with
  | true => exact .refl hplain
  | false => exact hf inv rfl hinv

theorem advances_asked {isValidate : Bool} (h : Asked isValidate m m') : m.Advances m' := by
  rcases h with rfl | ⟨promptId, v, result, inv, hcan, rfl⟩
  · exact .refl hplain
  · cases isValidate with
    | true => exact .refl hplain
    | false =>
        have hc : m.stalenessInventory.Consistent := ⟨hplain.good.wf, hplain.good.cached⟩
        obtain ⟨hc', hgrown⟩ := hc.canReserveData hcan
        exact hplain.grown hc' hgrown

theorem advances_maybeDeleteBuffer {bid : Int} {isValidate : Bool}
    (h : m.maybeDeleteBuffer bid isValidate = .ok m') : m.Advances m' := by
  unfold PSManager.maybeDeleteBuffer at h
  split at h
  · exact advances_onInventory hplain (fun _ hval => by cases hval) h
  · dsimp only at h
    split at h
    · exact advances_onInventory hplain (fun _ _ hdel => hplain.deleteBuffers hdel) h
    · cases h
      exact .refl hplain

theorem advances_releaseReadyBuffers {bids : List Int} {inv : StalenessInventory}
    (h : bids.foldlM (releaseReadyBuffer m.modelVersion) m.stalenessInventory = .ok inv) :
    m.Advances { m with stalenessInventory := inv } := by
  refine foldlM_invariant (P := fun i => Progress m.staleness m.maxAbortedVersion m.modelVersion
    m.stalenessInventory i) h (.refl hplain) fun i b i' _ hprog hstep => hprog.trans ?_
  obtain ⟨buffer, -, hstep⟩ := bind_eq_ok.mp hstep
  split at hstep
  · split at hstep
    · exact hprog.run.deleteBuffer hstep
    · exact hprog.run.markBufferForDeletion hstep
  · cases hstep
    exact .refl hprog.run

theorem advances_abortRequests (hm : m.Sound) (hwhole : m.algRolloutN = m.rolloutN)
    {order : SetOrder Nat} {requestIds : List Nat} {commands : AbortCommands}
    (hspare : ∀ p ∈ m.givenUp true requestIds.toFinset,
      m.stalenessInventory.promptCategory p ≠ some .occupied)
    (h : m.abortRequests order requestIds true = .ok (commands, m')) : m.Advances m' := by
  obtain ⟨ps, hps, hclear⟩ := hm.abortRequests_clears
    (fun p hp hentry => hm.givesUp_of_hit hwhole hp hentry) h
  exact hplain.clearReservedEntries (fun p hp => hspare p ((hps p).mp hp)) hclear

theorem advances_abortReservedRequests (hm : m.Sound) (hwhole : m.algRolloutN = m.rolloutN)
    {order : SetOrder Nat} {bid : Int} {result : Nat × List Nat}
    (h : m.abortReservedRequests order bid = .ok (result, m')) : m.Advances m' := by
  obtain ⟨buffer, hget, h⟩ := bind_eq_ok.mp h
  obtain ⟨⟨commands, m1⟩, habort, h⟩ := bind_eq_ok.mp h
  cases h
  exact advances_abortRequests hplain hm hwhole
    (fun p hp => hm.reserved_spares (Dict.get_eq_ok.mp hget) hp) habort

include hlive

theorem advances_reserveOne (hm : m.Sound) {guaranteeNotAborted isValidate : Bool}
    {r : Reservation} {slot : Option (Int × Nat)} 
    (hle : isValidate = false → r.modelVersion ≤ m.modelVersion)
    (hwindow : isValidate = false → m.ReservesInWindow r)
    (h : m.reserveOne guaranteeNotAborted isValidate r = .ok (slot, m')) : m.Advances m' := by
  obtain ⟨_, -, h⟩ := bind_eq_ok.mp h
  obtain ⟨⟨aborted, t⟩, hcheck, h⟩ := bind_eq_ok.mp h
  dsimp only at h
  split at h
  · cases h
    exact .refl hplain
  · obtain ⟨_, habove, h⟩ := bind_eq_ok.mp h
    obtain ⟨⟨found, inv⟩, hres, h⟩ := bind_eq_ok.mp h
    dsimp only at h
    split at h
    · cases h
    · cases h
      cases isValidate with
      | true => exact .refl hplain
      | false =>
          have hn : t.rolloutN = m.rolloutN := by rw [(hm.checkReservable hcheck).config]
          obtain ⟨hjoin, hseen⟩ := hwindow rfl
          rw [← hn] at hjoin hseen
          have habove := (pyAssert_eq_ok.mp habove).resolve_left nofun
          exact hplain.reserveData hlive habove (hle rfl) hjoin hseen hres

theorem advances_occupy {bufferOrder : SetOrder Int} {promptId : Nat}
    {requestIds : Option (List Nat)} {isValidate : Bool} {result : Option (Int × Nat × EntryInfo)}
    (hcat : isValidate = false → m.stalenessInventory.promptCategory promptId ≠ some .occupied)
    (h : m.occupyRolloutInstanceRequest bufferOrder promptId requestIds isValidate =
      .ok (result, m')) : m.Advances m' := by
  obtain ⟨⟨flags, t⟩, -, h⟩ := bind_eq_ok.mp h
  dsimp only at h
  obtain ⟨t', -, h⟩ := bind_eq_ok.mp h
  split at h
  · obtain ⟨_, -, h⟩ := bind_eq_ok.mp h
    cases h
    exact .refl hplain
  · obtain ⟨⟨⟨bid, eid, occupyNum⟩, inv⟩, hocc, h⟩ := bind_eq_ok.mp h
    obtain ⟨info, -, h⟩ := bind_eq_ok.mp h
    cases h
    cases isValidate with
    | true => exact .refl hplain
    | false => exact hplain.occupyDataWithReserve hlive (hcat rfl) hocc

/-- A change of another field than the versions. -/
theorem advances_updateRequest {isValidate : Bool} {requestId : Nat}
    {update : EntryInfo → Nat → Except PyError EntryInfo}
    (hkeep : ∀ info idx info', update info idx = .ok info' → info'.promptId = info.promptId ∧
      info'.modelVersion = info.modelVersion ∧ info'.requestIdx = info.requestIdx)
    (h : m.onInventory isValidate (fun inv => inv.updateRequest requestId update) = .ok m') :
    m.Advances m' :=
  advances_onInventory hplain (fun _ _ hupd => hplain.updateRequest hlive hkeep hupd) h

end Calls

/-- A further question about a reservation. -/
theorem advances_askedAgain {m1 m2 : PSManager} {isValidate : Bool}
    (h : Routine m m1 ∧ m.Advances m1) (hask : Asked isValidate m1 m2) :
    Routine m m2 ∧ m.Advances m2 := by
  obtain ⟨hr, hprog⟩ := h
  have hplain : PlainRun m1.staleness m1.stalenessInventory := by
    rw [hr.staleness]
    exact hprog.run
  exact ⟨hr.trans (hr.sound.asked hask), hprog.trans hr (advances_asked hplain hask)⟩

/-- Reservations that follow each other. -/
theorem advances_reserveAll {guaranteeNotAborted isValidate : Bool} :
    ∀ {rs : List Reservation} {m : PSManager} {slots : List (Option (Int × Nat))}
      {state : List (Option (Int × Nat)) × PSManager},
    m.Sound → PlainRun m.staleness m.stalenessInventory →
    Live m.maxAbortedVersion m.modelVersion m.stalenessInventory →
    (isValidate = false → ∀ r ∈ rs, r.modelVersion ≤ m.modelVersion) →
    (isValidate = false → ReservesAllInWindow guaranteeNotAborted m rs) →
    rs.foldlM (fun (state : List (Option (Int × Nat)) × PSManager) r => do
      let (slot, m) ← state.2.reserveOne guaranteeNotAborted isValidate r
      .ok (state.1 ++ [slot], m)) (slots, m) = .ok state → m.Advances state.2
  | [], m, slots, state, _, hplain, _, _, _, h => by
      cases h
      exact .refl hplain
  | r :: rest, m, slots, state, hm, hplain, hlive, hle, hwindow, h => by
      rw [List.foldlM_cons] at h
      obtain ⟨state1, hstep, h⟩ := bind_eq_ok.mp h
      obtain ⟨⟨slot, m1⟩, h1, hstep⟩ := bind_eq_ok.mp hstep
      cases hstep
      have hprog := advances_reserveOne hplain hlive hm
        (fun hval => hle hval r List.mem_cons_self) (fun hval => (hwindow hval).1) h1
      have hroutine := hm.reserveOne h1
      refine hprog.trans hroutine (advances_reserveAll hroutine.sound ?_ ?_ (fun hval r' hr' => ?_)
        (fun hval => ?_) h)
      · rw [hroutine.staleness]
        exact hprog.run
      · rw [hroutine.maxAborted, hroutine.modelVersion]
        exact hprog.live hlive
      · rw [hroutine.modelVersion]
        exact hle hval r' (List.mem_cons_of_mem _ hr')
      · subst hval
        exact (hwindow rfl).2 (slot, m1) (by rw [h1]; rfl)

end PSManager

namespace Watched

open PSManager StalenessInventory Layout

variable {s s' : Watched}

/-! ### The invariant of a run -/

/-- What holds in every state of a run. `passed` and `ready` say that the version of the
model only passes buffers with a complete batch, `filled` and `pending` that nothing runs
ahead of it by more than the staleness. -/
structure Paced (s : Watched) : Prop where
  sound : s.manager.Sound
  whole : s.manager.algRolloutN = s.manager.rolloutN
  plain : PlainRun s.manager.staleness s.manager.stalenessInventory
  live : Live s.manager.maxAbortedVersion s.manager.modelVersion s.manager.stalenessInventory
  filled : ∀ b e, s.manager.stalenessInventory.row b e = .occupied →
    b ≤ s.manager.modelVersion + s.manager.staleness
  passed : ∀ b, 0 ≤ b → b < s.manager.modelVersion → b ∈ s.everReady
  ready : ∀ b ∈ s.everReady, b < s.manager.stalenessInventory.bufferId ∧
    b ≤ s.manager.modelVersion + s.manager.staleness ∧
    (s.manager.stalenessInventory.HasBuffer b →
      BatchDone s.manager.stalenessInventory.readyNumEntries (s.manager.stalenessInventory.row b))
  pending : ∀ w ∈ s.manager.checkAbortVersions, w + s.manager.staleness ∈ s.everReady

/-- A buffer with an open batch is not behind the version of the model. -/
theorem Paced.le_of_open (h : s.Paced) {b : Int} (hb : s.manager.stalenessInventory.HasBuffer b)
    (hopen : ¬ BatchDone s.manager.stalenessInventory.readyNumEntries
      (s.manager.stalenessInventory.row b)) : s.manager.modelVersion ≤ b := by
  by_contra hlt
  have hmem := h.passed b (h.plain.good.wf.ids b hb).1 (by omega)
  exact hopen ((h.ready b hmem).2.2 hb)

/-- Progress between two pushes keeps the invariant. -/
theorem Paced.advance (h : s.Paced) {m' : PSManager} (hr : Routine s.manager m')
    (hprog : s.manager.Advances m') :
    Paced ⟨m', s.everReady ∪ m'.stalenessInventory.readyBufferIds⟩ := by
  have hfilled : ∀ b e, m'.stalenessInventory.row b e = .occupied →
      b ≤ s.manager.modelVersion + s.manager.staleness := by
    intro b e hocc
    rcases hprog.occupied b e hocc with hold | hle
    · exact h.filled b e hold
    · exact hle
  have hplain : PlainRun m'.staleness m'.stalenessInventory := by
    rw [hr.staleness]
    exact hprog.run
  refine ⟨hr.sound, ?_, hplain, ?_, ?_, ?_, fun b hb => ?_, ?_⟩
  · have halg : m'.algRolloutN = s.manager.algRolloutN := by rw [hr.config]
    have hn : m'.rolloutN = s.manager.rolloutN := by rw [hr.config]
    exact halg.trans (h.whole.trans hn.symm)
  · dsimp only
    rw [hr.maxAborted, hr.modelVersion]
    exact hprog.live h.live
  · dsimp only
    rw [hr.modelVersion, hr.staleness]
    exact hfilled
  · dsimp only
    rw [hr.modelVersion]
    exact fun b h0 hlt => Finset.mem_union_left _ (h.passed b h0 hlt)
  · dsimp only
    rw [hr.modelVersion, hr.staleness]
    rcases Finset.mem_union.mp hb with hb | hb
    · obtain ⟨hlt, hle, hdone⟩ := h.ready b hb
      exact ⟨hlt.trans_le hprog.grows, hle,
        fun hhas => hprog.batchDone hhas hlt (hdone (hprog.has b hhas hlt))⟩
    · -- a batch has at least one group, and that group is finished
      obtain ⟨hhas, hdone⟩ := hplain.good.mem_ready.mp hb
      exact ⟨(hplain.good.wf.ids b hhas).2, hfilled b 0 (hdone 0 hplain.good.training.pos),
        fun _ => hdone⟩
  · dsimp only
    rw [hr.pending, hr.staleness]
    exact fun w hw => Finset.mem_union_left _ (h.pending w hw)

/-- No reservation has a version that is due. -/
theorem Paced.lt_of_due (h : s.Paced) {bid w : Int} (hbid : bid ∈ s.everReady)
    (hdue : s.manager.Due bid w) {l : Int × Nat} {info : EntryInfo}
    (hl : s.manager.stalenessInventory.slot l = .reserved info) {v : Int}
    (hv : v ∈ info.modelVersion.toList) : w < v := by
  obtain ⟨b, e⟩ := l
  have hne : s.manager.stalenessInventory.slot (b, e) ≠ .empty := by
    rw [hl]
    simp
  obtain ⟨hb, he⟩ := hasBuffer_of_slot h.plain.good.wf.sized hne
  have hopen := h.plain.open_of_reserved hl he
  have hlow := (h.plain.good.orderly.window b e info hl).1 v hv
  have hmodel := h.le_of_open hb hopen
  -- the version is due because of a buffer that has been ready
  have hw : w + s.manager.staleness ∈ s.everReady := by
    have hpend := hdue.1
    unfold pendingAbortVersions at hpend
    split at hpend
    · rcases Finset.mem_insert.mp hpend with rfl | hpend
      · rw [sub_add_cancel]
        exact hbid
      · exact h.pending w hpend
    · exact h.pending w hpend
  have hbound := (h.ready _ hw).2.1
  by_contra hle
  have hready := hdue.2 w hdue.1 le_rfl b (Int.mem_range_iff.mpr ⟨by omega, by omega⟩)
  exact hopen (h.plain.good.mem_ready.mp hready).2

theorem lt_foldl_max {v : Int} : ∀ {ws : List Int} {w : Int}, w < v → (∀ x ∈ ws, x < v) →
    ws.foldl max w < v
  | [], _, hw, _ => hw
  | x :: rest, w, hw, hall => by
      rw [List.foldl_cons]
      exact lt_foldl_max (max_lt hw (hall x List.mem_cons_self))
        fun y hy => hall y (List.mem_cons_of_mem _ hy)

/-- Recording the due versions as aborted strands no reservation. -/
theorem Paced.abortDue (h : s.Paced) {bid : Int} (hbid : bid ∈ s.everReady) {m1 : PSManager}
    (hm1 : m1 = { s.manager with
      checkAbortVersions := (s.manager.currAbortVersions bid).2
      runningMinVersion := m1.runningMinVersion
      maxAbortedVersion :=
        (s.manager.currAbortVersions bid).1.foldl max s.manager.maxAbortedVersion }) :
    Paced ⟨m1, s.everReady⟩ := by
  have hsound : m1.Sound := by
    have ht : RequestStatusTracker.Kept s.manager.toRequestStatusTracker
        { s.manager.toRequestStatusTracker with runningMinVersion := m1.runningMinVersion } :=
      ⟨h.sound.tracker.congr rfl (fun _ => Iff.rfl) rfl, rfl⟩
    rw [hm1]
    exact (h.sound.withTracker ht).sound.congr rfl rfl
  generalize m1.runningMinVersion = low at hm1
  subst hm1
  refine ⟨hsound, h.whole, h.plain, fun l info hl v hv => ?_, h.filled, h.passed, h.ready,
    fun w hw => ?_⟩
  · obtain ⟨hlo, hhi⟩ := h.live l info hl v hv
    exact ⟨lt_foldl_max hlo fun w hw =>
      h.lt_of_due hbid (mem_currAbortVersions.mp hw) hl hv, hhi⟩
  · have hpend := ((mem_drain _ _ _ le_rfl w).2.mp hw).1
    unfold pendingAbortVersions at hpend
    split at hpend
    · rcases Finset.mem_insert.mp hpend with rfl | hpend
      · dsimp only
        rw [sub_add_cancel]
        exact hbid
      · exact h.pending w hpend
    · exact h.pending w hpend

/-- `handle_ready_buffer` of a buffer that has been ready. -/
theorem Paced.handleReadyBuffer (h : s.Paced) {order : SetOrder Nat} {bufferOrder : SetOrder Int}
    {bid : Int} {ids : Finset Nat} {m' : PSManager} (hbid : bid ∈ s.everReady)
    (hspare : s.manager.SparesFinished (.ready bid))
    (hready : s.manager.handleReadyBuffer order bufferOrder bid = .ok (ids, m')) :
    Paced ⟨m', s.everReady ∪ m'.stalenessInventory.readyBufferIds⟩ := by
  unfold PSManager.handleReadyBuffer at hready
  dsimp only at hready
  obtain ⟨⟨found, m2⟩, habort, hready⟩ := bind_eq_ok.mp hready
  obtain ⟨inv, hrelease, hready⟩ := bind_eq_ok.mp hready
  cases hready
  obtain ⟨-, m1, hm1, hcase⟩ := stalenessAbort_cases habort
  have h1 := h.abortDue hbid hm1
  have habort : Routine m1 m2 ∧ m1.Advances m2 := by
    rcases hcase with ⟨-, rfl⟩ | ⟨commands, habort⟩
    · exact ⟨h1.sound.routine_refl, .refl h1.plain⟩
    · refine ⟨((h1.sound.abortRequests order _ true).2 _ _ habort).routine,
        advances_abortRequests h1.plain h1.sound h1.whole (fun p hp => ?_) habort⟩
      have hids : (order.toList (s.manager.staleRequests bid)).toFinset =
          s.manager.staleRequests bid := by
        ext id
        rw [List.mem_toFinset, order.mem_toList]
      rw [hids, hm1] at hp
      rw [hm1]
      exact hspare p hp
  obtain ⟨hr, hprog⟩ := habort
  have hplain : PlainRun m2.staleness m2.stalenessInventory := by
    rw [hr.staleness]
    exact hprog.run
  exact h1.advance (hr.trans (hr.sound.releaseReadyBuffers hrelease))
    (hprog.trans hr (advances_releaseReadyBuffers hplain hrelease))

/-- A push of a version whose buffers have been ready. -/
theorem Paced.pushModelStateDict (h : s.Paced) {versionTag : Int} {m' : PSManager}
    (hle : s.manager.modelVersion ≤ versionTag)
    (hready : ∀ b ∈ Int.range s.manager.modelVersion versionTag, b ∈ s.everReady)
    (hpush : s.manager.pushModelStateDict versionTag = .ok m') :
    Paced ⟨m', s.everReady ∪ m'.stalenessInventory.readyBufferIds⟩ := by
  have h1 : Paced ⟨{ s.manager with modelVersion := versionTag }, s.everReady⟩ := by
    refine ⟨h.sound.congr rfl rfl, h.whole, h.plain, fun l info hl v hv => ?_, fun b e hocc => ?_,
      fun b h0 hlt => ?_, fun b hb => ?_, h.pending⟩
    · obtain ⟨hlo, hhi⟩ := h.live l info hl v hv
      exact ⟨hlo, hhi.trans hle⟩
    · have := h.filled b e hocc
      dsimp only
      omega
    · by_cases hold : b < s.manager.modelVersion
      · exact h.passed b h0 hold
      · exact hready b (Int.mem_range_iff.mpr ⟨by omega, hlt⟩)
    · obtain ⟨hlt, hbound, hdone⟩ := h.ready b hb
      exact ⟨hlt, by dsimp only; omega, hdone⟩
  refine h1.advance (h.sound.pushModelStateDict hpush) ?_
  unfold PSManager.pushModelStateDict at hpush
  dsimp only at hpush
  split at hpush
  · exact advances_maybeDeleteBuffer h1.plain hpush
  · cases hpush
    exact .refl h1.plain

/-- The calls that neither push nor abort versions. -/
theorem Paced.advances (h : s.Paced) {a : PSManager.Action} {m' : PSManager}
    (hroutine : IsRoutine a)
    (horder : s.InOrder a) (htimely : s.Timely a) (hexec : s.manager.exec a = .ok m') :
    s.manager.Advances m' := by
  have hplain := h.plain
  have hlive := h.live
  have hm := h.sound
  cases a with
  | registerRolloutInstance ids =>
      cases hexec
      exact .refl hplain
  | addRequest reqs =>
      cases hexec
      exact .refl hplain
  | updateRequestStatus updates isValidate =>
      obtain ⟨⟨_, t⟩, -, hexec⟩ := bind_eq_ok.mp hexec
      cases hexec
      exact .refl hplain
  | removeRequest requestIds =>
      cases hexec
      exact .refl hplain
  | checkAbortedRequests requestIds remove =>
      obtain ⟨⟨_, t⟩, -, hexec⟩ := bind_eq_ok.mp hexec
      cases hexec
      exact .refl hplain
  | setValStalenessInventoryCapacity ready num =>
      have h : s.manager.setValStalenessInventoryCapacity ready num = .ok m' := hexec
      unfold PSManager.setValStalenessInventoryCapacity at h
      exact advances_onInventory hplain (fun _ hval => by cases hval) h
  | ensureTrainBufferExists bid =>
      have h : s.manager.ensureTrainBufferExists bid = .ok m' := hexec
      unfold PSManager.ensureTrainBufferExists at h
      refine advances_onInventory hplain (fun inv _ hens => ?_) h
      obtain ⟨hc', hgrown⟩ := hm.inventory.ensureBufferExists hens
      exact hplain.grown hc' hgrown
  | ensureValidateBufferExists =>
      have h : s.manager.ensureValidateBufferExists = .ok m' := hexec
      unfold PSManager.ensureValidateBufferExists at h
      exact advances_onInventory hplain (fun _ hval => by cases hval) h
  | canReserveRequest requests modelVersions without =>
      obtain ⟨⟨_, m1⟩, hcan, hexec⟩ := bind_eq_ok.mp hexec
      cases hexec
      exact (canReserveRequest_induction hcan ⟨hm.routine_refl, .refl hplain⟩
        fun _ _ _ hs hask => advances_askedAgain hs hask).2
  | getReserveIndicator requestId modelVersions isValidate =>
      obtain ⟨⟨_, m1⟩, hget, hexec⟩ := bind_eq_ok.mp hexec
      cases hexec
      exact (getReserveIndicator_induction hget ⟨hm.routine_refl, .refl hplain⟩
        fun _ _ hs hask => advances_askedAgain hs hask).2
  | reserveRolloutInstanceRequests rs guaranteeNotAborted isValidate =>
      obtain ⟨⟨_, m1⟩, hres, hexec⟩ := bind_eq_ok.mp hexec
      cases hexec
      obtain ⟨_, -, hres⟩ := bind_eq_ok.mp hres
      refine advances_reserveAll hm hplain hlive (fun hval => ?_) (fun hval => ?_) hres
      · subst hval
        exact horder
      · subst hval
        exact htimely
  | updateRequestVersionTag requestId new isValidate =>
      have hexec : s.manager.updateRequestVersionTag requestId new isValidate = .ok m' := hexec
      unfold PSManager.updateRequestVersionTag at hexec
      refine advances_onInventory hplain (fun inv hval hupd => ?_) hexec
      subst hval
      obtain ⟨hnew, hraise⟩ := horder
      exact hplain.updateRequestVersionTag hlive hnew (fun b => h.le_of_open) hraise hupd
  | updateRequestInstanceId requestId new isValidate =>
      have hexec : s.manager.updateRequestInstanceId requestId new isValidate = .ok m' := hexec
      refine advances_updateRequest hplain hlive (fun info idx info' hupd => ?_) hexec
      obtain ⟨_, -, hupd⟩ := bind_eq_ok.mp hupd
      cases hupd
      exact ⟨rfl, rfl, rfl⟩
  | updateRequestNTrajectory requestId new isValidate =>
      obtain ⟨t, ht, hexec⟩ := bind_eq_ok.mp hexec
      have hr := hm.withTracker (hm.tracker.updateRequestNTrajectory ht)
      refine Advances.trans hr (.refl hplain) (advances_updateRequest hplain hlive
        (fun info idx info' hupd => ?_) hexec)
      obtain ⟨_, -, hupd⟩ := bind_eq_ok.mp hupd
      cases hupd
      exact ⟨rfl, rfl, rfl⟩
  | moveOccupiedEntries infos bid isValidate =>
      cases isValidate with
      | true =>
          have h : s.manager.moveOccupiedEntries infos bid true = .ok m' := hexec
          unfold PSManager.moveOccupiedEntries at h
          exact advances_onInventory hplain (fun _ hval => by cases hval) h
      | false => cases horder
  | clearOccupiedEntries promptIds isValidate =>
      cases isValidate with
      | true =>
          have h : s.manager.clearOccupiedEntries promptIds true = .ok m' := hexec
          unfold PSManager.clearOccupiedEntries at h
          exact advances_onInventory hplain (fun _ hval => by cases hval) h
      | false => cases horder
  | clearReservedEntries promptIds across isValidate =>
      cases isValidate with
      | true =>
          have h : s.manager.clearReservedEntries promptIds across true = .ok m' := hexec
          unfold PSManager.clearReservedEntries at h
          exact advances_onInventory hplain (fun _ hval => by cases hval) h
      | false => cases horder
  | occupyRolloutInstanceRequest bufferOrder promptId requestIds isValidate =>
      obtain ⟨⟨_, m1⟩, hocc, hexec⟩ := bind_eq_ok.mp hexec
      cases hexec
      refine advances_occupy hplain hlive (fun hval => ?_) hocc
      subst hval
      exact horder
  | abortRequests order requestIds abortGroup =>
      obtain ⟨⟨commands, m1⟩, habort, hexec⟩ := bind_eq_ok.mp hexec
      cases hexec
      obtain ⟨rfl, hspare⟩ := htimely
      exact advances_abortRequests hplain hm h.whole hspare habort
  | abortReservedRequests order bid =>
      obtain ⟨⟨_, m1⟩, habort, hexec⟩ := bind_eq_ok.mp hexec
      cases hexec
      exact advances_abortReservedRequests hplain hm h.whole habort
  | handleReadyBuffer order bufferOrder bid => cases hroutine
  | maybeDeleteBuffer bid isValidate => exact advances_maybeDeleteBuffer hplain hexec
  | pushModelStateDict versionTag => cases hroutine
  | initModelVersionForResume version => cases hroutine

theorem allowed_of_inOrder {a : PSManager.Action} (h : s.InOrder a) : s.manager.Allowed a := by
  unfold PSManager.Allowed
  split
  · cases h
  · trivial

/-- Every call of the protocol keeps the invariant. -/
theorem Paced.step (h : s.Paced) {a : PSManager.Action} (horder : s.InOrder a)
    (htimely : s.Timely a) (hexec : s.exec a = .ok s') : s'.Paced := by
  obtain ⟨m', hm', heq⟩ := bind_eq_ok.mp hexec
  cases heq
  have hroutine : IsRoutine a →
      Paced ⟨m', s.everReady ∪ m'.stalenessInventory.readyBufferIds⟩ := fun hr =>
    h.advance (h.sound.routine_exec hr (allowed_of_inOrder horder) hm')
      (h.advances hr horder htimely hm')
  cases a with
  | handleReadyBuffer order bufferOrder bid =>
      obtain ⟨⟨_, m1⟩, hready, hm'⟩ := bind_eq_ok.mp hm'
      cases hm'
      exact h.handleReadyBuffer horder htimely hready
  | pushModelStateDict versionTag => exact h.pushModelStateDict horder.1 horder.2 hm'
  | initModelVersionForResume version => cases horder
  | _ => exact hroutine trivial

theorem paced_start {config : PSManagerConfig} (hplain : config.redundantRollout = none)
    (hn : 0 < config.rolloutN) (hN : 1 ≤ config.stalenessBufferEntries) :
    (start config).Paced := by
  have hsound : (PSManager.new config).Sound := by
    refine sound_new config ?_
    unfold PSManagerConfig.trackerConfig
    rw [hplain]
    exact hn
  have hready : config.readyEntriesPerBuffer = config.stalenessBufferEntries := by
    unfold PSManagerConfig.readyEntriesPerBuffer
    rw [hplain]
  have hentries : config.entriesPerBuffer = config.stalenessBufferEntries := by
    unfold PSManagerConfig.entriesPerBuffer
    rw [hplain]
  refine ⟨hsound, ?_, ⟨good_new False ⟨rfl, rfl, ?_, ?_⟩, ?_, ?_⟩, ?_, ?_, ?_, ?_, ?_⟩
  · show config.trackerConfig.algRolloutN = config.trackerConfig.rolloutN
    unfold PSManagerConfig.trackerConfig
    rw [hplain]
  · dsimp only
    omega
  · dsimp only
    omega
  · show config.entriesPerBuffer = config.readyEntriesPerBuffer
    omega
  · exact fun _ _ hl => by cases hl
  · exact fun _ _ hl => by cases hl
  · exact fun _ _ hocc => by cases hocc
  · intro b h0 hlt
    have : b < 0 := hlt
    omega
  · exact fun b hb => absurd hb (Finset.notMem_empty b)
  · exact fun w hw => absurd hw (Finset.notMem_empty w)

/-- A run with the parameters of its inventory. -/
theorem sound_and_sized {config : PSManagerConfig} (hn : 0 < config.trackerConfig.rolloutN)
    {allowed : Watched → PSManager.Action → Prop} (himp : ∀ s a, allowed s a → s.InOrder a)
    (h : Run.Reachable exec allowed (start config) s) : s.manager.Sound ∧
      s.manager.stalenessInventory.numEntries = config.entriesPerBuffer := by
  refine h.invariant (P := fun s : Watched => s.manager.Sound ∧
    s.manager.stalenessInventory.numEntries = config.entriesPerBuffer) ⟨sound_new config hn, rfl⟩
    fun s a s' hs ha hexec => ?_
  obtain ⟨m', hm', heq⟩ := bind_eq_ok.mp hexec
  cases heq
  have hstable := hs.1.exec (allowed_of_inOrder (himp s a ha)) hm'
  refine ⟨hstable.sound, ?_⟩
  dsimp only
  rw [hstable.inventoryConfig]
  exact hs.2

/-- **No group is stranded.** In every run without redundant rollout that keeps to the order
of calls and to the conditions of `Timely`: every reserved group has a minimum version above
the aborted ones; a version is aborted only when every buffer that could still train on it is
ready; and the largest aborted version never decreases. -/
theorem aborted_versions_safe {config : PSManagerConfig} (hplain : config.redundantRollout = none)
    (hn : 0 < config.rolloutN)
    (h : Run.Reachable exec (fun s a => s.InOrder a ∧ s.Timely a) (start config) s) :
    (∀ bid eid info, s.manager.stalenessInventory.slot (bid, eid) = .reserved info →
      ∃ v, info.getEntryVersion = .ok v ∧ s.manager.maxAbortedVersion < v) ∧
    (∀ bid w, w ∈ (s.manager.currAbortVersions bid).1 →
      ∀ b, max w s.manager.modelVersion ≤ b → b ≤ w + s.manager.staleness →
        b ∈ s.manager.stalenessInventory.readyBufferIds) ∧
    ∀ a s', s.InOrder a → s.exec a = .ok s' →
      s.manager.maxAbortedVersion ≤ s'.manager.maxAbortedVersion := by
  have hn' : 0 < config.trackerConfig.rolloutN := by
    unfold PSManagerConfig.trackerConfig
    rw [hplain]
    exact hn
  obtain ⟨hsound, hnum⟩ := sound_and_sized hn' (fun _ _ ha => ha.1) h
  refine ⟨fun bid eid info hslot => ?_, fun bid w hw b hlow hhigh => ?_, fun a s' ha hexec => ?_⟩
  · have hne : s.manager.stalenessInventory.slot (bid, eid) ≠ .empty := by
      rw [hslot]
      simp
    have hlt : eid < s.manager.stalenessInventory.numEntries :=
      (hasBuffer_of_slot hsound.inventory.wf.sized hne).2
    have hentries : config.entriesPerBuffer = config.stalenessBufferEntries := by
      unfold PSManagerConfig.entriesPerBuffer
      rw [hplain]
    have hpaced : s.Paced := h.invariant (paced_start hplain hn (by omega))
      fun _ _ _ hs ha hexec => hs.step ha.1 ha.2 hexec
    obtain ⟨v, hv, -⟩ := (hpaced.plain.good.orderly.window bid eid info hslot).version
    exact ⟨v, hv, (hpaced.live _ _ hslot v (EntryInfo.getEntryVersion_eq_ok.mp hv).1).1⟩
  · obtain ⟨hpend, hall⟩ := mem_currAbortVersions.mp hw
    exact hall w hpend le_rfl b (Int.mem_range_iff.mpr ⟨hlow, by omega⟩)
  · obtain ⟨m', hm', heq⟩ := bind_eq_ok.mp hexec
    cases heq
    exact (hsound.exec (allowed_of_inOrder ha) hm').aborted

/-- Groups of one request, batches of one group, no staleness. -/
def singles : PSManagerConfig where
  rolloutN := 1
  valRolloutN := 1
  stalenessBufferEntries := 1
  staleness := 0
  redundantRollout := none

/-- The first batch is finished and version `1` pushed; prompt `1` was found reservable at
version `0` before that. -/
def finishFirst : List PSManager.Action :=
  [.addRequest [{ requestId := 0 }, { requestId := 1 }],
    .canReserveRequest [(1, false)] [0] false,
    .reserveRolloutInstanceRequests [⟨invalidRolloutInstanceId, 0, 0⟩] false false,
    .updateRequestStatus [⟨0, some .completed, 0, invalidRolloutInstanceId⟩] false,
    .occupyRolloutInstanceRequest .ascending 0 (some [0]) false,
    .pushModelStateDict 1]

/-- A run in which version `0` is aborted while prompt `1` is reserved at version `1`. -/
theorem aborted_versions_safe_next_version :
    ∃ s, Run.Reachable exec (fun s a => s.InOrder a ∧ s.Timely a) (start singles) s ∧
      s.manager.maxAbortedVersion = 0 ∧
      s.manager.stalenessInventory.promptCategory 1 = some .reserved ∧
      ∀ bid eid info, s.manager.stalenessInventory.slot (bid, eid) = .reserved info →
        ∃ v, info.getEntryVersion = .ok v ∧ s.manager.maxAbortedVersion < v := by
  obtain ⟨s, hreach, hs⟩ : ∃ s,
      Run.Reachable exec (fun s a => s.InOrder a ∧ s.Timely a) (start singles) s ∧
        decide (s.manager.maxAbortedVersion = 0 ∧
          s.manager.stalenessInventory.promptCategory 1 = some .reserved) = true :=
    Run.exists_reachable_of_perform (l := finishFirst ++
      [.reserveRolloutInstanceRequests [⟨invalidRolloutInstanceId, 1, 1⟩] false false,
        .handleReadyBuffer .ascendingNat .ascending 0]) (by decide +kernel)
  obtain ⟨hmax, hcat⟩ := of_decide_eq_true hs
  exact ⟨s, hreach, hmax, hcat, (aborted_versions_safe rfl (by decide) hreach).1⟩

/-- Prompt `1` is reserved at version `0` after buffer `0` was filled. Its bound `0` is taken
for a missing one, so it lands in buffer `1`, and stays there when version `0` is aborted. -/
theorem aborted_versions_zero_bound :
    ∃ s, Run.Reachable exec InOrder (start singles) s ∧
      ∃ info, s.manager.stalenessInventory.slot (1, 0) = .reserved info ∧
        info.getEntryVersion = .ok 0 ∧ s.manager.maxAbortedVersion = 0 := by
  obtain ⟨s, hreach, hs⟩ : ∃ s, Run.Reachable exec InOrder (start singles) s ∧
      decide (s.manager.stalenessInventory.slot (1, 0) = .reserved
          ({ rolloutInstanceId := invalidRolloutInstanceId, promptId := 1, requestIdx := 0,
             modelVersion := 0 } : RequestInfo).toEntryInfo ∧
        s.manager.maxAbortedVersion = 0) = true :=
    Run.exists_reachable_of_perform (l := finishFirst ++
      [.ensureTrainBufferExists 1,
        .reserveRolloutInstanceRequests [⟨invalidRolloutInstanceId, 1, 0⟩] false false,
        .handleReadyBuffer .ascendingNat .ascending 0]) (by decide +kernel)
  obtain ⟨hslot, hmax⟩ := of_decide_eq_true hs
  exact ⟨s, hreach, _, hslot, rfl, hmax⟩

end Watched

end Psrl
