import Psrl.Staleness.Runs

/-!
# Psrl.Staleness.Progress

What the calls of the manager may do to a training inventory without redundant slots.

`Progress lo hi` bounds the effect of a call by a range of model versions: entries that are
new or rewritten have versions above `lo` and at most `hi`, a group that finishes does so in
a buffer that may train on a version of at most `hi`, and a finished group leaves its slot
only together with its buffer. Whatever happens between two pushes is a chain of such
effects.
-/

namespace Psrl

open Py

/-- All recorded versions lie in `(lo, hi]`. -/
def EntryInfo.Between (lo hi : Int) (info : EntryInfo) : Prop :=
  ∀ v ∈ info.modelVersion.toList, lo < v ∧ v ≤ hi

namespace StalenessInventory

open Layout

variable {inv inv1 inv' : StalenessInventory} {staleness : Nat} {lo hi : Int} {bid : Int}

/-- Every reservation has versions in `(lo, hi]`. -/
def Live (lo hi : Int) (inv : StalenessInventory) : Prop :=
  ∀ l info, inv.slot l = .reserved info → info.Between lo hi

structure Progress (staleness : Nat) (lo hi : Int) (inv inv' : StalenessInventory) : Prop where
  run : PlainRun staleness inv'
  config : inv'.toInventoryConfig = inv.toInventoryConfig
  grows : inv.bufferId ≤ inv'.bufferId
  has : ∀ b, inv'.HasBuffer b → b < inv.bufferId → inv.HasBuffer b
  finished : ∀ b e, inv'.HasBuffer b → b < inv.bufferId → inv.row b e = .occupied →
    inv'.row b e = .occupied
  occupied : ∀ b e, inv'.row b e = .occupied → inv.row b e = .occupied ∨ b ≤ hi + staleness
  reserved : ∀ l info, inv'.slot l = .reserved info →
    (∃ l0, inv.slot l0 = .reserved info) ∨ info.Between lo hi

theorem Progress.refl (h : PlainRun staleness inv) : Progress staleness lo hi inv inv where
  run := h
  config := rfl
  grows := le_rfl
  has := fun _ hb _ => hb
  finished := fun _ _ _ _ hocc => hocc
  occupied := fun _ _ hocc => .inl hocc
  reserved := fun l _ hl => .inl ⟨l, hl⟩

theorem Progress.trans (h : Progress staleness lo hi inv inv1)
    (h' : Progress staleness lo hi inv1 inv') : Progress staleness lo hi inv inv' where
  run := h'.run
  config := h'.config.trans h.config
  grows := h.grows.trans h'.grows
  has := fun b hb hlt => h.has b (h'.has b hb (hlt.trans_le h.grows)) hlt
  finished := fun b e hb hlt hocc => by
    have hlt1 := hlt.trans_le h.grows
    exact h'.finished b e hb hlt1 (h.finished b e (h'.has b hb hlt1) hlt hocc)
  occupied := fun b e hocc => (h'.occupied b e hocc).elim (h.occupied b e) .inr
  reserved := fun l info hl => by
    rcases h'.reserved l info hl with ⟨l1, hl1⟩ | hbetween
    · exact h.reserved l1 info hl1
    · exact .inr hbetween

theorem Progress.live (h : Progress staleness lo hi inv inv') (hlive : Live lo hi inv) :
    Live lo hi inv' := by
  intro l info hl
  rcases h.reserved l info hl with ⟨l0, hl0⟩ | hbetween
  · exact hlive l0 info hl0
  · exact hbetween

/-- A complete batch stays complete as long as its buffer exists. -/
theorem Progress.batchDone (h : Progress staleness lo hi inv inv') {b : Int}
    (hb : inv'.HasBuffer b) (hlt : b < inv.bufferId)
    (hdone : BatchDone inv.readyNumEntries (inv.row b)) :
    BatchDone inv'.readyNumEntries (inv'.row b) := by
  intro e he
  rw [h.config] at he
  exact h.finished b e hb hlt (hdone e he)

/-- The buffer `reserve_data` chooses for a version lies in the window of the version. A zero
bound is mistaken for a missing one; then no other buffer than `0` may be the only one with
capacity. -/
def BoundSeen (staleness : Nat) (inv : StalenessInventory) (modelVersion : Int) : Prop :=
  modelVersion + staleness = 0 →
    0 ∈ inv.getBuffersWithCapacity ∨ ∀ b ∈ inv.getBuffersWithCapacity, b = 0

instance (inv : StalenessInventory) (modelVersion : Int) :
    Decidable (inv.BoundSeen staleness modelVersion) :=
  inferInstanceAs (Decidable (_ → _))

variable (h : PlainRun staleness inv)

include h

/-! ### Buffers come and go -/

theorem PlainRun.grown (hc : inv'.Consistent)
    (hgrown : Grown inv inv') : Progress staleness lo hi inv inv' where
  run := h.congr (h.good.of_grown hc.wf hc.cached hgrown) hgrown.config
    (h.versioned.of_origin fun l info hl => ⟨l, by rw [← hgrown.slot]; exact hl⟩)
  config := hgrown.config
  grows := hgrown.le
  has := fun b hb hlt => ((hgrown.has b).mp hb).resolve_right fun hnew => by omega
  finished := fun b e _ _ hocc => by
    rw [row_eq, hgrown.slot]
    exact hocc
  occupied := fun b e hocc => by
    rw [row_eq, hgrown.slot] at hocc
    exact .inl hocc
  reserved := fun l info hl => .inl ⟨l, by rw [← hgrown.slot]; exact hl⟩

theorem PlainRun.deleteBuffer
    (hdel : inv.deleteBuffer bid = .ok inv') : Progress staleness lo hi inv inv' := by
  obtain ⟨inv1, hok, hw, hc, hconfig, hid, -, hhas, hslot⟩ :=
    h.good.wf.deleteBuffer h.good.cached bid
  obtain rfl : inv1 = inv' := Except.ok.inj (hok.symm.trans hdel)
  obtain ⟨inv2, hok2, hg, -⟩ := h.good.deleteBuffer bid
  obtain rfl : inv2 = inv1 := Except.ok.inj (hok2.symm.trans hdel)
  have hstay : ∀ l, inv2.slot l ≠ .empty → inv2.slot l = inv.slot l := by
    intro l hl
    rw [hslot] at hl ⊢
    dsimp only at hl ⊢
    split at hl
    · exact absurd rfl hl
    · rename_i hne
      rw [if_neg hne]
  have hold : ∀ l info, inv2.slot l = .reserved info → inv.slot l = .reserved info := by
    intro l info hl
    rw [← hl]
    exact (hstay l (by rw [hl]; simp)).symm
  refine ⟨h.congr hg hconfig (h.versioned.of_origin fun l info hl => ⟨l, hold l info hl⟩),
    hconfig, hid.ge, fun b hb _ => ((hhas b).mp hb).1, fun b e hb _ hocc => ?_,
    fun b e hocc => .inl ?_, fun l info hl => .inl ⟨l, hold l info hl⟩⟩
  · rw [row_eq, hslot]
    dsimp only
    rw [if_neg ((hhas b).mp hb).2]
    exact hocc
  · rw [row_eq] at hocc ⊢
    rw [← hstay _ fun hempty => by rw [hempty] at hocc; cases hocc]
    exact hocc

theorem PlainRun.deleteBuffers {bids : List Int}
    (hdel : bids.foldlM StalenessInventory.deleteBuffer inv = .ok inv') :
    Progress staleness lo hi inv inv' :=
  foldlM_invariant (P := fun i => Progress staleness lo hi inv i) hdel (.refl h)
    fun _ _ _ _ hprog hstep => hprog.trans (hprog.run.deleteBuffer hstep)

theorem PlainRun.markBufferForDeletion
    (hmark : inv.markBufferForDeletion bid = .ok inv') : Progress staleness lo hi inv inv' := by
  obtain ⟨status, hstatus, hmark'⟩ := bind_eq_ok.mp (id hmark)
  obtain ⟨_, hready, hmark'⟩ := bind_eq_ok.mp hmark'
  cases hmark'
  obtain ⟨hb, hdone⟩ :=
    h.good.getBufferStatus_ready_iff.mp ⟨status, hstatus, pyAssert_eq_ok.mp hready⟩
  obtain ⟨inv1, hok, hg, -⟩ := h.good.markBufferForDeletion hb hdone
  cases hok.symm.trans hmark
  exact ⟨⟨hg, h.plain, h.versioned⟩, rfl, le_rfl, fun _ hb _ => hb, fun _ _ _ _ hocc => hocc,
    fun _ _ hocc => .inl hocc, fun l _ hl => .inl ⟨l, hl⟩⟩

/-! ### Groups change, join, leave and finish -/

theorem PlainRun.rewritten {loc : Int × Nat} {info info' : EntryInfo}
    (hrew : Rewritten inv inv' loc info info') (hres : inv.slot loc = .reserved info →
      info'.InWindow staleness loc.1 ∧ info'.VersionsCover ∧ info'.Between lo hi) :
    Progress staleness lo hi inv inv' where
  run := by
    refine h.congr (hrew.good h.good fun hl => (hres hl).1) hrew.edit.config fun l i hl => ?_
    rcases hrew.reserved hl with ⟨-, hloc, rfl⟩ | hl
    · exact (hres hloc).2.1
    · exact h.versioned l i hl
  config := hrew.edit.config
  grows := hrew.edit.bufferId.ge
  has := fun b hb _ => (hrew.edit.has b).mp hb
  finished := fun b e _ _ hocc => by
    rw [hrew.row]
    exact hocc
  occupied := fun b e hocc => by
    rw [hrew.row] at hocc
    exact .inl hocc
  reserved := fun l i hl => by
    rcases hrew.reserved hl with ⟨-, hloc, rfl⟩ | hl
    · exact .inr (hres hloc).2.2
    · exact .inl ⟨l, hl⟩

/-- Raising the version of a recorded request of a reservation, to a version that no open
buffer is behind. -/
theorem PlainRun.updateRequestVersionTag (hlive : Live lo hi inv)
    {requestId : Nat} {new : Int} (hnew : new ≤ hi)
    (hopen : ∀ b, inv.HasBuffer b → ¬ BatchDone inv.readyNumEntries (inv.row b) → hi ≤ b)
    (hraise : inv.RaisesVersion requestId new)
    (hupd : inv.updateRequestVersionTag requestId new = .ok inv') :
    Progress staleness lo hi inv inv' := by
  have hc : inv.Consistent := ⟨h.good.wf, h.good.cached⟩
  obtain ⟨⟨b, e⟩, info, info', hrew, hp, hchange⟩ := hc.updateRequest (fun i idx i' hi => by
    obtain ⟨mv, -, rfl⟩ := EntryInfo.updateModelVersion_eq_ok.mp hi
    rfl) hupd
  refine h.rewritten hrew fun hloc => ?_
  have htracked : inv.dataTracker.get? (requestId / inv.rolloutN) = some (b, e) :=
    (h.good.wf.tracked _ _).mpr (by unfold content; rw [hloc, ← hp]; rfl)
  obtain ⟨old, hold, hle⟩ := hraise info (reservedInfo?_eq_some.mpr ⟨_, htracked, hloc⟩)
  obtain ⟨hb, he⟩ := h.good.wf.hasBuffer_of_tracked htracked
  have hbuf := hopen b hb (h.open_of_reserved hloc he)
  refine ⟨(h.good.orderly.window b e info hloc).updateModelVersion hchange hold hle
    (hnew.trans hbuf), (h.versioned _ _ hloc).updateModelVersion hchange, fun v hv => ?_⟩
  obtain ⟨mv, hmv, rfl⟩ := EntryInfo.updateModelVersion_eq_ok.mp hchange
  rcases GroupField.mem_setAt hmv hv with hv | rfl
  · exact hlive _ _ hloc v hv
  · exact ⟨(hlive _ _ hloc old (GroupField.mem_of_valueOf hold)).1.trans_le hle, hnew⟩

/-- A change of another field than the versions. -/
theorem PlainRun.updateRequest (hlive : Live lo hi inv)
    {requestId : Nat} {update : EntryInfo → Nat → Except PyError EntryInfo}
    (hkeep : ∀ info idx info', update info idx = .ok info' → info'.promptId = info.promptId ∧
      info'.modelVersion = info.modelVersion ∧ info'.requestIdx = info.requestIdx)
    (hupd : inv.updateRequest requestId update = .ok inv') : Progress staleness lo hi inv inv' := by
  have hc : inv.Consistent := ⟨h.good.wf, h.good.cached⟩
  obtain ⟨loc, info, info', hrew, -, hchange⟩ :=
    hc.updateRequest (fun i idx i' hi => (hkeep i idx i' hi).1) hupd
  obtain ⟨-, hversions, hidx⟩ := hkeep _ _ _ hchange
  refine h.rewritten hrew fun hloc => ?_
  have hwin := h.good.orderly.window loc.1 loc.2 info hloc
  have hcover := h.versioned _ _ hloc
  have hbetween := hlive _ _ hloc
  unfold EntryInfo.InWindow EntryInfo.VersionsCover EntryInfo.Between at *
  rw [hversions, hidx]
  exact ⟨hwin, hcover, hbetween⟩

theorem PlainRun.clearReservedEntries {promptIds : List Nat}
    (hcat : ∀ p ∈ promptIds, inv.promptCategory p ≠ some .occupied)
    (hclear : inv.clearReservedEntries promptIds false = .ok inv') :
    Progress staleness lo hi inv inv' := by
  obtain ⟨inv1, hok, hg, hall, hocc⟩ := h.good.clearReservedEntries hcat
  obtain rfl : inv1 = inv' := Except.ok.inj (hok.symm.trans hclear)
  have hstay : ∀ b e, inv1.row b e = .occupied ↔ inv.row b e = .occupied := by
    intro b e
    rw [row_eq, row_eq, Entry.category_eq_occupied_iff, Entry.category_eq_occupied_iff]
    refine exists_congr fun info => ?_
    rw [hocc, and_iff_left_iff_imp]
    intro hslot hp
    have hcontent : inv.content (b, e) = some info.promptId := by
      unfold content
      rw [hslot]
      rfl
    refine hcat _ hp ?_
    rw [h.good.wf.promptCategory_of_slot hcontent, hslot]
    rfl
  have hold : ∀ l info, inv1.slot l = .reserved info → ∃ l0, inv.slot l0 = .reserved info := by
    intro l info hl
    obtain ⟨e, he⟩ := hall.origin l (by rw [hl]; simp)
    exact ⟨_, he.trans hl⟩
  exact ⟨h.congr hg hall.frame.config (h.versioned.of_origin hold), hall.frame.config,
    hall.frame.bufferId.ge, fun b hb _ => (hall.frame.has b).mp hb,
    fun b e _ _ hrow => (hstay b e).mpr hrow, fun b e hrow => .inl ((hstay b e).mp hrow),
    fun l info hl => .inl (hold l info hl)⟩

theorem PlainRun.occupyDataWithReserve (hlive : Live lo hi inv)
    {order : SetOrder Int} {promptId : Nat} {r : Int × Nat × Nat}
    (hcat : inv.promptCategory promptId ≠ some .occupied)
    (hocc : inv.occupyDataWithReserve order promptId = .ok (r, inv')) :
    Progress staleness lo hi inv inv' := by
  have hres : inv.promptCategory promptId = some .reserved := by
    cases htracked : inv.dataTracker.get? promptId with
    | none =>
        unfold StalenessInventory.occupyDataWithReserve at hocc
        simp only [htracked] at hocc
        cases hocc
    | some l =>
        have hcontent := h.good.wf.content_of_tracked htracked
        have hslot := h.good.wf.promptCategory_of_slot hcontent
        cases hentry : inv.slot l with
        | empty =>
            unfold content at hcontent
            rw [hentry] at hcontent
            cases hcontent
        | reserved i => rw [hslot, hentry]; rfl
        | occupied i => exact absurd (by rw [hslot, hentry]; rfl) hcat
  obtain ⟨l, info, v, loc, n, inv1, hl, hv, hle, hok, heffect, hrun⟩ := h.occupy order hres
  obtain ⟨-, rfl⟩ := Prod.ext_iff.mp (Except.ok.inj (hok.symm.trans hocc))
  dsimp only at *
  have hvhi := (hlive l info hl v (EntryInfo.getEntryVersion_eq_ok.mp hv).1).2
  refine ⟨hrun, heffect.frame.config, heffect.frame.bufferId.ge,
    fun b hb _ => (heffect.frame.has b).mp hb, fun b e _ _ hrow => ?_, fun b e hrow => ?_,
    fun l' i hl' => .inl (heffect.reserved l' i hl').2⟩
  · rw [row_eq] at hrow ⊢
    obtain ⟨i, hi⟩ := Entry.category_eq_occupied_iff.mp hrow
    rw [(heffect.occupied _ i).mpr (.inl hi)]
    rfl
  · rw [row_eq] at hrow ⊢
    obtain ⟨i, hi⟩ := Entry.category_eq_occupied_iff.mp hrow
    rcases (heffect.occupied _ i).mp hi with hi | ⟨rfl, -⟩
    · exact .inl (by rw [hi]; rfl)
    · exact .inr (by dsimp only at hle; omega)

/-! ### Reserving -/

/-- The candidates of a reservation, when the buffers up to its bound exist. -/
theorem PlainRun.candidates (h1 : PlainRun staleness inv1)
    (hgrown : Grown inv inv1) {v : Int} (hid : inv1.bufferId = max inv.bufferId (v + staleness + 1))
    (hseen : inv.BoundSeen staleness v) {ids : Finset Int}
    (hids : inv1.reserveCandidates (some (v + staleness)) = .ok ids) :
    ∀ t ∈ ids, t ∈ inv1.getBuffersWithCapacity ∧ v ≤ t ∧ t ≤ v + staleness := by
  unfold StalenessInventory.reserveCandidates at hids
  dsimp only at hids
  intro t ht
  split at hids
  · rename_i hzero
    obtain ⟨_, hcard, hids⟩ := bind_eq_ok.mp hids
    cases hids
    obtain ⟨c, hc⟩ := Finset.card_eq_one.mp (pyAssert_eq_ok.mp hcard)
    have hcap : ∀ b, b ∈ inv1.getBuffersWithCapacity ↔
        inv1.HasBuffer b ∧ HasEmpty inv.numEntries (inv.row b) := by
      intro b
      have hrow : inv1.row b = inv.row b := by
        funext e
        rw [row_eq, row_eq, hgrown.slot]
      rw [h1.good.mem_withCapacity, hgrown.config, hrow]
    -- the only buffer with capacity is buffer `0`
    suffices ht0 : t = 0 from ⟨ht, by omega, by omega⟩
    have honly : ∀ b, b ∈ inv1.getBuffersWithCapacity → b = t := by
      intro b hb
      rw [hc, Finset.mem_singleton] at hb ht
      rw [hb, ht]
    rcases hseen hzero with h0 | hall
    · obtain ⟨hhas, hempty⟩ := h.good.mem_withCapacity.mp h0
      exact (honly 0 ((hcap 0).mpr ⟨(hgrown.has 0).mpr (.inl hhas), hempty⟩)).symm
    · obtain ⟨hhas, hempty⟩ := (hcap t).mp ht
      rcases (hgrown.has t).mp hhas with hold | hnew
      · exact hall t (h.good.mem_withCapacity.mpr ⟨hold, hempty⟩)
      · have := h.good.wf.nonneg
        omega
  · have hstale : inv1.getStaleness = .ok staleness := by
      unfold getStaleness
      rw [h1.good.training.stale]
    rw [hstale, ok_bind] at hids
    cases hids
    obtain ⟨hcap, hwin, -⟩ := Finset.mem_filter.mp ht
    exact ⟨hcap, by omega, hwin.2⟩

theorem PlainRun.reserveNew {req : RequestInfo} {loc : Int × Nat}
    (hbetween : req.toEntryInfo.Between lo hi) (hnew : inv.dataTracker.get? req.promptId = none)
    (hseen : inv.BoundSeen staleness req.modelVersion)
    (hres : inv.reserveNew req (some (req.modelVersion + staleness)) = .ok (some loc, inv')) :
    Progress staleness lo hi inv inv' := by
  obtain ⟨inv1, hok1, hg1, hgrown, hid⟩ :=
    h.good.ensureBufferExists (req.modelVersion + staleness)
  have hprog1 : Progress staleness lo hi inv inv1 := h.grown ⟨hg1.wf, hg1.cached⟩ hgrown
  unfold StalenessInventory.reserveNew at hres
  simp only [h.good.training.train, Bool.false_eq_true, if_false, ne_eq, reduceCtorEq,
    not_false_eq_true, pyAssert_of, ok_bind, hok1] at hres
  obtain ⟨ids, hids, hres⟩ := bind_eq_ok.mp hres
  have hcand := h.candidates hprog1.run hgrown hid hseen hids
  have hne : ids.Nonempty := by
    by_contra hempty
    unfold StalenessInventory.reserveIn at hres
    rw [setMax_eq_none.mpr (Finset.not_nonempty_iff_eq_empty.mp hempty)] at hres
    cases hres
  obtain ⟨inv2, loc', hok2, hg2, hframe, -, hfree, hslot⟩ :=
    hg1.reserveIn (by rw [hgrown.tracker]; exact hnew) hne hcand
  obtain ⟨-, rfl⟩ := Prod.ext_iff.mp (Except.ok.inj (hok2.symm.trans hres))
  refine hprog1.trans ⟨hprog1.run.congr hg2 hframe.config
    (hprog1.run.versioned.of_update hslot fun i hi => ?_), hframe.config, hframe.bufferId.ge,
    fun b hb _ => (hframe.has b).mp hb, fun b e _ _ hrow => ?_, fun b e hrow => .inl ?_,
    fun l i hl => ?_⟩
  · cases hi
    exact EntryInfo.versionsCover_toEntryInfo req
  · rw [row_eq] at hrow ⊢
    have hne : (b, e) ≠ loc' := by
      rintro rfl
      rw [hfree] at hrow
      cases hrow
    rw [hslot, Function.update_of_ne hne]
    exact hrow
  · rw [row_eq, hslot, Function.update_apply] at hrow
    split at hrow
    · cases hrow
    · exact hrow
  · rw [hslot, Function.update_apply] at hl
    split at hl
    · cases hl
      exact .inr hbetween
    · exact .inl ⟨l, hl⟩

/-- A reservation at a version in `(lo, hi]` that joins its group only if the version is not
too old for the group's buffer. -/
theorem PlainRun.reserveData (hlive : Live lo hi inv)
    {req : RequestInfo} {loc : Int × Nat} (hlo : lo < req.modelVersion)
    (hhi : req.modelVersion ≤ hi)
    (hjoin : ∀ l ∈ inv.dataTracker.get? req.promptId, l.1 ≤ req.modelVersion + staleness)
    (hseen : inv.dataTracker.get? req.promptId = none →
      inv.BoundSeen staleness req.modelVersion)
    (hres : inv.reserveData req (some (req.modelVersion + staleness)) = .ok (some loc, inv')) :
    Progress staleness lo hi inv inv' := by
  unfold StalenessInventory.reserveData at hres
  cases htracked : inv.dataTracker.get? req.promptId with
  | none =>
      simp only [htracked, h.good.training.train, Bool.false_eq_true, if_false] at hres
      refine h.reserveNew (fun v hv => ?_) htracked (hseen htracked) hres
      obtain rfl := List.mem_singleton.mp hv
      exact ⟨hlo, hhi⟩
  | some l =>
      obtain ⟨b, e⟩ := l
      simp only [htracked] at hres
      obtain ⟨info, hinfo, hres⟩ := bind_eq_ok.mp hres
      cases hres
      have hrew := h.good.wf.setInfo (entryInfoAt_eq_ok.mp hinfo)
        (EntryInfo.recordRequest_promptId info req)
      refine h.rewritten hrew fun hloc => ?_
      have hbuf : b ≤ req.modelVersion + staleness := hjoin (b, e) htracked
      refine ⟨(h.good.orderly.window b e info hloc).recordRequest (by omega),
        (h.versioned _ _ hloc).recordRequest req, fun v hv => ?_⟩
      rcases EntryInfo.mem_recordRequest_modelVersion hv with hv | rfl
      · exact hlive _ _ hloc v hv
      · exact ⟨hlo, hhi⟩

end StalenessInventory

end Psrl
