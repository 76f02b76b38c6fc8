import Psrl.Manager.Runs

/-!
# Psrl.Manager.Versions

Which model versions `_abort_after_buffer_ready` aborts, and which requests fall with them.

The versions that wait for their abortion are taken smallest first, up to the first one whose
buffers are not all ready. `Due` says the same without the loop: a pending version is aborted
if it and every smaller pending version have all their buffers ready.
-/

namespace Psrl

open Py

namespace PSManager

variable {m m' : PSManager} {bid : Int}

/-! ### Draining -/

/-- With a turn for each element, the drained elements are those up to which no element
fails, and the others are left. -/
theorem mem_drain (ok : Int → Bool) : ∀ (turns : Nat) (check : Finset Int), check.card ≤ turns →
    ∀ v, (v ∈ (drain ok turns check).1 ↔ v ∈ check ∧ ∀ w ∈ check, w ≤ v → ok w = true) ∧
      (v ∈ (drain ok turns check).2 ↔ v ∈ check ∧ v ∉ (drain ok turns check).1)
  | 0, check, hcard, v => by
      obtain rfl := Finset.card_eq_zero.mp (Nat.le_zero.mp hcard)
      simp [drain]
  | turns + 1, check, hcard, v => by
      unfold drain
      cases hmin : setMin check with
      | none =>
          obtain rfl := setMin_eq_none.mp hmin
          simp
      | some low =>
          obtain ⟨hlow, hleast⟩ := setMin_eq_some.mp hmin
          dsimp only
          by_cases hok : ok low = true
          · obtain ⟨hdrained, hleft⟩ := mem_drain ok turns (check.erase low)
              (by rw [Finset.card_erase_of_mem hlow]; omega) v
            rw [if_pos hok]
            dsimp only
            constructor
            · rw [List.mem_cons, hdrained, Finset.mem_erase]
              constructor
              · rintro (rfl | ⟨⟨-, hv⟩, hall⟩)
                · refine ⟨hlow, fun w hw hle => ?_⟩
                  rw [le_antisymm hle (hleast w hw)]
                  exact hok
                · refine ⟨hv, fun w hw hle => ?_⟩
                  by_cases hwl : w = low
                  · rw [hwl]
                    exact hok
                  · exact hall w (Finset.mem_erase.mpr ⟨hwl, hw⟩) hle
              · rintro ⟨hv, hall⟩
                by_cases hvl : v = low
                · exact .inl hvl
                · exact .inr ⟨⟨hvl, hv⟩, fun w hw hle => hall w (Finset.mem_of_mem_erase hw) hle⟩
            · rw [hleft, Finset.mem_erase, List.mem_cons, not_or]
              tauto
          · rw [if_neg hok]
            refine ⟨⟨fun h => absurd h List.not_mem_nil, fun ⟨hv, hall⟩ => ?_⟩, by simp⟩
            exact absurd (hall low hlow (hleast v hv)) hok

/-- The version is pending when buffer `bid` becomes ready, and its buffers and those of all
smaller pending versions are ready. -/
def Due (m : PSManager) (bid version : Int) : Prop :=
  version ∈ m.pendingAbortVersions bid ∧
    ∀ w ∈ m.pendingAbortVersions bid, w ≤ version → m.CanAbortVersion w

instance (m : PSManager) (bid version : Int) : Decidable (m.Due bid version) :=
  inferInstanceAs (Decidable (_ ∧ _))

theorem mem_currAbortVersions {version : Int} :
    version ∈ (m.currAbortVersions bid).1 ↔ m.Due bid version := by
  unfold currAbortVersions Due
  rw [(mem_drain _ _ _ le_rfl version).1]
  simp only [decide_eq_true_eq]

/-! ### The requests of aborted versions -/

/-- The unmarked training requests of the versions that are due. -/
def staleRequests (m : PSManager) (bid : Int) : Finset Nat :=
  ((m.requestInfos.items.filter fun (id, info) => id ∉ m.abortRequestIds ∧
    info.isValidate = false ∧ m.Due bid info.modelVersion).map Prod.fst).toFinset

theorem mem_staleRequests {id : Nat} : id ∈ m.staleRequests bid ↔
    ∃ info, m.requestInfos.get? id = some info ∧ id ∉ m.abortRequestIds ∧
      info.isValidate = false ∧ m.Due bid info.modelVersion := by
  simp [staleRequests, Dict.get?_eq_some_iff]

/-- What the loop over the aborted versions has done. -/
structure VersionsAborted (versions : List Int) (m : PSManager) (state : Finset Nat × PSManager) :
    Prop where
  ids : ∀ id, id ∈ state.1 ↔ ∃ info, m.requestInfos.get? id = some info ∧
    id ∉ m.abortRequestIds ∧ info.isValidate = false ∧ info.modelVersion ∈ versions
  maxAborted : state.2.maxAbortedVersion = versions.foldl max m.maxAbortedVersion
  rest : state.2 = { m with
    runningMinVersion := state.2.runningMinVersion
    maxAbortedVersion := state.2.maxAbortedVersion }

/-- The loop, from a state that has already aborted some versions. -/
theorem VersionsAborted.foldlM {done : List Int} : ∀ {todo : List Int}
    {state state' : Finset Nat × PSManager}, VersionsAborted done m state →
    todo.foldlM abortVersion state = .ok state' → VersionsAborted (done ++ todo) m state'
  | [], state, state', h, hfold => by
      cases hfold
      simpa using h
  | v :: rest, state, state', h, hfold => by
      rw [List.foldlM_cons] at hfold
      obtain ⟨state1, hstep, hfold⟩ := bind_eq_ok.mp hfold
      obtain ⟨⟨found, t⟩, hget, hstep⟩ := bind_eq_ok.mp hstep
      cases hstep
      have hinfos : state.2.requestInfos = m.requestInfos := by rw [h.rest]
      have hmarks : state.2.abortRequestIds = m.abortRequestIds := by rw [h.rest]
      obtain ⟨-, rfl⟩ := RequestStatusTracker.getRequestsOfAbortVersion_eq hget
      have hnext : VersionsAborted (done ++ [v]) m (state.1 ∪ found, { state.2 with
          maxAbortedVersion := max state.2.maxAbortedVersion v
          runningMinVersion := max state.2.runningMinVersion (v + 1) }) := by
        refine ⟨fun id => ?_, ?_, ?_⟩
        · rw [Finset.mem_union, h.ids, RequestStatusTracker.mem_getRequestsOfAbortVersion hget]
          dsimp only
          rw [hinfos, hmarks]
          simp only [List.mem_append, List.mem_singleton]
          constructor
          · rintro (⟨info, h1, h2, h3, h4⟩ | ⟨info, h1, h2, h3, h4⟩)
            · exact ⟨info, h1, h2, h3, .inl h4⟩
            · exact ⟨info, h1, h2, h3, .inr h4⟩
          · rintro ⟨info, h1, h2, h3, h4 | h4⟩
            · exact .inl ⟨info, h1, h2, h3, h4⟩
            · exact .inr ⟨info, h1, h2, h3, h4⟩
        · rw [List.foldl_append, ← h.maxAborted]
          rfl
        · dsimp only
          rw [h.rest]
      have := hnext.foldlM hfold
      simpa using this

/-- The manager when the versions are recorded as aborted and their requests still run. -/
theorem stalenessAbort_cases {order : SetOrder Nat} {ids : Finset Nat}
    (h : m.stalenessAbort order bid = .ok (ids, m')) :
    ids = m.staleRequests bid ∧ ∃ m1,
      m1 = { m with
        checkAbortVersions := (m.currAbortVersions bid).2
        runningMinVersion := m1.runningMinVersion
        maxAbortedVersion := (m.currAbortVersions bid).1.foldl max m.maxAbortedVersion } ∧
      ((m.staleRequests bid = ∅ ∧ m' = m1) ∨
        ∃ commands, m1.abortRequests order (order.toList (m.staleRequests bid)) true =
          .ok (commands, m')) := by
  unfold stalenessAbort at h
  dsimp only at h
  obtain ⟨⟨found, m1⟩, hfold, h⟩ := bind_eq_ok.mp h
  have hinit : VersionsAborted [] { m with checkAbortVersions := (m.currAbortVersions bid).2 }
      (∅, { m with checkAbortVersions := (m.currAbortVersions bid).2 }) :=
    ⟨by simp, rfl, rfl⟩
  have hstate := hinit.foldlM hfold
  obtain ⟨hids, hmax, hrest⟩ := hstate
  have hfound : found = m.staleRequests bid := by
    ext id
    rw [hids, mem_staleRequests]
    simp only [List.nil_append, mem_currAbortVersions]
  subst hfound
  have hm1 : m1 = { m with
      checkAbortVersions := (m.currAbortVersions bid).2
      runningMinVersion := m1.runningMinVersion
      maxAbortedVersion := (m.currAbortVersions bid).1.foldl max m.maxAbortedVersion } := by
    rw [show (m.currAbortVersions bid).1.foldl max m.maxAbortedVersion = m1.maxAbortedVersion
      from hmax.symm]
    exact hrest
  dsimp only at h
  split at h
  · obtain ⟨⟨commands, m2⟩, habort, h⟩ := bind_eq_ok.mp h
    cases h
    exact ⟨rfl, m1, hm1, .inr ⟨commands, habort⟩⟩
  · rename_i hempty
    cases h
    exact ⟨rfl, m', hm1, .inl ⟨Finset.not_nonempty_iff_eq_empty.mp hempty, rfl⟩⟩

end PSManager

end Psrl
