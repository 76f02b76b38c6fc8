import Psrl.Gen.ThunderAgent

/-!
# Psrl.Gen.Readmission

**What `ThunderAgentScheduler.decide` achieves.** `Decides` says what a decision has to be, and
`decide_decides` that `decide` makes such decisions.

On its own instance a session is continued by going through the hung sessions of the instance in the
order of their tokens; `Greedy.length_le_fill` makes this the largest choice. In the global scope
the loop stops at a row that is too small for the smallest session left, which is no loss since all
others need as much (`place_eq_placeAll`).
-/

namespace Psrl

open Py

variable {ι κ : Type} [DecidableEq ι]

namespace ThunderAgentScheduler

variable {sched : ThunderAgentScheduler}

/-! ### The continue phase -/

/-- The dictionaries that the continue phase gets: the hung sessions of the known instances, and
what the hang phase leaves of their capacities. -/
structure AfterHang (known : List ι) (sessions : List (SessionInfo ι κ))
    (hungByInstance : Dict ι (List (SessionInfo ι κ))) (remainingByInstance : Dict ι Int) :
    Prop where
  hung : ∀ i, (hungByInstance.get? i).getD [] = if i ∈ known then hungOn sessions i else []
  remaining : ∀ i, i ∈ known ↔ ∃ remaining, remainingByInstance.get? i = some remaining
  nonneg : ∀ i remaining, remainingByInstance.get? i = some remaining → 0 ≤ remaining
  nodup : sessions.Nodup
  pos : ∀ sess ∈ sessions, 0 < sess.totalTokens

variable {known : List ι} {sessions : List (SessionInfo ι κ)} {H : Dict ι (List (SessionInfo ι κ))}
  {R : Dict ι Int} {i : ι} {sess : SessionInfo ι κ} {hung l : List (SessionInfo ι κ)}
  {remaining minNeed : Int} {caps : List (ι × Int)}

namespace AfterHang

variable (h : AfterHang known sessions H R)

include h

theorem group_eq (hget : H.get? i = some hung) :
    hung = if i ∈ known then hungOn sessions i else [] := by
  rw [← h.hung i, hget, Option.getD_some]

theorem mem_group (hget : H.get? i = some hung)
    (hsess : sess ∈ hung) : i ∈ known ∧ sess ∈ hungOn sessions i := by
  rw [h.group_eq hget] at hsess
  split at hsess
  · exact ⟨‹_›, hsess⟩
  · cases hsess

theorem get?_group (hknown : i ∈ known)
    (hsess : sess ∈ hungOn sessions i) : H.get? i = some (hungOn sessions i) := by
  have hgroup := h.hung i
  rw [if_pos hknown] at hgroup
  cases hget : H.get? i with
  | none =>
      rw [hget, Option.getD_none] at hgroup
      rw [← hgroup] at hsess
      cases hsess
  | some hung =>
      rw [hget, Option.getD_some] at hgroup
      rw [hgroup]

theorem nodup_group (hget : H.get? i = some hung) : hung.Nodup := by
  rw [h.group_eq hget]
  split
  · exact h.nodup.filter _
  · exact List.nodup_nil

end AfterHang

/-- What is placed on an instance. -/
def placedOn (placed : List (SessionInfo ι κ × ι)) (i : ι) : List (SessionInfo ι κ) :=
  (placed.filter (·.2 = i)).map Prod.fst

theorem mem_placedOn {placed : List (SessionInfo ι κ × ι)} :
    sess ∈ placedOn placed i ↔ (sess, i) ∈ placed := by
  unfold placedOn
  simp

theorem placedOn_cons (j : ι) (placed : List (SessionInfo ι κ × ι)) :
    placedOn ((sess, j) :: placed) i =
      if j = i then sess :: placedOn placed i else placedOn placed i := by
  unfold placedOn
  by_cases hij : j = i <;> simp [hij]

/-- Hung sessions of known instances are placed, each of them once, as far as the capacities
allow. -/
structure Readmits (sched : ThunderAgentScheduler) (known : List ι)
    (sessions : List (SessionInfo ι κ)) (R : Dict ι Int) (placed : List (SessionInfo ι κ × ι)) :
    Prop where
  nodup : (placed.map Prod.fst).Nodup
  hung : ∀ p ∈ placed, p.2 ∈ known ∧ ∃ i ∈ known, p.1 ∈ hungOn sessions i
  fits : ∀ i remaining, R.get? i = some remaining →
    ((placedOn placed i).map sched.need).sum ≤ remaining

/-! #### On the own instance -/

omit [DecidableEq ι] in
/-- The test of the capacity before the loop makes no difference. -/
theorem fill_eq_nil_of_le (hpos : ∀ sess ∈ hung, 0 < sess.totalTokens)
    (hle : remaining ≤ sched.bufferPerSession) :
    Greedy.fill sched.need remaining (sortedByTokens hung) = [] := by
  refine Greedy.fill_eq_nil fun sess hsess => ?_
  have htokens := hpos sess (mem_sortedByTokens.mp hsess)
  unfold need
  omega

section Pinned

variable (h : AfterHang known sessions H R)

include h

theorem mem_continuePinned :
    (sess, i) ∈ sched.continuePinned H R ↔ ∃ remaining, R.get? i = some remaining ∧
      sess ∈ Greedy.fill sched.need remaining (sortedByTokens (hungOn sessions i)) := by
  unfold continuePinned
  rw [List.mem_flatMap]
  constructor
  · rintro ⟨⟨j, hung⟩, hitem, hmem⟩
    dsimp only at hmem
    split at hmem
    · cases hmem
    · obtain ⟨sess', hfill, heq⟩ := List.mem_map.mp hmem
      cases heq
      have hget := Dict.get?_eq_some_iff.mpr hitem
      have hin := mem_sortedByTokens.mp ((Greedy.fill_sublist _ _).subset hfill)
      obtain ⟨hknown, -⟩ := h.mem_group hget hin
      obtain ⟨remaining, hremaining⟩ := (h.remaining i).mp hknown
      rw [hremaining, Option.getD_some, h.group_eq hget, if_pos hknown] at hfill
      exact ⟨remaining, hremaining, hfill⟩
  · rintro ⟨remaining, hremaining, hfill⟩
    have hin := mem_sortedByTokens.mp ((Greedy.fill_sublist _ _).subset hfill)
    have hget := h.get?_group ((h.remaining i).mpr ⟨remaining, hremaining⟩) hin
    refine ⟨(i, hungOn sessions i), Dict.get?_eq_some_iff.mp hget, ?_⟩
    dsimp only
    rw [hremaining, Option.getD_some, if_neg]
    · exact List.mem_map_of_mem hfill
    · intro hle
      rw [fill_eq_nil_of_le (fun sess hsess => h.pos sess (mem_hungOn.mp hsess).1) hle] at hfill
      cases hfill

theorem nodup_continuePinned : ((sched.continuePinned H R).map Prod.fst).Nodup := by
  have hown : ∀ p ∈ sched.continuePinned H R, p.1.instanceId = some p.2 := by
    rintro ⟨sess, i⟩ hp
    obtain ⟨remaining, -, hfill⟩ := (mem_continuePinned h).mp hp
    exact (mem_hungOn.mp (mem_sortedByTokens.mp ((Greedy.fill_sublist _ _).subset hfill))).2.1
  refine List.Nodup.map_on (fun p hp q hq heq => ?_) ?_
  · have hinst := hown p hp
    rw [heq, hown q hq] at hinst
    exact Prod.ext heq (Option.some.inj hinst).symm
  · refine Dict.nodup_flatMap_items Prod.snd (fun item hitem => ?_) (fun item hitem p hp => ?_)
    · dsimp only
      split
      · exact List.nodup_nil
      · refine List.Nodup.map (fun a b hab => congrArg Prod.fst hab) ?_
        refine List.Nodup.sublist (Greedy.fill_sublist _ _) ?_
        exact (List.perm_insertionSort _ _).nodup_iff.mpr
          (h.nodup_group (Dict.get?_eq_some_iff.mpr hitem))
    · dsimp only at hp
      split at hp
      · cases hp
      · obtain ⟨sess, -, rfl⟩ := List.mem_map.mp hp
        rfl

/-- On each instance the sessions that the loop over its own group takes are placed. -/
theorem placedOn_continuePinned_perm (hremaining : R.get? i = some remaining) :
    (placedOn (sched.continuePinned H R) i).Perm
      (Greedy.fill sched.need remaining (sortedByTokens (hungOn sessions i))) := by
  refine (List.perm_ext_iff_of_nodup ?_ ?_).mpr fun sess => ?_
  · exact (nodup_continuePinned h).sublist (List.filter_sublist.map Prod.fst)
  · refine List.Nodup.sublist (Greedy.fill_sublist _ _) ?_
    exact (List.perm_insertionSort _ _).nodup_iff.mpr (h.nodup.filter _)
  · rw [mem_placedOn, mem_continuePinned h]
    constructor
    · rintro ⟨remaining', hremaining', hfill⟩
      rw [hremaining] at hremaining'
      cases hremaining'
      exact hfill
    · exact fun hfill => ⟨remaining, hremaining, hfill⟩

theorem readmits_continuePinned : Readmits sched known sessions R (sched.continuePinned H R) where
  nodup := nodup_continuePinned h
  hung := by
    rintro ⟨sess, i⟩ hp
    obtain ⟨remaining, hremaining, hfill⟩ := (mem_continuePinned h).mp hp
    have hknown := (h.remaining i).mpr ⟨remaining, hremaining⟩
    exact ⟨hknown, i, hknown, mem_sortedByTokens.mp ((Greedy.fill_sublist _ _).subset hfill)⟩
  fits := by
    intro i remaining hremaining
    rw [((placedOn_continuePinned_perm h hremaining).map _).sum_eq]
    exact Greedy.sum_fill_le (h.nonneg i remaining hremaining)

/-- No choice of hung sessions that fits is larger. -/
theorem length_le_continuePinned
    (hbuffer : 0 ≤ sched.bufferPerSession) (hremaining : R.get? i = some remaining)
    (hsub : l.Sublist (hungOn sessions i)) (hfits : (l.map sched.need).sum ≤ remaining) :
    l.length ≤ (placedOn (sched.continuePinned H R) i).length := by
  rw [(placedOn_continuePinned_perm h hremaining).length_eq]
  have hperm : (sortedByTokens (hungOn sessions i)).Perm (hungOn sessions i) :=
    List.perm_insertionSort _ _
  obtain ⟨l', hl', hsub'⟩ := hperm.subperm_left.mpr hsub.subperm
  rw [← hl'.length_eq]
  refine Greedy.length_le_fill (fun sess hsess => ?_) ?_ hsub' ?_
  · have hpos := h.pos sess (mem_hungOn.mp (mem_sortedByTokens.mp hsess)).1
    unfold need
    omega
  · refine (List.pairwise_insertionSort (fun a b : SessionInfo ι κ => a.totalTokens ≤ b.totalTokens)
      _).imp fun hle => ?_
    exact Int.add_le_add_right hle _
  · rw [(hl'.map _).sum_eq]
    exact hfits

end Pinned

/-! #### Anywhere -/

/-- The loop that places sessions, without the test that stops it early. -/
def placeAll (sched : ThunderAgentScheduler) :
    List (SessionInfo ι κ) → List (ι × Int) → List (SessionInfo ι κ × ι)
  | [], _ => []
  | _, [] => []
  | sess :: resumable, (instanceId, maxCap) :: caps =>
      if sched.need sess > maxCap then placeAll sched resumable ((instanceId, maxCap) :: caps)
      else (sess, instanceId) ::
        placeAll sched resumable (sched.capsAfter instanceId (maxCap - sched.need sess) caps)

omit [DecidableEq ι] in
theorem placeAll_eq_nil {maxCap : Int} (h : ∀ sess ∈ l, maxCap < sched.need sess) :
    sched.placeAll l ((i, maxCap) :: caps) = [] := by
  induction l with
  | nil => rfl
  | cons sess l ih =>
      unfold placeAll
      rw [if_pos (h sess List.mem_cons_self)]
      exact ih fun sess' hsess' => h sess' (List.mem_cons_of_mem _ hsess')

omit [DecidableEq ι] in
/-- When not even the smallest need fits, no session is placed any more. -/
theorem place_eq_placeAll (h : ∀ sess ∈ l, minNeed ≤ sched.need sess) :
    sched.place minNeed l caps = sched.placeAll l caps := by
  induction l generalizing caps with
  | nil => rfl
  | cons sess l ih =>
      have hrest := fun sess' hsess' => h sess' (List.mem_cons_of_mem sess hsess')
      cases caps with
      | nil => rfl
      | cons row caps =>
          obtain ⟨i, maxCap⟩ := row
          by_cases hstop : minNeed > maxCap
          · rw [placeAll_eq_nil fun sess' hsess' => lt_of_lt_of_le hstop (h sess' hsess')]
            unfold place
            rw [if_pos hstop]
          · unfold place placeAll
            rw [if_neg hstop]
            split
            · exact ih hrest
            · rw [ih hrest]

omit [DecidableEq ι] in
theorem placeAll_sublist : ((sched.placeAll l caps).map Prod.fst).Sublist l := by
  induction l generalizing caps with
  | nil => exact List.nil_sublist _
  | cons sess l ih =>
      cases caps with
      | nil => exact List.nil_sublist _
      | cons row caps =>
          unfold placeAll
          split
          · exact ih.cons sess
          · exact ih.cons_cons sess

omit [DecidableEq ι] in
theorem sortCaps_perm : (sortCaps caps).Perm caps := List.perm_insertionSort _ _

omit [DecidableEq ι] in
theorem capsAfter_subset {cap : Int} {row : ι × Int} (h : row ∈ sched.capsAfter i cap caps) :
    row ∈ (i, cap) :: caps := by
  unfold capsAfter at h
  split at h
  · exact sortCaps_perm.mem_iff.mp h
  · exact List.mem_cons_of_mem _ h

omit [DecidableEq ι] in
theorem mem_placeAll {p : SessionInfo ι κ × ι} (h : p ∈ sched.placeAll l caps) :
    p.2 ∈ caps.map Prod.fst := by
  induction l generalizing caps with
  | nil => cases h
  | cons sess l ih =>
      cases caps with
      | nil => cases h
      | cons row caps =>
          unfold placeAll at h
          split at h
          · exact ih h
          · rcases List.mem_cons.mp h with rfl | h
            · exact List.mem_cons_self
            · obtain ⟨row', hrow', heq⟩ := List.mem_map.mp (ih h)
              rw [← heq]
              rcases List.mem_cons.mp (capsAfter_subset hrow') with rfl | hmem
              · exact List.mem_cons_self
              · exact List.mem_cons_of_mem _ (List.mem_map_of_mem hmem)

/-- The capacity in the rows of an instance. -/
def capOf (caps : List (ι × Int)) (i : ι) : Int := ((caps.filter (·.1 = i)).map Prod.snd).sum

theorem capOf_cons (j : ι) (cap : Int) :
    capOf ((j, cap) :: caps) i = (if j = i then cap else 0) + capOf caps i := by
  unfold capOf
  by_cases hij : j = i <;> simp [hij]

theorem capOf_perm {caps' : List (ι × Int)} (h : caps.Perm caps') : capOf caps i = capOf caps' i :=
  ((h.filter _).map _).sum_eq

/-- A row that is dropped loses capacity. -/
theorem capOf_capsAfter_le {j : ι} {cap : Int} (hcap : 0 ≤ cap) :
    capOf (sched.capsAfter j cap caps) i ≤ capOf ((j, cap) :: caps) i := by
  unfold capsAfter
  split
  · exact (capOf_perm sortCaps_perm).le
  · rw [capOf_cons]
    split <;> omega

/-- What is placed on an instance fits into its rows. -/
theorem sum_placeAll_le (hcaps : ∀ row ∈ caps, 0 ≤ row.2) :
    ((placedOn (sched.placeAll l caps) i).map sched.need).sum ≤ capOf caps i := by
  have hnonneg : 0 ≤ capOf caps i := by
    refine List.sum_nonneg fun x hx => ?_
    obtain ⟨row, hrow, rfl⟩ := List.mem_map.mp hx
    exact hcaps row (List.mem_filter.mp hrow).1
  induction l generalizing caps with
  | nil => exact hnonneg
  | cons sess l ih =>
      cases caps with
      | nil => exact hnonneg
      | cons row caps =>
          obtain ⟨j, maxCap⟩ := row
          unfold placeAll
          split
          · exact ih hcaps hnonneg
          · rename_i hfits
            have hcap : 0 ≤ maxCap - sched.need sess := by omega
            have hafter : ∀ row ∈ sched.capsAfter j (maxCap - sched.need sess) caps, 0 ≤ row.2 := by
              intro row hrow
              rcases List.mem_cons.mp (capsAfter_subset hrow) with rfl | hrow
              · exact hcap
              · exact hcaps row (List.mem_cons_of_mem _ hrow)
            have hrest := ih hafter (List.sum_nonneg fun x hx => by
              obtain ⟨row, hrow, rfl⟩ := List.mem_map.mp hx
              exact hafter row (List.mem_filter.mp hrow).1)
            have hless : capOf (sched.capsAfter j (maxCap - sched.need sess) caps) i ≤ _ :=
              capOf_capsAfter_le hcap
            rw [capOf_cons] at hless ⊢
            rw [placedOn_cons]
            split
            · rename_i hij
              rw [if_pos hij] at hless
              rw [List.map_cons, List.sum_cons]
              omega
            · rename_i hij
              rw [if_neg hij] at hless
              omega

omit [DecidableEq ι] in
/-- If some session fits the first row, one is placed. -/
theorem placeAll_ne_nil {maxCap : Int} (hsess : sess ∈ l) (hfits : sched.need sess ≤ maxCap) :
    sched.placeAll l ((i, maxCap) :: caps) ≠ [] := by
  intro hnil
  induction l with
  | nil => cases hsess
  | cons first l ih =>
      unfold placeAll at hnil
      split at hnil
      · rename_i hover
        rcases List.mem_cons.mp hsess with rfl | hsess
        · exact absurd hfits (not_le.mpr hover)
        · exact ih hsess hnil
      · cases hnil

omit [DecidableEq ι] in
theorem selectResumable_eq (totalCapacity cumulative : Int) :
    sched.selectResumable totalCapacity cumulative l =
      Greedy.fill sched.need (totalCapacity - cumulative) l := by
  induction l generalizing cumulative with
  | nil => rfl
  | cons sess l ih =>
      unfold selectResumable Greedy.fill
      rw [ih, ih, Int.sub_sub]
      by_cases hfits : cumulative + sched.need sess ≤ totalCapacity
      · rw [if_pos hfits, if_pos (by omega)]
      · rw [if_neg hfits, if_neg (by omega)]

omit [DecidableEq ι] in
/-- The last session to place is a smallest one. -/
theorem need_last_le {smallest : SessionInfo ι κ}
    (hlast : (sched.resumable H R).getLast? = some smallest) :
    ∀ sess ∈ sched.resumable H R, sched.need smallest ≤ sched.need sess := by
  have hsorted : (sched.resumable H R).Pairwise fun a b => -a.totalTokens ≤ -b.totalTokens :=
    List.pairwise_insertionSort _ _
  obtain ⟨before, heq⟩ := List.getLast?_eq_some_iff.mp hlast
  rw [heq] at hsorted ⊢
  intro sess hsess
  unfold need
  rcases List.mem_append.mp hsess with hsess | hsess
  · have := (List.pairwise_append.mp hsorted).2.2 sess hsess smallest (List.mem_singleton_self _)
    omega
  · rw [List.mem_singleton.mp hsess]

omit [DecidableEq ι] in
/-- Stopping early makes no difference. -/
theorem continueGlobalBfd_eq :
    sched.continueGlobalBfd H R = sched.bfd (fun _ => sched.placeAll) H R := by
  unfold continueGlobalBfd bfd
  dsimp only
  split
  · rfl
  · split
    · rfl
    · rename_i smallest hlast
      exact place_eq_placeAll (need_last_le hlast)

omit [DecidableEq ι] in
/-- What is placed comes from the loop over the resumable sessions. -/
theorem bfd_cases (sched : ThunderAgentScheduler) (H : Dict ι (List (SessionInfo ι κ)))
    (R : Dict ι Int) : sched.continueGlobalBfd H R = [] ∨ sched.continueGlobalBfd H R =
    sched.placeAll (sched.resumable H R) (sortCaps (sched.roomyRows R)) := by
  rw [continueGlobalBfd_eq]
  unfold bfd
  dsimp only
  split
  · exact .inl rfl
  · split
    · exact .inl rfl
    · exact .inr rfl

omit [DecidableEq ι] in
theorem resumable_perm : (sched.resumable H R).Perm
    (Greedy.fill sched.need ((sched.roomyRows R).map Prod.snd).sum
      (sortedByTokens (H.items.flatMap Prod.snd))) := by
  unfold resumable
  dsimp only
  rw [selectResumable_eq, Int.sub_zero]
  exact List.perm_insertionSort _ _

theorem mem_allHung (h : AfterHang known sessions H R) :
    sess ∈ H.items.flatMap Prod.snd ↔ ∃ i ∈ known, sess ∈ hungOn sessions i := by
  rw [List.mem_flatMap]
  constructor
  · rintro ⟨⟨i, hung⟩, hitem, hsess⟩
    exact ⟨i, h.mem_group (Dict.get?_eq_some_iff.mpr hitem) hsess⟩
  · rintro ⟨i, hknown, hsess⟩
    exact ⟨(i, hungOn sessions i), Dict.get?_eq_some_iff.mp (h.get?_group hknown hsess), hsess⟩

theorem nodup_allHung (h : AfterHang known sessions H R) : (H.items.flatMap Prod.snd).Nodup := by
  refine Dict.nodup_flatMap_items_of (fun sess i => sess.instanceId = some i) ?_ ?_ ?_
  · intro sess i j hi hj
    exact Option.some.inj (hi.symm.trans hj)
  · intro item hitem
    exact h.nodup_group (Dict.get?_eq_some_iff.mpr hitem)
  · intro item hitem sess hsess
    exact (mem_hungOn.mp (h.mem_group (Dict.get?_eq_some_iff.mpr hitem) hsess).2).2.1

theorem nodup_resumable (h : AfterHang known sessions H R) : (sched.resumable H R).Nodup := by
  refine resumable_perm.nodup_iff.mpr (List.Nodup.sublist (Greedy.fill_sublist _ _) ?_)
  exact (List.perm_insertionSort _ _).nodup_iff.mpr (nodup_allHung h)

theorem mem_of_mem_resumable (h : AfterHang known sessions H R)
    (hsess : sess ∈ sched.resumable H R) :
    ∃ i ∈ known, sess ∈ hungOn sessions i := by
  have hfill := resumable_perm.mem_iff.mp hsess
  exact (mem_allHung h).mp (mem_sortedByTokens.mp ((Greedy.fill_sublist _ _).subset hfill))

theorem capOf_roomyRows_le (hremaining : R.get? i = some remaining) (hnonneg : 0 ≤ remaining) :
    capOf (sched.roomyRows R) i ≤ remaining := by
  have hitems : ∀ row ∈ (sched.roomyRows R).filter (·.1 = i), row = (i, remaining) := by
    rintro ⟨j, cap⟩ hrow
    obtain ⟨hroomy, hij⟩ := List.mem_filter.mp hrow
    obtain rfl : j = i := of_decide_eq_true hij
    have hget := Dict.get?_eq_some_iff.mpr (List.mem_filter.mp hroomy).1
    rw [hremaining] at hget
    cases hget
    rfl
  have hnodup : ((sched.roomyRows R).filter (·.1 = i)).Nodup := by
    refine (List.Nodup.of_map Prod.fst R.nodup_keys).sublist ?_
    exact List.filter_sublist.trans List.filter_sublist
  unfold capOf
  match hrows : (sched.roomyRows R).filter (·.1 = i) with
  | [] =>
      rw [hrows]
      exact hnonneg
  | [row] =>
      rw [hrows] at hitems ⊢
      rw [hitems row List.mem_cons_self]
      simp
  | row :: row' :: rows =>
      rw [hrows] at hitems hnodup
      have heq : row = row' := (hitems row List.mem_cons_self).trans
        (hitems row' (List.mem_cons_of_mem _ List.mem_cons_self)).symm
      exact absurd (heq ▸ List.mem_cons_self) (List.nodup_cons.mp hnodup).1

theorem readmits_continueGlobalBfd (h : AfterHang known sessions H R) :
    Readmits sched known sessions R (sched.continueGlobalBfd H R) := by
  rcases bfd_cases sched H R with hnil | hplace
  · rw [hnil]
    exact ⟨List.nodup_nil, nofun, fun i remaining hremaining => h.nonneg i remaining hremaining⟩
  · rw [hplace]
    refine ⟨(nodup_resumable h).sublist placeAll_sublist, fun p hp => ⟨?_, ?_⟩,
      fun i remaining hremaining => ?_⟩
    · obtain ⟨row, hrow, heq⟩ := List.mem_map.mp (mem_placeAll hp)
      have hitem := (List.mem_filter.mp (sortCaps_perm.mem_iff.mp hrow)).1
      exact heq ▸ (h.remaining row.1).mpr ⟨row.2, Dict.get?_eq_some_iff.mpr hitem⟩
    · exact mem_of_mem_resumable h (placeAll_sublist.subset (List.mem_map_of_mem hp))
    · have hcaps : ∀ row ∈ sortCaps (sched.roomyRows R), 0 ≤ row.2 := by
        intro row hrow
        have hitem := (List.mem_filter.mp (sortCaps_perm.mem_iff.mp hrow)).1
        exact h.nonneg row.1 row.2 (Dict.get?_eq_some_iff.mpr hitem)
      refine (sum_placeAll_le hcaps).trans ?_
      rw [capOf_perm sortCaps_perm]
      exact capOf_roomyRows_le hremaining (h.nonneg i remaining hremaining)

/-- If some hung session fits somewhere, one is placed: a smallest one fits the total capacity, and
the first row. -/
theorem continueGlobalBfd_ne_nil (h : AfterHang known sessions H R)
    (hbuffer : 0 ≤ sched.bufferPerSession) (hknown : i ∈ known) (hsess : sess ∈ hungOn sessions i)
    {j : ι} (hremaining : R.get? j = some remaining) (hfits : sched.need sess ≤ remaining) :
    sched.continueGlobalBfd H R ≠ [] := by
  have hpos := h.pos sess (mem_hungOn.mp hsess).1
  have hroom : sched.bufferPerSession < remaining := by
    unfold need at hfits
    omega
  have hrow : (j, remaining) ∈ sched.roomyRows R :=
    List.mem_filter.mpr ⟨Dict.get?_eq_some_iff.mp hremaining, decide_eq_true hroom⟩
  -- the total capacity is at least that of one row
  have htotal : remaining ≤ ((sched.roomyRows R).map Prod.snd).sum := by
    refine List.single_le_sum (fun x hx => ?_) _ (List.mem_map_of_mem hrow)
    obtain ⟨row, hmem, rfl⟩ := List.mem_map.mp hx
    have := of_decide_eq_true (List.mem_filter.mp hmem).2
    omega
  -- a smallest session
  obtain ⟨first, rest, hsorted⟩ := List.exists_cons_of_ne_nil
    (List.ne_nil_of_mem (mem_sortedByTokens.mpr ((mem_allHung h).mpr ⟨i, hknown, hsess⟩)))
  have hleast : sched.need first ≤ sched.need sess := by
    have hpairwise : (sortedByTokens (H.items.flatMap Prod.snd)).Pairwise
        fun a b => a.totalTokens ≤ b.totalTokens := List.pairwise_insertionSort _ _
    have hmem := mem_sortedByTokens.mpr ((mem_allHung h).mpr ⟨i, hknown, hsess⟩)
    rw [hsorted] at hpairwise hmem
    unfold need
    rcases List.mem_cons.mp hmem with rfl | hmem
    · exact le_rfl
    · exact Int.add_le_add_right ((List.pairwise_cons.mp hpairwise).1 sess hmem) _
  have hfirst : first ∈ sched.resumable H R := by
    rw [resumable_perm.mem_iff, hsorted]
    exact Greedy.head_mem_fill (by omega)
  -- a largest row
  obtain ⟨⟨k, maxCap⟩, caps, hcaps⟩ := List.exists_cons_of_ne_nil
    (List.ne_nil_of_mem (sortCaps_perm.mem_iff.mpr hrow))
  have hlargest : remaining ≤ maxCap := by
    have hpairwise : (sortCaps (sched.roomyRows R)).Pairwise fun a b => -a.2 ≤ -b.2 :=
      List.pairwise_insertionSort _ _
    have hmem := sortCaps_perm.mem_iff.mpr hrow
    rw [hcaps] at hpairwise hmem
    rcases List.mem_cons.mp hmem with heq | hmem
    · cases heq
      exact le_rfl
    · exact Int.neg_le_neg_iff.mp ((List.pairwise_cons.mp hpairwise).1 _ hmem)
  rw [continueGlobalBfd_eq]
  unfold bfd
  dsimp only
  rw [if_neg]
  · split
    · rename_i hnone
      exact absurd (List.getLast?_eq_none_iff.mp hnone) (List.ne_nil_of_mem hfirst)
    · rw [hcaps]
      exact placeAll_ne_nil hfirst (by omega)
  · rintro (hnil | hle)
    · exact List.ne_nil_of_mem hrow hnil
    · omega

/-! ### Decisions -/

variable [DecidableEq κ]

/-- The remaining capacity of an instance when some of its sessions are hung. -/
def remainingAfter (sched : ThunderAgentScheduler) (sessions : List (SessionInfo ι κ))
    (inst : InstanceCapacity ι) (hung : List (SessionInfo ι κ)) : Int :=
  sched.remainingCapacity inst (runningOn sessions inst.instanceId) (hung.map (·.sessionId))

/-- The sessions that are to continue on an instance. -/
def continuedOn (sessions : List (SessionInfo ι κ)) (toContinue : List (κ × ι)) (i : ι) :
    List (SessionInfo ι κ) :=
  sessions.filter fun sess => (sess.sessionId, i) ∈ toContinue

/-- What a decision has to be, with the sessions that are hung on each instance. -/
structure Decides (sched : ThunderAgentScheduler) (instances : List (InstanceCapacity ι))
    (sessions : List (SessionInfo ι κ)) (toHang : List κ) (toContinue : List (κ × ι))
    (hung : InstanceCapacity ι → List (SessionInfo ι κ)) : Prop where
  hung_eq : toHang = instances.flatMap fun inst => (hung inst).map (·.sessionId)
  /-- An initial part of the hang order is hung. -/
  initial : ∀ inst ∈ instances, hung inst <+: hangOrder (runningOn sessions inst.instanceId)
  nonneg : ∀ inst ∈ instances, 0 ≤ sched.remainingAfter sessions inst (hung inst)
  shortest : ∀ inst ∈ instances, ∀ l, l <+: hangOrder (runningOn sessions inst.instanceId) →
    l.length < (hung inst).length → sched.remainingAfter sessions inst l < 0
  nodup : (toHang ++ toContinue.map Prod.fst).Nodup
  /-- Hung sessions of known instances continue, on known instances. -/
  continues : ∀ p ∈ toContinue, (∃ inst ∈ instances, inst.instanceId = p.2) ∧
    ∃ inst ∈ instances, ∃ sess ∈ hungOn sessions inst.instanceId, sess.sessionId = p.1
  fits : ∀ inst ∈ instances,
    ((continuedOn sessions toContinue inst.instanceId).map sched.need).sum ≤
      sched.remainingAfter sessions inst (hung inst)
  /-- On its own instance. -/
  sticky : sched.globalScope = false → ∀ p ∈ toContinue,
    ∃ sess ∈ hungOn sessions p.2, sess.sessionId = p.1
  /-- As many as possible. -/
  most : sched.globalScope = false → ∀ inst ∈ instances, ∀ l : List (SessionInfo ι κ),
    l.Sublist (hungOn sessions inst.instanceId) →
    (l.map sched.need).sum ≤ sched.remainingAfter sessions inst (hung inst) →
    l.length ≤ (continuedOn sessions toContinue inst.instanceId).length
  /-- At least one if possible. -/
  some_fits : sched.globalScope = true → ∀ inst ∈ instances,
    ∀ sess ∈ hungOn sessions inst.instanceId, ∀ target ∈ instances,
    sched.need sess ≤ sched.remainingAfter sessions target (hung target) → toContinue ≠ []
  /-- Trying all sessions gives the same. -/
  tried_all : sched.globalScope = true → toContinue =
    (sched.bfd (fun _ => sched.placeAll) (groupSessions instances sessions).hung
      (sched.hangPhase instances (groupSessions instances sessions).running).2).map
      fun p => (p.1.sessionId, p.2)

section Decisions

variable {instances : List (InstanceCapacity ι)} {placed : List (SessionInfo ι κ × ι)}

/-- The ids tell which sessions continue on an instance. -/
theorem continuedOn_perm (hsess : (sessions.map (·.sessionId)).Nodup)
    (hplaced : ∀ p ∈ placed, p.1 ∈ sessions) (hnodup : (placed.map Prod.fst).Nodup) :
    (continuedOn sessions (placed.map fun p => (p.1.sessionId, p.2)) i).Perm
      (placedOn placed i) := by
  refine (List.perm_ext_iff_of_nodup ?_ ?_).mpr fun sess => ?_
  · exact (List.Nodup.of_map _ hsess).filter _
  · exact hnodup.sublist (List.filter_sublist.map Prod.fst)
  · rw [mem_placedOn]
    unfold continuedOn
    rw [List.mem_filter, decide_eq_true_iff, List.mem_map]
    constructor
    · rintro ⟨hmem, ⟨sess', j⟩, hp, heq⟩
      obtain ⟨hid, rfl⟩ := Prod.mk.inj heq
      have hsame : sess' = sess := List.inj_on_of_nodup_map hsess (hplaced _ hp) hmem hid
      rwa [hsame] at hp
    · intro hp
      exact ⟨hplaced _ hp, (sess, i), hp, rfl⟩

omit [DecidableEq κ] in
/-- Sessions are hung on one instance only. -/
theorem nodup_flatMap_hung {hung : InstanceCapacity ι → List (SessionInfo ι κ)}
    (hids : (instances.map (·.instanceId)).Nodup) (hsessions : sessions.Nodup)
    (hinit : ∀ inst ∈ instances, hung inst <+: hangOrder (runningOn sessions inst.instanceId)) :
    (instances.flatMap hung).Nodup ∧ ∀ sess ∈ instances.flatMap hung,
      sess ∈ sessions ∧ sess.hangState ≠ .hung := by
  have hmem : ∀ inst ∈ instances, ∀ sess ∈ hung inst,
      sess ∈ runningOn sessions inst.instanceId := fun inst hinst sess hsess =>
    hangOrder_perm.mem_iff.mp ((hinit inst hinst).subset hsess)
  constructor
  · rw [List.nodup_flatMap]
    constructor
    · intro inst hinst
      refine List.Nodup.sublist (hinit inst hinst).sublist ?_
      exact hangOrder_perm.nodup_iff.mpr (hsessions.filter _)
    · refine List.Pairwise.imp_of_mem (fun hinst hother hne => ?_) (List.pairwise_map.mp hids)
      intro sess hsess hsess'
      have hown := (mem_runningOn.mp (hmem _ hinst sess hsess)).2.1
      have hown' := (mem_runningOn.mp (hmem _ hother sess hsess')).2.1
      exact hne (Option.some.inj (hown.symm.trans hown'))
  · intro sess hsess
    obtain ⟨inst, hinst, hsess⟩ := List.mem_flatMap.mp hsess
    have hrunning := mem_runningOn.mp (hmem inst hinst sess hsess)
    exact ⟨hrunning.1, hrunning.2.2⟩

/-- The hang phase: on each instance a shortest part of the hang order is hung. -/
theorem exists_hung (sched : ThunderAgentScheduler) (sessions : List (SessionInfo ι κ))
    (hids : (instances.map (·.instanceId)).Nodup)
    (htotal : ∀ inst ∈ instances, 0 ≤ inst.totalKvTokens) :
    ∃ hung : InstanceCapacity ι → List (SessionInfo ι κ),
      (sched.decide instances sessions).1 =
        (instances.flatMap fun inst => (hung inst).map (·.sessionId)) ∧
      ∀ inst ∈ instances,
        hung inst <+: hangOrder (runningOn sessions inst.instanceId) ∧
        0 ≤ sched.remainingAfter sessions inst (hung inst) ∧
        (∀ l, l <+: hangOrder (runningOn sessions inst.instanceId) →
          l.length < (hung inst).length → sched.remainingAfter sessions inst l < 0) ∧
        (sched.hangPhase instances (groupSessions instances sessions).running).2.get?
          inst.instanceId = some (sched.remainingAfter sessions inst (hung inst)) := by
  have hrunning : ∀ inst ∈ instances,
      ((groupSessions instances sessions).running.get? inst.instanceId).getD [] =
        runningOn sessions inst.instanceId := by
    intro inst hinst
    rw [(groupSessions_eq instances sessions inst.instanceId).1,
      if_pos (List.mem_map_of_mem hinst)]
  have hspec : ∀ inst : InstanceCapacity ι, ∃ hung, inst ∈ instances →
      hung <+: hangOrder (runningOn sessions inst.instanceId) ∧
      sched.hangOn inst (runningOn sessions inst.instanceId) = (hung.map (·.sessionId),
        sched.remainingAfter sessions inst hung) ∧
      0 ≤ sched.remainingAfter sessions inst hung ∧
      ∀ l, l <+: hangOrder (runningOn sessions inst.instanceId) → l.length < hung.length →
        sched.remainingAfter sessions inst l < 0 := by
    intro inst
    by_cases hinst : inst ∈ instances
    · obtain ⟨hung, h⟩ := hangOn_eq sched (runningOn sessions inst.instanceId) (htotal inst hinst)
      exact ⟨hung, fun _ => h⟩
    · exact ⟨[], fun h => absurd h hinst⟩
  choose hung hhung using hspec
  obtain ⟨htoHang, hremaining, -⟩ :=
    hangPhase_eq sched (groupSessions instances sessions).running hids
  refine ⟨hung, htoHang.trans ?_, fun inst hinst => ?_⟩
  · refine List.flatMap_congr fun inst hinst => ?_
    rw [hrunning inst hinst, (hhung inst hinst).2.1]
  · obtain ⟨hinit, heq, hnonneg, hshorter⟩ := hhung inst hinst
    refine ⟨hinit, hnonneg, hshorter, ?_⟩
    rw [hremaining inst hinst, hrunning inst hinst, heq]

/-- What the continue phase starts from. -/
theorem afterHang (sched : ThunderAgentScheduler)
    (hids : (instances.map (·.instanceId)).Nodup)
    (htotal : ∀ inst ∈ instances, 0 ≤ inst.totalKvTokens) (hsessions : sessions.Nodup)
    (hpos : ∀ sess ∈ sessions, 0 < sess.totalTokens) :
    AfterHang (instances.map (·.instanceId)) sessions (groupSessions instances sessions).hung
      (sched.hangPhase instances (groupSessions instances sessions).running).2 := by
  obtain ⟨hung, -, hhung⟩ := exists_hung sched sessions hids htotal
  obtain ⟨-, -, hunknown⟩ :=
    hangPhase_eq sched (groupSessions instances sessions).running hids
  have hknown : ∀ i remaining,
      (sched.hangPhase instances (groupSessions instances sessions).running).2.get? i =
        some remaining → ∃ inst ∈ instances, inst.instanceId = i := by
    intro i remaining hget
    by_contra hnone
    rw [hunknown i fun hmem => hnone (List.mem_map.mp hmem)] at hget
    cases hget
  refine ⟨fun i => (groupSessions_eq instances sessions i).2, fun i => ⟨fun hi => ?_, ?_⟩,
    fun i remaining hget => ?_, hsessions, hpos⟩
  · obtain ⟨inst, hinst, rfl⟩ := List.mem_map.mp hi
    exact ⟨_, (hhung inst hinst).2.2.2⟩
  · rintro ⟨remaining, hget⟩
    exact List.mem_map.mpr (hknown i remaining hget)
  · obtain ⟨inst, hinst, rfl⟩ := hknown i remaining hget
    obtain ⟨-, hnonneg, -, hremaining⟩ := hhung inst hinst
    rw [hremaining] at hget
    cases hget
    exact hnonneg

/-- `decide` hangs as few sessions as its order allows, and continues as much as fits. -/
theorem decide_decides (sched : ThunderAgentScheduler) (hbuffer : 0 ≤ sched.bufferPerSession)
    (instances : List (InstanceCapacity ι)) (sessions : List (SessionInfo ι κ))
    (hids : (instances.map (·.instanceId)).Nodup)
    (htotal : ∀ inst ∈ instances, 0 ≤ inst.totalKvTokens)
    (hsess : (sessions.map (·.sessionId)).Nodup) (hpos : ∀ sess ∈ sessions, 0 < sess.totalTokens) :
    ∃ hung, sched.Decides instances sessions (sched.decide instances sessions).1
      (sched.decide instances sessions).2 hung := by
  have hsessions : sessions.Nodup := List.Nodup.of_map _ hsess
  obtain ⟨hung, htoHang, hhung⟩ := exists_hung sched sessions hids htotal
  have hafter := afterHang sched hids htotal hsessions hpos
  generalize hG : (groupSessions instances sessions).hung = groups at hafter
  generalize hR : (sched.hangPhase instances (groupSessions instances sessions).running).2 = R
    at hafter hhung
  obtain ⟨placed, hplaced⟩ : ∃ placed, placed = if sched.globalScope
    then sched.continueGlobalBfd groups R else sched.continuePinned groups R := ⟨_, rfl⟩
  have htoContinue : (sched.decide instances sessions).2 =
      placed.map fun p => (p.1.sessionId, p.2) := by
    rw [hplaced, ← hG, ← hR]
    rfl
  have hreadmits : Readmits sched (instances.map (·.instanceId)) sessions R placed := by
    rw [hplaced]
    split
    · exact readmits_continueGlobalBfd hafter
    · exact readmits_continuePinned hafter
  have hmem : ∀ p ∈ placed, p.1 ∈ sessions ∧ p.1.hangState = .hung := by
    intro p hp
    obtain ⟨-, i, -, hin⟩ := hreadmits.hung p hp
    exact ⟨(mem_hungOn.mp hin).1, (mem_hungOn.mp hin).2.2⟩
  have hperm : ∀ i, (continuedOn sessions (placed.map fun p => (p.1.sessionId, p.2)) i).Perm
      (placedOn placed i) := fun i =>
    continuedOn_perm hsess (fun p hp => (hmem p hp).1) hreadmits.nodup
  obtain ⟨hnodup, hrunning⟩ :=
    nodup_flatMap_hung hids hsessions fun inst hinst => (hhung inst hinst).1
  rw [htoContinue]
  refine ⟨hung, htoHang, fun inst hinst => (hhung inst hinst).1,
    fun inst hinst => (hhung inst hinst).2.1, fun inst hinst => (hhung inst hinst).2.2.1, ?_, ?_,
    ?_, ?_, ?_, ?_, ?_⟩
  case refine_1 =>
    have hids : (sched.decide instances sessions).1 ++
        (placed.map fun p => (p.1.sessionId, p.2)).map Prod.fst =
        (instances.flatMap hung ++ placed.map Prod.fst).map (·.sessionId) := by
      rw [htoHang, List.map_append, List.map_flatMap, List.map_map, List.map_map]
      rfl
    rw [hids]
    refine List.Nodup.map_on (fun sess hs sess' hs' heq => ?_) ?_
    · have hin : ∀ sess ∈ instances.flatMap hung ++ placed.map Prod.fst, sess ∈ sessions := by
        intro sess hs
        rcases List.mem_append.mp hs with hs | hs
        · exact (hrunning sess hs).1
        · obtain ⟨p, hp, rfl⟩ := List.mem_map.mp hs
          exact (hmem p hp).1
      exact List.inj_on_of_nodup_map hsess (hin sess hs) (hin sess' hs') heq
    · refine hnodup.append hreadmits.nodup fun sess hs hs' => ?_
      obtain ⟨p, hp, rfl⟩ := List.mem_map.mp hs'
      exact (hrunning p.1 hs).2 (hmem p hp).2
  case refine_2 =>
    intro p hp
    obtain ⟨q, hq, rfl⟩ := List.mem_map.mp hp
    obtain ⟨htarget, i, hi, hin⟩ := hreadmits.hung q hq
    obtain ⟨inst, hinst, rfl⟩ := List.mem_map.mp hi
    exact ⟨List.mem_map.mp htarget, inst, hinst, q.1, hin, rfl⟩
  case refine_3 =>
    intro inst hinst
    rw [((hperm _).map _).sum_eq]
    exact hreadmits.fits _ _ (hhung inst hinst).2.2.2
  case refine_4 =>
    intro hscope p hp
    rw [hscope, if_neg Bool.false_ne_true] at hplaced
    obtain ⟨⟨sess, i⟩, hq, rfl⟩ := List.mem_map.mp hp
    rw [hplaced] at hq
    obtain ⟨remaining, -, hfill⟩ := (mem_continuePinned hafter).mp hq
    exact ⟨sess, mem_sortedByTokens.mp ((Greedy.fill_sublist _ _).subset hfill), rfl⟩
  case refine_5 =>
    intro hscope inst hinst l hsub hfits
    rw [hscope, if_neg Bool.false_ne_true] at hplaced
    rw [(hperm _).length_eq, hplaced]
    exact length_le_continuePinned hafter hbuffer (hhung inst hinst).2.2.2 hsub hfits
  case refine_6 =>
    intro hscope inst hinst sess hin target htarget hfits
    rw [hscope, if_pos rfl] at hplaced
    rw [hplaced]
    exact fun hnil => continueGlobalBfd_ne_nil hafter hbuffer (List.mem_map_of_mem hinst) hin
      (hhung target htarget).2.2.2 hfits (List.map_eq_nil_iff.mp hnil)
  case refine_7 =>
    intro hscope
    rw [hscope, if_pos rfl] at hplaced
    rw [hplaced, continueGlobalBfd_eq, hG, hR]

/-- Two instances: the first one sheds a session, and has room for a smaller one then. -/
def tightInstances : List (InstanceCapacity Nat) := [⟨0, 12, 9⟩, ⟨1, 6, 0⟩]

def waitingSessions : List (SessionInfo Nat Nat) :=
  [⟨0, some 0, .env, .running, 6⟩, ⟨1, some 0, .generate, .running, 5⟩,
    ⟨2, some 0, .generate, .hung, 2⟩, ⟨3, some 1, .env, .hung, 4⟩, ⟨4, some 1, .env, .hung, 3⟩]

theorem decide_decides_waiting :
    (∃ hung, Decides ⟨3 / 2, 2, false⟩ tightInstances waitingSessions [0] [(2, 0), (4, 1)] hung) ∧
    ∃ hung, Decides ⟨3 / 2, 2, true⟩ tightInstances waitingSessions [0] [(4, 1), (2, 0)] hung := by
  have hsticky : ThunderAgentScheduler.decide ⟨3 / 2, 2, false⟩ tightInstances waitingSessions =
      ([0], [(2, 0), (4, 1)]) := by decide +kernel
  have hglobal : ThunderAgentScheduler.decide ⟨3 / 2, 2, true⟩ tightInstances waitingSessions =
      ([0], [(4, 1), (2, 0)]) := by decide +kernel
  constructor
  · have h := decide_decides ⟨3 / 2, 2, false⟩ (by decide) tightInstances waitingSessions
      (by decide) (by decide) (by decide) (by decide)
    rwa [hsticky] at h
  · have h := decide_decides ⟨3 / 2, 2, true⟩ (by decide) tightInstances waitingSessions
      (by decide) (by decide) (by decide) (by decide)
    rwa [hglobal] at h

end Decisions

end ThunderAgentScheduler

end Psrl
