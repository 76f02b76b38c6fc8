import Psrl.Manager.PSManager

/-!
# Psrl.Manager.Abort

What `abort_requests` does to the inventory and to the request tracker.

The loop over the prompts only looks at the entry of the prompt it is at, and it changes no
other entry, so each decision can be read off the inventory before the call: a group is
given up (`GivesUp`) if fewer than `alg_rollout_n` of its recorded requests survive. The
entries of these groups are cleared, those of the other groups lose the aborted requests.
`Sound.abortRequests` says when the call returns and what it has done then.
-/

namespace Psrl

open Py

namespace StalenessInventory

variable {inv inv1 inv' : StalenessInventory} {promptId : Nat}

/-! ### Requests leave a group -/

/-- Some entries were rewritten, everything else is as it was. -/
structure Trimmed (inv inv' : StalenessInventory) : Prop where
  consistent : inv'.Consistent
  frame : Frame inv inv'
  cache : inv'.bufferIdsByStatus = inv.bufferIdsByStatus
  index : inv'.dataTracker.get? = inv.dataTracker.get?
  category : ∀ l, (inv'.slot l).category = (inv.slot l).category

theorem Trimmed.refl (hc : inv.Consistent) : Trimmed inv inv :=
  ⟨hc, .refl inv, rfl, rfl, fun _ => rfl⟩

theorem Trimmed.trans (h : Trimmed inv inv1) (h' : Trimmed inv1 inv') : Trimmed inv inv' :=
  ⟨h'.consistent, h.frame.trans h'.frame, h'.cache.trans h.cache, h'.index.trans h.index,
    fun l => (h'.category l).trans (h.category l)⟩

theorem Rewritten.trimmed {loc : Int × Nat} {info info' : EntryInfo} (hc : inv.Consistent)
    (h : Rewritten inv inv' loc info info') : Trimmed inv inv' :=
  ⟨h.consistent hc, h.edit.toFrame, h.edit.cache, h.edit.index, h.category⟩

theorem Trimmed.promptCategory (h : Trimmed inv inv') (q : Nat) :
    inv'.promptCategory q = inv.promptCategory q := by
  unfold StalenessInventory.promptCategory
  simp only [h.index, h.category]

/-- The entries of the other prompts are untouched. -/
theorem Rewritten.entryOf?_of_ne {loc : Int × Nat} {info info' : EntryInfo} (hw : inv.Wf)
    (h : Rewritten inv inv' loc info info') {q : Nat} (hq : q ≠ info.promptId) :
    inv'.entryOf? q = inv.entryOf? q := by
  unfold entryOf?
  rw [h.edit.index]
  refine Option.bind_congr fun l hl => ?_
  have hne : l ≠ loc := by
    rintro rfl
    have hcontent := hw.content_of_tracked hl
    unfold content Entry.promptId? at hcontent
    rw [h.here] at hcontent
    exact hq (Option.some.inj hcontent).symm
  rw [h.edit.slot, Function.update_of_ne hne]

end StalenessInventory

namespace PSManager

open StalenessInventory

variable {m m' : PSManager} {ids : Finset Nat}

/-! ### Grouping by prompt -/

theorem groupByPrompt_get? (n : Nat) (ids : List Nat) (p : Nat) :
    (groupByPrompt n ids).get? p =
      if ∃ id ∈ ids, id / n = p then some ((ids.filter (· / n = p)).map (· % n)) else none := by
  -- the induction carries the groups collected so far
  have key : ∀ (ids : List Nat) (groups : Dict Nat (List Nat)),
      (ids.foldl (fun groups id => groups.set (id / n)
        ((groups.get? (id / n)).getD [] ++ [id % n])) groups).get? p =
      if ∃ id ∈ ids, id / n = p then
        some ((groups.get? p).getD [] ++ (ids.filter (· / n = p)).map (· % n))
      else groups.get? p := by
    intro ids
    induction ids with
    | nil => simp
    | cons id rest ih =>
        intro groups
        rw [List.foldl_cons, ih]
        by_cases hid : id / n = p
        · subst hid
          by_cases hrest : ∃ id' ∈ rest, id' / n = id / n
          · simp [hrest]
          · have hnil : rest.filter (· / n = id / n) = [] :=
              List.filter_eq_nil_iff.mpr fun id' hid' => by
                simpa using fun heq => hrest ⟨id', hid', heq⟩
            simp [hrest, hnil]
        · rw [Dict.get?_set_of_ne _ _ (Ne.symm hid)]
          simp [hid]
  unfold groupByPrompt
  rw [key]
  simp

theorem div_mod_of_request {n p i : Nat} (hi : i < n) :
    (p * n + i) / n = p ∧ (p * n + i) % n = i := by
  constructor
  · rw [Nat.mul_comm, Nat.mul_add_div (by omega), Nat.div_eq_of_lt hi, Nat.add_zero]
  · rw [Nat.mul_comm, Nat.mul_add_mod, Nat.mod_eq_of_lt hi]

/-- The groups collected for a set of requests: each prompt of the set once, with the indices
of its requests. -/
theorem mem_groupByPrompt {n : Nat} {l : List Nat} (hl : ∀ id, id ∈ l ↔ id ∈ ids) {p : Nat}
    {idxs : List Nat} (h : (p, idxs) ∈ (groupByPrompt n l).items) :
    p ∈ ids.image (· / n) ∧ ∀ i < n, (i ∈ idxs ↔ p * n + i ∈ ids) := by
  have hget := Dict.get?_eq_some_iff.mpr h
  rw [groupByPrompt_get?] at hget
  split at hget
  · rename_i hhit
    cases hget
    obtain ⟨id, hid, rfl⟩ := hhit
    refine ⟨Finset.mem_image.mpr ⟨id, (hl id).mp hid, rfl⟩, fun i hi => ?_⟩
    simp only [List.mem_map, List.mem_filter, decide_eq_true_eq, ← hl]
    constructor
    · rintro ⟨id', ⟨hid', hdiv⟩, rfl⟩
      rwa [← hdiv, Nat.div_add_mod']
    · intro hmem
      exact ⟨_, ⟨hmem, (div_mod_of_request hi).1⟩, (div_mod_of_request hi).2⟩
  · cases hget

theorem mem_keys_groupByPrompt {n : Nat} {l : List Nat} (hl : ∀ id, id ∈ l ↔ id ∈ ids) {p : Nat}
    (h : p ∈ ids.image (· / n)) : ∃ idxs, (p, idxs) ∈ (groupByPrompt n l).items := by
  obtain ⟨id, hid, hp⟩ := Finset.mem_image.mp h
  have hget := groupByPrompt_get? n l p
  rw [if_pos ⟨id, (hl id).mpr hid, hp⟩] at hget
  exact ⟨_, Dict.get?_eq_some_iff.mp hget⟩

theorem mem_prompts_groupByPrompt {n : Nat} {l : List Nat} (hl : ∀ id, id ∈ l ↔ id ∈ ids)
    {p : Nat} : p ∈ (groupByPrompt n l).items.map Prod.fst ↔ p ∈ ids.image (· / n) := by
  rw [List.mem_map]
  constructor
  · rintro ⟨x, hx, rfl⟩
    exact (mem_groupByPrompt hl hx).1
  · intro hp
    obtain ⟨idxs, hmem⟩ := mem_keys_groupByPrompt hl hp
    exact ⟨_, hmem, rfl⟩

/-! ### Sound managers -/

/-- The tracker and the training inventory are exact, and the recorded requests of every
group fit the group size. -/
structure Sound (m : PSManager) : Prop where
  positive : 0 < m.rolloutN
  tracker : m.toRequestStatusTracker.Sound
  inventory : m.stalenessInventory.Consistent
  groupSize : m.stalenessInventory.rolloutN = m.rolloutN
  recorded : ∀ info, m.stalenessInventory.Holds info → info.WellRecorded m.rolloutN

/-- The recorded requests of a prompt, as indices of its group. -/
def recorded (m : PSManager) (promptId : Nat) : Finset Nat :=
  match m.stalenessInventory.entryOf? promptId with
  | some info => info.getAllRequestRelativeIds.toFinset
  | none => ∅

/-- The recorded requests of a prompt that are not aborted. -/
def survivors (m : PSManager) (ids : Finset Nat) (promptId : Nat) : Finset Nat :=
  (m.recorded promptId).filter fun i => promptId * m.rolloutN + i ∉ ids

/-- The group has an entry, and too few of its recorded requests survive. -/
def GivesUp (m : PSManager) (abortGroup : Bool) (ids : Finset Nat) (promptId : Nat) : Prop :=
  abortGroup = true ∧ (m.stalenessInventory.entryOf? promptId).isSome = true ∧
    (m.survivors ids promptId).card < m.algRolloutN

instance (m : PSManager) (abortGroup : Bool) (ids : Finset Nat) (promptId : Nat) :
    Decidable (m.GivesUp abortGroup ids promptId) := inferInstanceAs (Decidable (_ ∧ _ ∧ _))

/-- The group is given up, or its requests can be dropped from its entry. -/
def Droppable (m : PSManager) (abortGroup : Bool) (ids : Finset Nat) (promptId : Nat) : Prop :=
  m.GivesUp abortGroup ids promptId ∨
    ∀ info ∈ m.stalenessInventory.entryOf? promptId, info.requestIdx.isList = true

instance (m : PSManager) (abortGroup : Bool) (ids : Finset Nat) (promptId : Nat) :
    Decidable (m.Droppable abortGroup ids promptId) := inferInstanceAs (Decidable (_ ∨ _))

/-- The prompts whose entry an abort clears. -/
def givenUp (m : PSManager) (abortGroup : Bool) (ids : Finset Nat) : Finset Nat :=
  (ids.image (· / m.rolloutN)).filter (m.GivesUp abortGroup ids)

/-- The ids an abort marks: the requests, and the indices of the surviving requests of each
group that is given up. -/
def markedIds (m : PSManager) (abortGroup : Bool) (ids : Finset Nat) : Finset Nat :=
  ids ∪ (m.givenUp abortGroup ids).biUnion (m.survivors ids)

/-- What the loop has done when it has treated the prompts of `done`. -/
structure LoopInv (m : PSManager) (abortGroup : Bool) (ids : Finset Nat) (done : Nat → Prop)
    (state : AbortState) : Prop where
  trimmed : Trimmed m.stalenessInventory state.inventory
  recorded : ∀ info, state.inventory.Holds info → info.WellRecorded m.rolloutN
  untouched : ∀ p, ¬ done p → state.inventory.entryOf? p = m.stalenessInventory.entryOf? p
  marked : ∀ id, id ∈ state.abortRequestIds ↔
    id ∈ ids ∨ ∃ p, done p ∧ m.GivesUp abortGroup ids p ∧ id ∈ m.survivors ids p
  cleared : ∀ p, p ∈ state.clearEntries ↔ done p ∧ m.GivesUp abortGroup ids p

/-- A prompt that is not given up changes at most its own entry. -/
theorem LoopInv.keep {abortGroup : Bool} {done : Nat → Prop} {state : AbortState}
    (hinv : LoopInv m abortGroup ids done state) {p : Nat} {inv' : StalenessInventory}
    (hgive : ¬ m.GivesUp abortGroup ids p) (htrim : Trimmed state.inventory inv')
    (hrec : ∀ info, inv'.Holds info → info.WellRecorded m.rolloutN)
    (hothers : ∀ q, q ≠ p → inv'.entryOf? q = state.inventory.entryOf? q) :
    LoopInv m abortGroup ids (fun q => done q ∨ q = p) { state with inventory := inv' } where
  trimmed := hinv.trimmed.trans htrim
  recorded := hrec
  untouched := fun q hq => by
    rw [not_or] at hq
    rw [hothers q hq.2, hinv.untouched q hq.1]
  marked := fun id => by
    rw [hinv.marked]
    refine or_congr_right ⟨fun ⟨q, hq, h⟩ => ⟨q, .inl hq, h⟩, ?_⟩
    rintro ⟨q, hq | rfl, h⟩
    · exact ⟨q, hq, h⟩
    · exact absurd h.1 hgive
  cleared := fun q => by
    rw [hinv.cleared]
    refine ⟨fun ⟨hq, h⟩ => ⟨.inl hq, h⟩, ?_⟩
    rintro ⟨hq | rfl, h⟩
    · exact ⟨hq, h⟩
    · exact absurd h hgive

/-- A prompt that is given up is only noted. -/
theorem LoopInv.giveUp {abortGroup : Bool} {done : Nat → Prop} {state : AbortState}
    (hinv : LoopInv m abortGroup ids done state) {p : Nat}
    (hgive : m.GivesUp abortGroup ids p) :
    LoopInv m abortGroup ids (fun q => done q ∨ q = p) { state with
      abortRequestIds := state.abortRequestIds ∪ m.survivors ids p
      clearEntries := state.clearEntries ++ [p] } where
  trimmed := hinv.trimmed
  recorded := hinv.recorded
  untouched := fun q hq => hinv.untouched q fun hd => hq (.inl hd)
  marked := fun id => by
    rw [Finset.mem_union, hinv.marked]
    constructor
    · rintro ((hid | ⟨q, hq, h⟩) | hid)
      · exact .inl hid
      · exact .inr ⟨q, .inl hq, h⟩
      · exact .inr ⟨p, .inr rfl, hgive, hid⟩
    · rintro (hid | ⟨q, hq | rfl, h⟩)
      · exact .inl (.inl hid)
      · exact .inl (.inr ⟨q, hq, h⟩)
      · exact .inr h.2
  cleared := fun q => by
    rw [List.mem_append, hinv.cleared, List.mem_singleton]
    constructor
    · rintro (⟨hq, h⟩ | rfl)
      · exact ⟨.inl hq, h⟩
      · exact ⟨.inr rfl, hgive⟩
    · rintro ⟨hq | rfl, h⟩
      · exact .inl ⟨hq, h⟩
      · exact .inr rfl

/-- The requests the loop finds left in a group are its survivors. -/
theorem rest_eq_survivors {p : Nat} {idxs : List Nat} {info : EntryInfo}
    (hentry : m.stalenessInventory.entryOf? p = some info)
    (hrec : info.WellRecorded m.rolloutN)
    (hidxs : ∀ i < m.rolloutN, (i ∈ idxs ↔ p * m.rolloutN + i ∈ ids)) :
    info.getAllRequestRelativeIds.toFinset \ idxs.toFinset = m.survivors ids p := by
  ext i
  unfold survivors PSManager.recorded
  rw [hentry]
  simp only [Finset.mem_sdiff, List.mem_toFinset, Finset.mem_filter]
  exact and_congr_right fun hi => not_congr (hidxs i (hrec.indices i hi))

/-- One prompt of the loop. -/
theorem LoopInv.abortPrompt {abortGroup : Bool} {done : Nat → Prop} {state : AbortState}
    (hinv : LoopInv m abortGroup ids done state) {p : Nat} {idxs : List Nat} (hp : ¬ done p)
    (hidxs : ∀ i < m.rolloutN, (i ∈ idxs ↔ p * m.rolloutN + i ∈ ids)) :
    ((∃ state', abortPrompt m.algRolloutN abortGroup state (p, idxs) = .ok state') ↔
      m.Droppable abortGroup ids p) ∧
    ∀ state', abortPrompt m.algRolloutN abortGroup state (p, idxs) = .ok state' →
      LoopInv m abortGroup ids (fun q => done q ∨ q = p) state' := by
  have hentry := hinv.untouched p hp
  have hc := hinv.trimmed.consistent
  unfold PSManager.abortPrompt
  cases htracked : state.inventory.dataTracker.get? p with
  | none =>
      have hnone : m.stalenessInventory.entryOf? p = none := by
        rw [← hentry]
        unfold entryOf?
        rw [htracked]
        rfl
      simp only [htracked]
      refine ⟨iff_of_true ⟨_, rfl⟩ (.inr (by rw [hnone]; nofun)), fun state' h => ?_⟩
      cases h
      refine hinv.keep (fun hgive => ?_) (.refl hc) hinv.recorded fun _ _ => rfl
      rw [GivesUp, hnone] at hgive
      cases hgive.2.1
  | some loc =>
      obtain ⟨b, e⟩ := loc
      obtain ⟨info, hinfo, hid⟩ := hc.wf.entryInfo_of_tracked htracked
      have hhere : state.inventory.entryOf? p = some info :=
        hc.wf.entryOf?_eq_some.mpr ⟨hid, _, hinfo⟩
      have hwell := hinv.recorded info ⟨_, hinfo⟩
      have hmentry := hentry.symm.trans hhere
      have hcond : abortGroup = true ∧ (m.survivors ids p).card < m.algRolloutN ↔
          m.GivesUp abortGroup ids p := by
        unfold GivesUp
        rw [hmentry]
        simp
      simp only [htracked, entryInfoAt_eq_ok.mpr hinfo, ok_bind,
        rest_eq_survivors hmentry hwell hidxs]
      by_cases hgive : m.GivesUp abortGroup ids p
      · rw [if_pos (hcond.mpr hgive), hid]
        refine ⟨iff_of_true ⟨_, rfl⟩ (.inl hgive), fun state' h => ?_⟩
        cases h
        exact hinv.giveUp hgive
      · rw [if_neg fun h => hgive (hcond.mp h)]
        refine ⟨?_, fun state' h => ?_⟩
        · unfold Droppable
          simp only [hgive, false_or, hmentry, Option.mem_def, Option.some.injEq, forall_eq']
          rw [← hwell.dropRequests_ok_iff idxs]
          constructor
          · rintro ⟨state', h⟩
            obtain ⟨inv', hdrop, -⟩ := bind_eq_ok.mp h
            obtain ⟨_, info', hinfo', -⟩ := (dropRequests_eq_ok hhere).mp hdrop
            exact ⟨info', hinfo'⟩
          · rintro ⟨info', hinfo'⟩
            rw [(dropRequests_eq_ok hhere).mpr ⟨(b, e), info', hinfo', htracked, rfl⟩]
            exact ⟨_, rfl⟩
        · obtain ⟨inv', hdrop, h⟩ := bind_eq_ok.mp h
          cases h
          obtain ⟨loc, info0, info', hrew, hid0, hdrop⟩ := hc.dropRequests hdrop
          refine hinv.keep hgive (hrew.trimmed hc) (fun i hi => ?_) fun q hq =>
            hrew.entryOf?_of_ne hc.wf (by rw [hid0]; exact hq)
          rcases (hrew.keeps hc).carried i hi with hi | rfl
          · exact hinv.recorded i hi
          · exact (hinv.recorded info0 ⟨loc, hrew.here⟩).dropRequests hdrop

/-- The loop over prompts that are all different. -/
theorem LoopInv.abortPrompts {abortGroup : Bool} : ∀ {todo : List (Nat × List Nat)}
    {done : Nat → Prop} {state : AbortState}, LoopInv m abortGroup ids done state →
    (todo.map Prod.fst).Nodup → (∀ x ∈ todo, ¬ done x.1) →
    (∀ x ∈ todo, ∀ i < m.rolloutN, (i ∈ x.2 ↔ x.1 * m.rolloutN + i ∈ ids)) →
    ((∃ state', todo.foldlM (PSManager.abortPrompt m.algRolloutN abortGroup) state = .ok state') ↔
      ∀ x ∈ todo, m.Droppable abortGroup ids x.1) ∧
    ∀ state', todo.foldlM (PSManager.abortPrompt m.algRolloutN abortGroup) state = .ok state' →
      LoopInv m abortGroup ids (fun q => done q ∨ q ∈ todo.map Prod.fst) state'
  | [], done, state, hinv, _, _, _ => by
      refine ⟨iff_of_true ⟨state, rfl⟩ (by simp), fun state' h => ?_⟩
      cases h
      simpa using hinv
  | (p, idxs) :: rest, done, state, hinv, hnodup, hnew, hidxs => by
      obtain ⟨hnot, hnodup⟩ := List.nodup_cons.mp hnodup
      obtain ⟨hok, hstep⟩ := hinv.abortPrompt (hnew _ List.mem_cons_self)
        (hidxs _ List.mem_cons_self)
      have hrest := fun state1 h1 => LoopInv.abortPrompts (hstep state1 h1) hnodup
        (fun x hx hd => hd.elim (hnew x (List.mem_cons_of_mem _ hx))
          fun heq => hnot (heq ▸ List.mem_map_of_mem hx))
        fun x hx => hidxs x (List.mem_cons_of_mem _ hx)
      simp only [List.foldlM_cons, List.forall_mem_cons]
      refine ⟨⟨fun ⟨state', h⟩ => ?_, fun ⟨hdrop, hdrops⟩ => ?_⟩, fun state' h => ?_⟩
      · obtain ⟨state1, h1, h⟩ := bind_eq_ok.mp h
        exact ⟨hok.mp ⟨state1, h1⟩, (hrest state1 h1).1.mp ⟨state', h⟩⟩
      · obtain ⟨state1, h1⟩ := hok.mpr hdrop
        obtain ⟨state', h⟩ := (hrest state1 h1).1.mpr hdrops
        exact ⟨state', by rw [h1, ok_bind, h]⟩
      · obtain ⟨state1, h1, h⟩ := bind_eq_ok.mp h
        have := (hrest state1 h1).2 state' h
        simpa only [List.map_cons, List.mem_cons, or_assoc] using this

/-! ### The whole call -/

theorem mem_markedIds {abortGroup : Bool} {id : Nat} : id ∈ m.markedIds abortGroup ids ↔
    id ∈ ids ∨ ∃ p ∈ m.givenUp abortGroup ids, id ∈ m.survivors ids p := by
  unfold markedIds
  rw [Finset.mem_union, Finset.mem_biUnion]

theorem mem_givenUp {abortGroup : Bool} {p : Nat} : p ∈ m.givenUp abortGroup ids ↔
    p ∈ ids.image (· / m.rolloutN) ∧ m.GivesUp abortGroup ids p := by
  unfold givenUp
  rw [Finset.mem_filter]

/-- The effect of `abort_requests`. -/
structure AbortEffect (abortGroup : Bool) (ids : Finset Nat) (m m' : PSManager) : Prop where
  sound : m'.Sound
  rest : m' = { m with
    toRequestStatusTracker := m'.toRequestStatusTracker
    stalenessInventory := m'.stalenessInventory }
  aborted : RequestStatusTracker.Aborted (m.markedIds abortGroup ids)
    m.toRequestStatusTracker m'.toRequestStatusTracker
  cleared : ∃ inv ps, Trimmed m.stalenessInventory inv ∧
    (∀ p, p ∈ ps ↔ p ∈ m.givenUp abortGroup ids) ∧
    ClearedAll inv m'.stalenessInventory ps ∧ OccupiedBut inv m'.stalenessInventory ps

/-- What `abort_requests` does after its loop. -/
theorem LoopInv.finish {abortGroup : Bool} {state : AbortState} {l : List Nat}
    (hinv : LoopInv m abortGroup ids
      (fun q => False ∨ q ∈ (groupByPrompt m.rolloutN l).items.map Prod.fst) state)
    (hm : m.Sound) (order : SetOrder Nat) (hl : ∀ id, id ∈ l ↔ id ∈ ids) :
    ∃ commands m', (do
      let inv ← state.inventory.clearReservedEntries state.clearEntries false
      let (commands, t) ← m.toRequestStatusTracker.abortRequests order state.abortRequestIds
      .ok (commands, { m with toRequestStatusTracker := t, stalenessInventory := inv })) =
        Except.ok (ε := PyError) (commands, m') ∧ AbortEffect abortGroup ids m m' := by
  have hdone : ∀ p, (False ∨ p ∈ (groupByPrompt m.rolloutN l).items.map Prod.fst) ↔
      p ∈ ids.image (· / m.rolloutN) := fun p => by
    rw [false_or, mem_prompts_groupByPrompt hl]
  have hmarked : state.abortRequestIds = m.markedIds abortGroup ids := by
    ext id
    rw [hinv.marked, mem_markedIds]
    simp only [hdone, mem_givenUp, and_assoc]
  obtain ⟨inv', hclear, hc', hall, hocc⟩ :=
    hinv.trimmed.consistent.clearReservedEntries state.clearEntries
  obtain ⟨commands, t', habort, ht', haborted⟩ :=
    hm.tracker.abortRequests order state.abortRequestIds
  refine ⟨commands, _, by rw [hclear, ok_bind, habort, ok_bind], ?_, rfl,
    by rw [← hmarked]; exact haborted, state.inventory, state.clearEntries, hinv.trimmed,
    fun p => ?_, hall, hocc⟩
  · have hconfig : t'.rolloutN = m.rolloutN := by rw [haborted.config]
    refine ⟨by rw [hconfig]; exact hm.positive, ht', hc', ?_, fun info hinfo => ?_⟩
    · dsimp only
      rw [hconfig, hall.frame.config, hinv.trimmed.frame.config]
      exact hm.groupSize
    · dsimp only at hinfo ⊢
      rw [hconfig]
      have hkeeps : Keeps (fun _ => False) state.inventory inv' := hall.keeps hc'
      exact hinv.recorded info ((hkeeps.carried info hinfo).resolve_right id)
  · rw [hinv.cleared, hdone, mem_givenUp]

/-- The loop of `abort_requests`. -/
theorem Sound.abortLoop (hm : m.Sound) {l : List Nat} (hl : ∀ id, id ∈ l ↔ id ∈ ids)
    (abortGroup : Bool) :
    ((∃ state, (groupByPrompt m.rolloutN l).items.foldlM
        (abortPrompt m.algRolloutN abortGroup) ⟨m.stalenessInventory, ids, []⟩ = .ok state) ↔
      ∀ x ∈ (groupByPrompt m.rolloutN l).items, m.Droppable abortGroup ids x.1) ∧
    ∀ state, (groupByPrompt m.rolloutN l).items.foldlM
        (abortPrompt m.algRolloutN abortGroup) ⟨m.stalenessInventory, ids, []⟩ = .ok state →
      LoopInv m abortGroup ids
        (fun q => False ∨ q ∈ (groupByPrompt m.rolloutN l).items.map Prod.fst) state := by
  have hinit : LoopInv m abortGroup ids (fun _ => False) ⟨m.stalenessInventory, ids, []⟩ :=
    ⟨.refl hm.inventory, hm.recorded, fun _ _ => rfl, by simp, by simp⟩
  exact hinit.abortPrompts (groupByPrompt m.rolloutN l).nodup_keys (by simp)
    (fun x hx => (mem_groupByPrompt hl hx).2)

/-- `abort_requests` returns exactly if every group it keeps records its requests in a list,
and then has this effect. -/
theorem Sound.abortRequests (hm : m.Sound) (order : SetOrder Nat) (requestIds : List Nat)
    (abortGroup : Bool) :
    ((∃ result, m.abortRequests order requestIds abortGroup = .ok result) ↔
      ∀ p ∈ requestIds.toFinset.image (· / m.rolloutN),
        m.Droppable abortGroup requestIds.toFinset p) ∧
    ∀ commands m', m.abortRequests order requestIds abortGroup = .ok (commands, m') →
      AbortEffect abortGroup requestIds.toFinset m m' := by
  have horder : ∀ id, id ∈ order.toList requestIds.toFinset ↔ id ∈ requestIds.toFinset :=
    order.mem_toList _
  unfold PSManager.abortRequests
  generalize requestIds.toFinset = ids at horder ⊢
  dsimp only
  obtain ⟨hok, hloop⟩ := hm.abortLoop horder abortGroup
  constructor
  · constructor
    · rintro ⟨result, h⟩
      obtain ⟨state, h1, -⟩ := bind_eq_ok.mp h
      intro p hp
      obtain ⟨idxs, hmem⟩ := mem_keys_groupByPrompt horder hp
      exact hok.mp ⟨state, h1⟩ _ hmem
    · intro hdrop
      obtain ⟨state, h1⟩ := hok.mpr fun x hx => hdrop x.1 (mem_groupByPrompt horder hx).1
      obtain ⟨commands, m', h, -⟩ := (hloop state h1).finish hm order horder
      exact ⟨(commands, m'), by rw [h1, ok_bind]; exact h⟩
  · intro commands m' h
    obtain ⟨state, h1, h⟩ := bind_eq_ok.mp h
    obtain ⟨commands', m1, hfinish, heffect⟩ := (hloop state h1).finish hm order horder
    obtain ⟨-, rfl⟩ := Prod.ext_iff.mp (Except.ok.inj (h.symm.trans hfinish))
    exact heffect

/-- If every group that is hit is given up, the call only clears entries. -/
theorem Sound.abortRequests_clears (hm : m.Sound) {order : SetOrder Nat} {requestIds : List Nat}
    {commands : AbortCommands}
    (hgive : ∀ p ∈ requestIds.toFinset.image (· / m.rolloutN),
      (m.stalenessInventory.entryOf? p).isSome = true → m.GivesUp true requestIds.toFinset p)
    (h : m.abortRequests order requestIds true = .ok (commands, m')) :
    ∃ ps, (∀ p, p ∈ ps ↔ p ∈ m.givenUp true requestIds.toFinset) ∧
      m.stalenessInventory.clearReservedEntries ps false = .ok m'.stalenessInventory := by
  have horder : ∀ id, id ∈ order.toList requestIds.toFinset ↔ id ∈ requestIds.toFinset :=
    order.mem_toList _
  unfold PSManager.abortRequests at h
  generalize requestIds.toFinset = ids at hgive horder h ⊢
  obtain ⟨state, hfold, h⟩ := bind_eq_ok.mp h
  obtain ⟨inv', hclear, h⟩ := bind_eq_ok.mp h
  obtain ⟨⟨_, t⟩, -, h⟩ := bind_eq_ok.mp h
  cases h
  have hloop := (hm.abortLoop horder true).2 state hfold
  have hsame : state.inventory = m.stalenessInventory := by
    refine foldlM_invariant (P := fun st : AbortState => st.inventory = m.stalenessInventory)
      hfold rfl fun st x st' hx hst hstep => ?_
    obtain ⟨p, idxs⟩ := x
    unfold PSManager.abortPrompt at hstep
    dsimp only at hstep
    split at hstep
    · cases hstep
      exact hst
    · rename_i b e htracked
      obtain ⟨info, hinfo, hstep⟩ := bind_eq_ok.mp hstep
      rw [hst] at htracked hinfo
      have hinfo := entryInfoAt_eq_ok.mp hinfo
      have hentry : m.stalenessInventory.entryOf? p = some info := by
        unfold entryOf?
        rw [htracked]
        exact hinfo
      obtain ⟨hp, hidxs⟩ := mem_groupByPrompt horder hx
      have hgiven := hgive p hp (by rw [hentry]; rfl)
      rw [rest_eq_survivors hentry (hm.recorded info ⟨_, hinfo⟩) hidxs,
        if_pos ⟨rfl, hgiven.2.2⟩] at hstep
      cases hstep
      exact hst
  refine ⟨state.clearEntries, fun p => ?_, by rw [← hsame]; exact hclear⟩
  rw [hloop.cleared, false_or, mem_prompts_groupByPrompt horder, mem_givenUp]

end PSManager

end Psrl
