import Mathlib.Order.CompletePartialOrder
import Psrl.Nixl.PlanExistence

/-!
# Psrl.Nixl.Assignment

**What a plan assigns**: every shard a target needs comes from exactly one source, and this source
has it.

The loop over the sources of one tensor keeps `Assigning`: what is assigned so far is split among
the visited sources. Each loop around it writes entries of its own tensors and targets only, so
the parts of a plan are put together by `Fills`, which says what a part fills in if it finds nothing
there.
-/

namespace Psrl

open Py

namespace CommunicationPlanner

variable {Vol : Type} {p : CommunicationPlanner Vol} {clients : Dict String NIXLClientInfo}
  {sources targets : ClientGroups} {isPushToPs : Bool} {target key source : String}
  {needed : Finset ShardIndex} {a a' : Assignment Vol} {plan plan' plan'' : CommPlan} {fuel : Nat}

/-- The shards of a tensor that a plan has a source send to a target. -/
def sent (isPushToPs : Bool) (plan : CommPlan) (source key target : String) : List ShardIndex :=
  ((plan.get? (planOwner isPushToPs target source)).bind fun keyPlans =>
    keyPlans.getIn key (planPeer isPushToPs target source)).getD []

/-- Owner and peer of an entry determine its source and target. -/
theorem owner_peer_inj (isPushToPs : Bool) (source target source' target' : String) :
    (planOwner isPushToPs target' source' = planOwner isPushToPs target source ∧
      planPeer isPushToPs target' source' = planPeer isPushToPs target source) ↔
      source' = source ∧ target' = target := by
  cases isPushToPs <;> simp [planOwner, planPeer, and_comm]

/-- An assignment changes one entry. -/
theorem sent_assign {shards : List ShardIndex}
    (h : plan.assign (planOwner isPushToPs target source) key
      (planPeer isPushToPs target source) shards = .ok plan') (source' key' target' : String) :
    sent isPushToPs plan' source' key' target' =
      if source' = source ∧ key' = key ∧ target' = target then shards
      else sent isPushToPs plan source' key' target' := by
  obtain ⟨keyPlans, hget, h⟩ := bind_eq_ok.mp h
  have hget := Dict.get_eq_ok.mp hget
  have hset : plan' = plan.set (planOwner isPushToPs target source)
      (keyPlans.setIn key (planPeer isPushToPs target source) shards) := by
    cases h
    rfl
  have hinj := owner_peer_inj isPushToPs source target source' target'
  rw [sent, hset, Dict.get?_set]
  by_cases howner : planOwner isPushToPs target' source' = planOwner isPushToPs target source
  · rw [if_pos howner, Option.bind_some, Dict.getIn_setIn, sent, howner, hget, Option.bind_some]
    by_cases hrest : key' = key ∧
        planPeer isPushToPs target' source' = planPeer isPushToPs target source
    · have hsame := hinj.mp ⟨howner, hrest.2⟩
      rw [if_pos hrest, if_pos ⟨hsame.1, hrest.1, hsame.2⟩, Option.getD_some]
    · rw [if_neg hrest, if_neg]
      rintro ⟨rfl, rfl, rfl⟩
      exact hrest ⟨rfl, rfl⟩
  · rw [if_neg howner, if_neg]
    · rfl
    · rintro ⟨rfl, -, rfl⟩
      exact howner rfl

/-! ### One tensor of one target -/

/-- Exactly these shards are sent to the target, each by one source that has it, and once. -/
structure Delivered (clients : Dict String NIXLClientInfo) (isPushToPs : Bool) (plan : CommPlan)
    (target key : String) (shards : Finset ShardIndex) : Prop where
  nodup : ∀ c, (sent isPushToPs plan c key target).Nodup
  owned : ∀ c, ∀ shard ∈ sent isPushToPs plan c key target, shard ∈ shardsAt clients key c
  exactly : ∀ shard, shard ∈ shards ↔ ∃ c, shard ∈ sent isPushToPs plan c key target
  unique : ∀ shard c c', shard ∈ sent isPushToPs plan c key target →
    shard ∈ sent isPushToPs plan c' key target → c = c'

theorem Delivered.congr {shards : Finset ShardIndex}
    (h : Delivered clients isPushToPs plan target key shards)
    (hsent : ∀ c, sent isPushToPs plan' c key target = sent isPushToPs plan c key target) :
    Delivered clients isPushToPs plan' target key shards := by
  refine ⟨fun c => hsent c ▸ h.nodup c, fun c shard hshard => h.owned c shard (hsent c ▸ hshard),
    fun shard => ?_, fun shard c c' hc hc' => h.unique shard c c' (hsent c ▸ hc) (hsent c' ▸ hc')⟩
  rw [h.exactly]
  exact exists_congr fun c => by rw [hsent c]

theorem delivered_nothing (h : ∀ c, sent isPushToPs plan c key target = []) :
    Delivered clients isPushToPs plan target key ∅ := by
  constructor <;> simp [h]

/-- The loop over the sources of one tensor, which began with `plan`: the shards assigned so far
come from sources that are no longer to be visited. -/
structure Assigning (clients : Dict String NIXLClientInfo) (isPushToPs : Bool) (plan : CommPlan)
    (target key : String) (a : Assignment Vol) : Prop where
  fresh : ∀ c ∈ a.availableSourceClients, sent isPushToPs a.commPlan c key target = []
  delivered : Delivered clients isPushToPs a.commPlan target key a.assignedShards
  others : ∀ c key' target', (target', key') ≠ (target, key) →
    sent isPushToPs a.commPlan c key' target' = sent isPushToPs plan c key' target'

theorem mem_sortedShards {shards : Finset ShardIndex} {shard : ShardIndex} :
    shard ∈ sortedShards shards ↔ shard ∈ shards :=
  (SetOrder.ofLinearOrder ShardIndex).mem_toList shards shard

/-- What a source is given was not assigned before, and the source had been given nothing. -/
theorem Assigning.took (h : Assigning clients isPushToPs plan target key a)
    (hmem : source ∈ a.availableSourceClients)
    (htook : Took p isPushToPs target key source
      ((shardsAt clients key source \ a.assignedShards) ∩ needed) a a') :
    Assigning clients isPushToPs plan target key
      { a' with availableSourceClients := a'.availableSourceClients.erase source } := by
  obtain ⟨hfresh, ⟨hnodup, howned, hexactly, hunique⟩, hothers⟩ := h
  have hsent := sent_assign htook.plan
  have hself : sent isPushToPs a'.commPlan source key target =
      sortedShards ((shardsAt clients key source \ a.assignedShards) ∩ needed) := by
    rw [hsent, if_pos ⟨rfl, rfl, rfl⟩]
  have hother : ∀ c, c ≠ source → sent isPushToPs a'.commPlan c key target =
      sent isPushToPs a.commPlan c key target := by
    intro c hc
    rw [hsent, if_neg fun heq => hc heq.1]
  have hnew : ∀ shard, shard ∈ sent isPushToPs a'.commPlan source key target ↔
      (shard ∈ shardsAt clients key source ∧ shard ∉ a.assignedShards) ∧ shard ∈ needed := by
    intro shard
    rw [hself, mem_sortedShards, Finset.mem_inter, Finset.mem_sdiff]
  have hnothing := hfresh source hmem
  refine ⟨fun c hc => ?_, ⟨fun c => ?_, fun c shard hshard => ?_, fun shard => ?_,
    fun shard c c' hc hc' => ?_⟩, fun c key' target' hne => ?_⟩
  · obtain ⟨hne, hc⟩ := Finset.mem_erase.mp hc
    rw [htook.available] at hc
    exact (hother c hne).trans (hfresh c hc)
  · by_cases hc : c = source
    · subst hc
      rw [hself]
      exact (SetOrder.ofLinearOrder ShardIndex).nodup_toList _
    · exact hother c hc ▸ hnodup c
  · by_cases hc : c = source
    · subst hc
      exact ((hnew shard).mp hshard).1.1
    · exact howned c shard (hother c hc ▸ hshard)
  · show shard ∈ a'.assignedShards ↔ _
    rw [htook.assigned, Finset.mem_union, hexactly, ← mem_sortedShards, ← hself]
    constructor
    · rintro (⟨c, hc⟩ | hshard)
      · refine ⟨c, ?_⟩
        rwa [hother c]
        rintro rfl
        simp [hnothing] at hc
      · exact ⟨source, hshard⟩
    · rintro ⟨c, hc⟩
      by_cases heq : c = source
      · exact .inr (heq ▸ hc)
      · exact .inl ⟨c, hother c heq ▸ hc⟩
  · -- the new shards are at no other source
    have hapart : ∀ c, c ≠ source → shard ∈ sent isPushToPs a'.commPlan c key target →
        shard ∉ sent isPushToPs a'.commPlan source key target := by
      intro c hne hshard hnewShard
      exact ((hnew shard).mp hnewShard).1.2 ((hexactly shard).mpr ⟨c, hother c hne ▸ hshard⟩)
    by_cases heq : c = source <;> by_cases heq' : c' = source
    · rw [heq, heq']
    · exact absurd (heq ▸ hc) (hapart c' heq' hc')
    · exact absurd (heq' ▸ hc') (hapart c heq hc)
    · exact hunique shard c c' (hother c heq ▸ hc) (hother c' heq' ▸ hc')
  · refine Eq.trans ?_ (hothers c key' target' hne)
    refine (hsent c key' target').trans (if_neg ?_)
    rintro ⟨-, rfl, rfl⟩
    exact hne rfl

theorem state_discard (source : String) (a : Assignment Vol) : (discard source a).state =
    { a with availableSourceClients := a.availableSourceClients.erase source } := by
  unfold discard
  split <;> rfl

theorem Assigning.turn {turn : LoopTurn (Assignment Vol)}
    (h : Assigning clients isPushToPs plan target key a)
    (hturn : p.assignTurn clients isPushToPs target key needed a = .ok turn) :
    Assigning clients isPushToPs plan target key turn.state := by
  rcases assignTurn_cases hturn with ⟨-, rfl⟩ | ⟨source, hmem, a', rfl, hvisit⟩
  · exact h
  · rw [state_discard]
    rcases hvisit with ⟨rfl, -⟩ | htook
    · exact ⟨fun c hc => h.fresh c (Finset.mem_of_mem_erase hc), h.delivered, h.others⟩
    · exact h.took hmem htook

/-! ### Parts of a plan -/

/-- From `plan`, in which nothing is sent for the tensors of `part`, the computation makes `plan'`,
in which they are delivered; it leaves the rest as it is. A tensor of a target is named by the
target and the key. -/
def Fills (clients : Dict String NIXLClientInfo) (isPushToPs : Bool) (part : Set (String × String))
    (plan plan' : CommPlan) : Prop :=
  (∀ x ∈ part, ∀ c, sent isPushToPs plan c x.2 x.1 = []) →
    (∀ x ∈ part, Delivered clients isPushToPs plan' x.1 x.2 (shardsAt clients x.2 x.1)) ∧
    ∀ x ∉ part, ∀ c, sent isPushToPs plan' c x.2 x.1 = sent isPushToPs plan c x.2 x.1

theorem Fills.append {part part' : Set (String × String)}
    (h : Fills clients isPushToPs part plan plan')
    (h' : Fills clients isPushToPs part' plan' plan'') (hdisjoint : Disjoint part part') :
    Fills clients isPushToPs (part ∪ part') plan plan'' := by
  intro hfresh
  obtain ⟨hfilled, hothers⟩ := h fun x hx => hfresh x (.inl hx)
  obtain ⟨hfilled', hothers'⟩ := h' fun x hx c => by
    rw [hothers x (Set.disjoint_right.mp hdisjoint hx)]
    exact hfresh x (.inr hx) c
  constructor
  · rintro x (hx | hx)
    · exact (hfilled x hx).congr (hothers' x (Set.disjoint_left.mp hdisjoint hx))
    · exact hfilled' x hx
  · intro x hx c
    obtain ⟨hx, hx'⟩ := not_or.mp hx
    rw [hothers' x hx', hothers x hx]

/-- A loop whose iterations fill in different parts. -/
theorem Fills.foldlM {β : Type} {step : Dict String Vol × CommPlan → β →
    Except Halt (Dict String Vol × CommPlan)} (part : β → Set (String × String)) :
    ∀ {l : List β} {state state' : Dict String Vol × CommPlan},
      (∀ b ∈ l, ∀ s s', step s b = .ok s' → Fills clients isPushToPs (part b) s.2 s'.2) →
      l.Pairwise (fun b b' => Disjoint (part b) (part b')) → l.foldlM step state = .ok state' →
      Fills clients isPushToPs {x | ∃ b ∈ l, x ∈ part b} state.2 state'.2
  | [], state, state', _, _, h => by
      cases h
      exact fun _ => ⟨by simp, fun _ _ _ => rfl⟩
  | b :: l, state, state', hstep, hpairwise, h => by
      obtain ⟨hfirst, hpairwise⟩ := List.pairwise_cons.mp hpairwise
      rw [List.foldlM_cons] at h
      obtain ⟨s, hs, h⟩ := bind_eq_ok.mp h
      have hrest := Fills.foldlM part
        (fun b' hb' => hstep b' (List.mem_cons_of_mem _ hb')) hpairwise h
      have hdisjoint : Disjoint (part b) {x | ∃ b' ∈ l, x ∈ part b'} := by
        refine Set.disjoint_left.mpr fun x hx => ?_
        rintro ⟨b', hb', hx'⟩
        exact Set.disjoint_left.mp (hfirst b' hb') hx hx'
      convert (hstep b List.mem_cons_self _ _ hs).append hrest hdisjoint using 1
      ext x
      simp

variable {state state' : Dict String Vol × CommPlan} {keyToSrcs : Dict String (List String)}
  {ids : List Int} {mapping : Dict Int (List Int)}
  {cache : Dict (List Int) (Dict String (List String))}

theorem fills_assignKey {client : NIXLClientInfo} (hclient : clients.get? target = some client)
    {item : String × NIXLTensorInfo} (hitem : item ∈ client.tensorInfos.items)
    (h : p.assignKey fuel clients sources isPushToPs ids keyToSrcs target state item = .ok state') :
    Fills clients isPushToPs {(target, item.1)} state.2 state'.2 := by
  have hshards : shardsAt clients item.1 target = item.2.shards := by
    simp [shardsAt, hclient, Dict.get?_eq_some_iff.mpr hitem]
  intro hfresh
  have hfresh : ∀ c, sent isPushToPs state.2 c item.1 target = [] := hfresh _ rfl
  unfold assignKey at h
  cases hget : keyToSrcs.get? item.1 with
  | none =>
      rw [hget] at h
      cases h
  | some srcs =>
      rw [hget] at h
      obtain ⟨a, hloop, h⟩ := bind_eq_ok.mp h
      obtain ⟨_, hassert, h⟩ := bind_eq_ok.mp h
      cases h
      have hall := pyAssert_eq_ok.mp (raising_eq_ok.mp hassert)
      have hend := whileLoop_invariant (I := Assigning clients isPushToPs state.2 target item.1)
        (fun _ _ ha hturn => ha.turn hturn) hloop
        ⟨fun c _ => hfresh c, delivered_nothing hfresh, fun _ _ _ _ => rfl⟩
      refine ⟨?_, fun x hx c => hend.others c x.2 x.1 hx⟩
      rintro x rfl
      rw [hshards, ← hall]
      exact hend.delivered

/-- What a target does not have is not sent to it. -/
theorem fills_assignTarget
    (h : p.assignTarget fuel clients sources isPushToPs ids keyToSrcs state target = .ok state') :
    Fills clients isPushToPs {x | x.1 = target} state.2 state'.2 := by
  obtain ⟨client, hclient, hfold⟩ := bind_eq_ok.mp h
  have hclient := Dict.get_eq_ok.mp (raising_eq_ok.mp hclient)
  have hpairwise : client.tensorInfos.items.Pairwise fun item other =>
      Disjoint ({(target, item.1)} : Set (String × String)) {(target, other.1)} :=
    (List.pairwise_map.mp client.tensorInfos.nodup_keys).imp fun hne => by simpa using hne
  have hitems := Fills.foldlM (fun item => {(target, item.1)})
    (fun item hitem _ _ hstep => fills_assignKey hclient hitem hstep) hpairwise hfold
  intro hfresh
  obtain ⟨hfilled, hothers⟩ := hitems <| by
    rintro _ ⟨item, -, rfl⟩
    exact hfresh _ rfl
  constructor
  · rintro ⟨target', key⟩ (rfl : target' = target)
    cases hinfo : client.tensorInfos.get? key with
    | some info => exact hfilled _ ⟨(key, info), Dict.get?_eq_some_iff.mp hinfo, rfl⟩
    | none =>
        have hnot : (target', key) ∉ {x | ∃ item ∈ client.tensorInfos.items,
            x ∈ ({(target', item.1)} : Set (String × String))} := by
          rintro ⟨item, hitem, heq⟩
          obtain rfl : key = item.1 := congrArg Prod.snd heq
          simp [Dict.get?_eq_some_iff.mpr hitem] at hinfo
        have hnone : shardsAt clients key target' = ∅ := by simp [shardsAt, hclient, hinfo]
        rw [hnone]
        exact delivered_nothing fun c => (hothers _ hnot c).trans (hfresh (target', key) rfl c)
  · intro x hx
    refine hothers x ?_
    rintro ⟨item, -, rfl⟩
    exact hx rfl

/-- The targets of a list are filled in one after the other. -/
theorem fills_targets {names : List String} (hnodup : names.Nodup)
    (h : names.foldlM (p.assignTarget fuel clients sources isPushToPs ids keyToSrcs) state =
      .ok state') :
    Fills clients isPushToPs {x | x.1 ∈ names} state.2 state'.2 := by
  have hpairwise : names.Pairwise fun target other =>
      Disjoint ({x | x.1 = target} : Set (String × String)) {x | x.1 = other} :=
    hnodup.imp fun hne => Set.disjoint_left.mpr fun x hx hx' => hne (hx.symm.trans hx')
  convert Fills.foldlM (fun target => {x | x.1 = target})
    (fun _ _ _ _ hstep => fills_assignTarget hstep) hpairwise h using 1
  ext x
  simp

theorem sent_empty {groups : ClientGroups} (c key target : String) :
    sent isPushToPs (forMembers groups .empty) c key target = [] := by
  have hget : ∀ name,
      (forMembers groups (Dict.empty : Dict String (Dict String (List ShardIndex)))).get? name =
        if name ∈ members groups then some .empty else none :=
    fun name => Dict.get?_foldl_set
      (fun _ => (Dict.empty : Dict String (Dict String (List ShardIndex)))) name
  rw [sent, hget]
  split <;> rfl

/-- **A plan delivers every shard once.** When every target is in one group only: in every plan the
planner returns, whatever links, volumes and group restrictions decide about the sources, each shard
a target needs is sent to it by exactly one source, which has it and lists it once; and a target is
sent nothing else. -/
theorem plan_delivers_each_shard_once {groups : ClientGroups}
    (h : p.makeCommPlanGeneric fuel clients sources targets (forMembers groups .empty) isPushToPs =
      .ok plan) (hnodup : (members targets).Nodup) (htarget : target ∈ members targets)
    (key : String) :
    (∀ shard ∈ shardsAt clients key target, ∃! c, shard ∈ sent isPushToPs plan c key target) ∧
    ∀ c, (sent isPushToPs plan c key target).Nodup ∧
      ∀ shard ∈ sent isPushToPs plan c key target,
        shard ∈ shardsAt clients key c ∧ shard ∈ shardsAt clients key target := by
  obtain ⟨mapping, -, h⟩ := bind_eq_ok.mp h
  obtain ⟨cache, -, h⟩ := bind_eq_ok.mp h
  obtain ⟨state, hfold, h⟩ := bind_eq_ok.mp h
  cases h
  obtain ⟨hgroups, hdisjoint⟩ := List.nodup_flatMap.mp hnodup
  have hstep : ∀ item ∈ targets.items, ∀ s s' : Dict String Vol × CommPlan,
      p.assignGroup fuel clients sources isPushToPs mapping cache s item = .ok s' →
      Fills clients isPushToPs {x | x.1 ∈ item.2} s.2 s'.2 := by
    intro item hitem s s' hgroup
    obtain ⟨ids, -, hgroup⟩ := bind_eq_ok.mp hgroup
    obtain ⟨keyToSrcs, -, hgroup⟩ := bind_eq_ok.mp hgroup
    exact fills_targets (hgroups item hitem) hgroup
  have hpairwise : targets.items.Pairwise fun item other =>
      Disjoint ({x | x.1 ∈ item.2} : Set (String × String)) {x | x.1 ∈ other.2} :=
    hdisjoint.imp fun happart => Set.disjoint_left.mpr fun x hx hx' => happart hx hx'
  have hfills := Fills.foldlM (fun item : Int × List String => {x | x.1 ∈ item.2}) hstep hpairwise
    hfold
  obtain ⟨id, names, hnames, hmem⟩ := mem_members.mp htarget
  have hdelivered := (hfills fun x _ c => sent_empty c x.2 x.1).1 (target, key)
    ⟨(id, names), Dict.get?_eq_some_iff.mp hnames, hmem⟩
  refine ⟨fun shard hshard => ?_, fun c => ⟨hdelivered.nodup c, fun shard hshard =>
    ⟨hdelivered.owned c shard hshard, (hdelivered.exactly shard).mpr ⟨c, hshard⟩⟩⟩⟩
  obtain ⟨c, hc⟩ := (hdelivered.exactly shard).mp hshard
  exact ⟨c, hc, fun c' hc' => hdelivered.unique shard c' c hc' hc⟩

/-- Two push clients with one half each, and a server that needs both. -/
theorem plan_delivers_each_shard_once_twoPushers :
    ∃ plan, nodePlanner.makeCommPlanGeneric 3 twoPushers pushGroups psGroups
      (forMembers pushGroups .empty) true = .ok plan ∧
      ∃! c, [1] ∈ sent true plan c "w" "ps" := by
  have hrun : ((nodePlanner.makeCommPlanGeneric 3 twoPushers pushGroups psGroups
      (forMembers pushGroups .empty) true).toOption.map fun _ => ()) = some () := by
    decide +kernel
  obtain ⟨plan, hplan, -⟩ := Option.map_eq_some_iff.mp hrun
  have hplan := toOption_eq_some_iff.mp hplan
  exact ⟨plan, hplan, (plan_delivers_each_shard_once hplan (by decide +kernel)
    (by decide +kernel) "w").1 [1] (by decide +kernel)⟩

end CommunicationPlanner

end Psrl
