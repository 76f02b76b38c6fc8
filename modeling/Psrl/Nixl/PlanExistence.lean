import Mathlib.Data.String.Basic
import Psrl.Nixl.CommPlan

/-!
# Psrl.Nixl.PlanExistence

When the planner finds a plan.

The loop over the sources of a tensor keeps one invariant: what is assigned is what the target
needs of the shards of the sources visited so far. It does not mention the order of the visits, so
when the loop ends, by either exit, all needed shards are assigned exactly if all of them are at
some source (`assignKey_asserts`). Pairing groups by remainders always leaves a target group some
source group (`exists_paired`).
-/

namespace Psrl

open Py

namespace NIXLTensorInfo

theorem Complete.getShardSizeBytes {info : NIXLTensorInfo} (h : info.Complete)
    {i : Nat} (hi : i < info.sharding.shardIndices.length) :
    ∃ size, info.getShardSizeBytes i = .ok size := by
  unfold NIXLTensorInfo.getShardSizeBytes
  rw [pyAssert_of (by rw [h.descs]; exact hi), ok_bind,
    List.getElem?_eq_getElem (by rw [h.metas]; exact hi)]
  exact ⟨_, rfl⟩

end NIXLTensorInfo

namespace CommPlan

variable {key : String}

theorem assign_ok {plan : CommPlan} {outer : String} (h : plan.get? outer ≠ none)
    (key inner : String) (shards : List ShardIndex) :
    ∃ plan', plan.assign outer key inner shards = .ok plan' := by
  obtain ⟨keyPlans, hget⟩ := Option.ne_none_iff_exists'.mp h
  unfold assign
  rw [Dict.get_eq_ok.mpr hget, ok_bind]
  exact ⟨_, rfl⟩

theorem get?_assign {plan plan' : CommPlan} {outer inner : String}
    {shards : List ShardIndex} (h : plan.assign outer key inner shards = .ok plan') {c : String}
    (hc : plan.get? c ≠ none) : plan'.get? c ≠ none := by
  obtain ⟨keyPlans, -, h⟩ := bind_eq_ok.mp h
  cases h
  exact Dict.get?_set_ne_none (.inr hc)

end CommPlan

namespace CommunicationPlanner

variable {Vol : Type} {p : CommunicationPlanner Vol} {clients : Dict String NIXLClientInfo}
  {sources targets : ClientGroups} {isPushToPs : Bool} {target key source : String}
  {needed : Finset ShardIndex} {a a' : Assignment Vol} {turn : LoopTurn (Assignment Vol)}

/-! ### The choice of a source -/

theorem foldl_pick_mem {α : Type} {better : α → α → Bool} : ∀ {l : List α} {best : α},
    l.foldl (fun best c => if better c best then c else best) best ∈ best :: l
  | [], best => List.mem_singleton_self best
  | c :: l, best => by
      rw [List.foldl_cons]
      rcases List.mem_cons.mp (foldl_pick_mem (l := l)) with heq | hmem
      · rw [heq]
        split <;> simp
      · exact List.mem_cons_of_mem _ (List.mem_cons_of_mem _ hmem)

theorem minVolumeClient_mem {volumes : Dict String Vol} {available : Finset String}
    (h : p.minVolumeClient volumes target available = .ok source) : source ∈ available := by
  unfold minVolumeClient at h
  obtain ⟨keyed, hkeyed, h⟩ := bind_eq_ok.mp h
  have hnames : ∀ c ∈ keyed, c.1 ∈ available := by
    intro c hc
    obtain ⟨name, hname, hcall⟩ := exists_left_of_forall₂ (mapM_eq_ok hkeyed) hc
    obtain ⟨sortKey, -, hpair⟩ := bind_eq_ok.mp hcall
    cases hpair
    exact (p.setOrder.mem_toList available name).mp hname
  cases keyed with
  | nil => cases h
  | cons first rest =>
      cases h
      exact hnames _ foldl_pick_mem

theorem minVolumeClient_ok (p : CommunicationPlanner Vol) (target : String)
    {volumes : Dict String Vol} {available : Finset String}
    (hvolumes : ∀ c ∈ available, volumes.get? c ≠ none) (hne : available.Nonempty) :
    ∃ source, p.minVolumeClient volumes target available = .ok source := by
  have hcalls : ∀ c ∈ p.setOrder.toList available, ∃ pair : String × Int × Vol,
      (do let sortKey ← p.sortKey volumes target c; return (c, sortKey) : Except PyError _) =
        .ok pair ∧ True := by
    intro c hc
    obtain ⟨volume, hvolume⟩ :=
      Option.ne_none_iff_exists'.mp (hvolumes c ((p.setOrder.mem_toList _ _).mp hc))
    refine ⟨(c, -(p.link c target).linkType.priority, volume), ?_, trivial⟩
    simp only [sortKey, Dict.get_eq_ok.mpr hvolume, ok_bind, pure_eq_ok]
  obtain ⟨keyed, hkeyed, hall⟩ := mapM_ok hcalls
  unfold minVolumeClient
  rw [hkeyed, ok_bind]
  cases keyed with
  | nil =>
      obtain ⟨c, hc⟩ := hne
      obtain ⟨_, hmem, -⟩ := exists_right_of_forall₂ hall ((p.setOrder.mem_toList _ _).mpr hc)
      cases hmem
  | cons first rest => exact ⟨_, rfl⟩

/-! ### The size of what is assigned -/

/-- Every listed shard gets a position, and every position is one of the list. -/
theorem get?_positions {n : Nat} {shard : ShardIndex} :
    ∀ {l : List (ShardIndex × Nat)} {positions : Dict ShardIndex Nat},
      (∀ item ∈ l, item.2 < n) → (∀ i, positions.get? shard = some i → i < n) →
      (shard ∈ l.map Prod.fst ∨ positions.get? shard ≠ none) →
      ∃ i < n, (l.foldl (fun positions (shard, i) => positions.set shard i) positions).get? shard =
        some i
  | [], positions, _, hold, hsome => by
      obtain ⟨i, hi⟩ := Option.ne_none_iff_exists'.mp (hsome.resolve_left (by simp))
      exact ⟨i, hold i hi, hi⟩
  | (shard', i) :: l, positions, hl, hold, hsome => by
      rw [List.foldl_cons]
      refine get?_positions (fun item hitem => hl item (List.mem_cons_of_mem _ hitem)) ?_ ?_
      · intro j hj
        rw [Dict.get?_set] at hj
        split at hj
        · cases hj
          exact hl _ (List.mem_cons_self ..)
        · exact hold j hj
      · rcases hsome with hmem | hsome
        · rcases List.mem_cons.mp hmem with heq | hmem
          · exact .inr (Dict.get?_set_ne_none (.inl heq))
          · exact .inl hmem
        · exact .inr (Dict.get?_set_ne_none (.inr hsome))

theorem shardPosMap_get {info : NIXLTensorInfo} {shard : ShardIndex} (h : shard ∈ info.shards) :
    ∃ i < info.sharding.shardIndices.length, (shardPosMap info).get shard = .ok i := by
  have hlt : ∀ item ∈ info.sharding.shardIndices.zipIdx,
      item.2 < info.sharding.shardIndices.length := by
    intro item hitem
    have := List.snd_lt_add_of_mem_zipIdx hitem
    omega
  have hmem : shard ∈ info.sharding.shardIndices.zipIdx.map Prod.fst := by
    rw [List.zipIdx_map_fst]
    exact List.mem_toFinset.mp h
  have hnone : ∀ i, (Dict.empty : Dict ShardIndex Nat).get? shard = some i →
      i < info.sharding.shardIndices.length := fun i hi => by cases hi
  obtain ⟨i, hi, hget⟩ := get?_positions hlt hnone (.inl hmem)
  exact ⟨i, hi, Dict.get_eq_ok.mpr hget⟩

theorem shardSizeBytes_ok {info : NIXLTensorInfo} (h : info.Complete) {shards : List ShardIndex}
    (hshards : ∀ shard ∈ shards, shard ∈ info.shards) :
    ∃ size, shardSizeBytes info shards = .ok size := by
  obtain ⟨positions, hpositions, hall⟩ :=
    mapM_ok (P := fun _ i => i < info.sharding.shardIndices.length)
      fun shard hshard => by
        obtain ⟨i, hi, hget⟩ := shardPosMap_get (hshards shard hshard)
        exact ⟨i, hget, hi⟩
  obtain ⟨sizes, hsizes, -⟩ := mapM_ok (l := positions) (f := info.getShardSizeBytes)
    (P := fun _ _ => True) fun i hi => by
      obtain ⟨_, -, hlt⟩ := exists_left_of_forall₂ hall hi
      obtain ⟨size, hsize⟩ := h.getShardSizeBytes hlt
      exact ⟨size, hsize, trivial⟩
  refine ⟨sizes.sum, ?_⟩
  unfold shardSizeBytes
  rw [hpositions, ok_bind, hsizes, ok_bind]
  rfl

/-! ### One turn of the loop -/

/-- The client that has a dictionary of its own in the plan. -/
def planOwner (isPushToPs : Bool) (target source : String) : String :=
  if isPushToPs then source else target

/-- The client that is a key of the innermost dictionary. -/
def planPeer (isPushToPs : Bool) (target source : String) : String :=
  if isPushToPs then target else source

/-- What a turn assigns to the chosen source. -/
structure Took (p : CommunicationPlanner Vol) (isPushToPs : Bool) (target key source : String)
    (shards : Finset ShardIndex) (a a' : Assignment Vol) : Prop where
  available : a'.availableSourceClients = a.availableSourceClients
  assigned : a'.assignedShards = a.assignedShards ∪ shards
  plan : a.commPlan.assign (planOwner isPushToPs target source) key
    (planPeer isPushToPs target source) (sortedShards shards) = .ok a'.commPlan
  volumes : ∀ c, a.volumes.get? c ≠ none → a'.volumes.get? c ≠ none

theorem toFinset_sortedShards (shards : Finset ShardIndex) :
    (sortedShards shards).toFinset = shards := by
  ext shard
  rw [List.mem_toFinset]
  exact (SetOrder.ofLinearOrder ShardIndex).mem_toList shards shard

theorem take_plan (p : CommunicationPlanner Vol) (isPushToPs : Bool) (target key source : String)
    (info : NIXLTensorInfo) (shards : List ShardIndex) (a : Assignment Vol) :
    p.take isPushToPs target key source info shards a = (do
      let commPlan ← a.commPlan.assign (planOwner isPushToPs target source) key
        (planPeer isPushToPs target source) shards
      let size ← shardSizeBytes info shards
      let volume ← a.volumes.get source
      return { a with
        assignedShards := a.assignedShards ∪ shards.toFinset
        commPlan := commPlan
        volumes := a.volumes.set source
          (p.arith.add volume (p.arith.transferTime size (p.link source target))) }) := by
  cases isPushToPs <;> rfl

theorem take_eq_ok {info : NIXLTensorInfo} {shards : Finset ShardIndex}
    (h : p.take isPushToPs target key source info (sortedShards shards) a = .ok a') :
    Took p isPushToPs target key source shards a a' := by
  rw [take_plan] at h
  obtain ⟨commPlan, hplan, h⟩ := bind_eq_ok.mp h
  obtain ⟨size, -, h⟩ := bind_eq_ok.mp h
  obtain ⟨volume, -, h⟩ := bind_eq_ok.mp h
  cases h
  exact ⟨rfl, by rw [toFinset_sortedShards], hplan,
    fun c hc => Dict.get?_set_ne_none (.inr hc)⟩

theorem take_ok (p : CommunicationPlanner Vol) (key : String) {info : NIXLTensorInfo}
    (hinfo : info.Complete) {shards : Finset ShardIndex}
    (hshards : shards ⊆ info.shards) (hvolume : a.volumes.get? source ≠ none)
    (hplan : a.commPlan.get? (planOwner isPushToPs target source) ≠ none) :
    ∃ a', p.take isPushToPs target key source info (sortedShards shards) a = .ok a' := by
  obtain ⟨commPlan, hassign⟩ := CommPlan.assign_ok hplan key
    (planPeer isPushToPs target source) (sortedShards shards)
  have hmem : ∀ shard ∈ sortedShards shards, shard ∈ info.shards := fun shard hshard =>
    hshards (((SetOrder.ofLinearOrder ShardIndex).mem_toList _ _).mp hshard)
  obtain ⟨size, hsize⟩ := shardSizeBytes_ok hinfo hmem
  obtain ⟨volume, hvolume⟩ := Option.ne_none_iff_exists'.mp hvolume
  rw [take_plan, hassign, ok_bind, hsize, ok_bind, Dict.get_eq_ok.mpr hvolume, ok_bind]
  exact ⟨_, rfl⟩

/-- The shards of a tensor that a client has. -/
def shardsAt (clients : Dict String NIXLClientInfo) (key client : String) : Finset ShardIndex :=
  match (clients.get? client).bind (·.tensorInfos.get? key) with
  | some info => info.shards
  | none => ∅

/-- What a turn that visits a source does: it takes what is still missing from the source, and
discards it. -/
theorem assignTurn_cases
    (h : p.assignTurn clients isPushToPs target key needed a = .ok turn) :
    (a.assignedShards = needed ∧ turn = .stop a) ∨
    ∃ source ∈ a.availableSourceClients, ∃ a', turn = discard source a' ∧
      (a' = a ∧ (shardsAt clients key source \ a.assignedShards) ∩ needed = ∅ ∨
        Took p isPushToPs target key source
          ((shardsAt clients key source \ a.assignedShards) ∩ needed) a a') := by
  unfold assignTurn at h
  split at h
  · rename_i hdone
    cases h
    exact .inl ⟨hdone, rfl⟩
  · obtain ⟨source, hsource, h⟩ := bind_eq_ok.mp h
    obtain ⟨clientInfo, hclient, h⟩ := bind_eq_ok.mp h
    obtain ⟨info, hinfo, h⟩ := bind_eq_ok.mp h
    have hshards : shardsAt clients key source = info.shards := by
      simp [shardsAt, Dict.get_eq_ok.mp hclient, Dict.get_eq_ok.mp hinfo]
    refine .inr ⟨source, minVolumeClient_mem hsource, ?_⟩
    rw [hshards]
    split at h
    · rename_i hnone
      cases h
      exact ⟨a, rfl, .inl ⟨rfl, hnone⟩⟩
    · obtain ⟨a', htake, h⟩ := bind_eq_ok.mp h
      cases h
      exact ⟨a', rfl, .inr (take_eq_ok htake)⟩

/-! ### The loop over the sources -/

/-- Every source has a volume, and every client with a dictionary of its own has one. -/
structure Ready (sources targets : ClientGroups) (isPushToPs : Bool)
    (state : Dict String Vol × CommPlan) : Prop where
  volumes : ∀ c ∈ members sources, state.1.get? c ≠ none
  plan : ∀ c ∈ members (if isPushToPs then sources else targets), state.2.get? c ≠ none

theorem Ready.owner {state : Dict String Vol × CommPlan}
    (h : Ready sources targets isPushToPs state) (htarget : target ∈ members targets)
    (hsource : source ∈ members sources) :
    state.2.get? (planOwner isPushToPs target source) ≠ none := by
  cases isPushToPs with
  | false => exact h.plan target htarget
  | true => exact h.plan source hsource

theorem Took.ready {shards : Finset ShardIndex}
    (htook : Took p isPushToPs target key source shards a a')
    (h : Ready sources targets isPushToPs (a.volumes, a.commPlan)) :
    Ready sources targets isPushToPs (a'.volumes, a'.commPlan) :=
  ⟨fun c hc => htook.volumes c (h.volumes c hc),
    fun c hc => CommPlan.get?_assign htook.plan (h.plan c hc)⟩

variable (clients sources targets isPushToPs key needed)

/-- The loop before a visit, when `srcs` were there to be visited at first. -/
structure Visiting (srcs : Finset String) (a : Assignment Vol) : Prop where
  subset : a.availableSourceClients ⊆ srcs
  nonempty : a.availableSourceClients.Nonempty
  assigned : a.assignedShards =
    needed ∩ (srcs \ a.availableSourceClients).biUnion (shardsAt clients key)
  ready : Ready sources targets isPushToPs (a.volumes, a.commPlan)

/-- The loop at its end. -/
structure Visited (srcs : Finset String) (a : Assignment Vol) : Prop where
  assigned : a.assignedShards = needed ↔ needed ⊆ srcs.biUnion (shardsAt clients key)
  ready : Ready sources targets isPushToPs (a.volumes, a.commPlan)

/-- The clients to visit exist and have the tensor. -/
def Providers (srcs : Finset String) : Prop :=
  ∀ c ∈ srcs, c ∈ members sources ∧ ∃ client info, clients.get? c = some client ∧
    client.tensorInfos.get? key = some info ∧ info.Complete

variable {clients sources targets isPushToPs key needed}
variable {srcs : Finset String}

section

variable (h : Visiting clients sources targets isPushToPs key needed srcs a)

include h

theorem assignTurn_ok (hsrcs : Providers clients sources key srcs)
    (htarget : target ∈ members targets) :
    ∃ turn, p.assignTurn clients isPushToPs target key needed a = .ok turn := by
  have hvolumes : ∀ c ∈ a.availableSourceClients, a.volumes.get? c ≠ none :=
    fun c hc => h.ready.volumes c (hsrcs c (h.subset hc)).1
  obtain ⟨source, hsource⟩ := minVolumeClient_ok p target hvolumes h.nonempty
  have hmem := minVolumeClient_mem hsource
  obtain ⟨hmember, client, info, hclient, hinfo, hcomplete⟩ := hsrcs source (h.subset hmem)
  unfold assignTurn
  split
  · exact ⟨_, rfl⟩
  · rw [hsource, ok_bind, Dict.get_eq_ok.mpr hclient, ok_bind, Dict.get_eq_ok.mpr hinfo, ok_bind]
    split
    · exact ⟨_, rfl⟩
    · have hsub : (info.shards \ a.assignedShards) ∩ needed ⊆ info.shards :=
        Finset.inter_subset_left.trans Finset.sdiff_subset
      obtain ⟨a', htake⟩ := take_ok p key hcomplete hsub (hvolumes source hmem)
        (h.ready.owner htarget hmember)
      rw [htake]
      exact ⟨_, rfl⟩

/-- After a visit, what the source has and the target needs is assigned. -/
theorem Visiting.assigned_visit (hmem : source ∈ a.availableSourceClients) :
    a.assignedShards ∪ ((shardsAt clients key source \ a.assignedShards) ∩ needed) =
      needed ∩ (srcs \ a.availableSourceClients.erase source).biUnion (shardsAt clients key) := by
  have hvisited : srcs \ a.availableSourceClients.erase source =
      insert source (srcs \ a.availableSourceClients) :=
    Finset.sdiff_erase (h.subset hmem)
  rw [hvisited, Finset.biUnion_insert, h.assigned]
  ext shard
  simp only [Finset.mem_union, Finset.mem_inter, Finset.mem_sdiff]
  tauto

theorem Visiting.discard (hmem : source ∈ a.availableSourceClients)
    (havailable : a'.availableSourceClients = a.availableSourceClients)
    (hassigned : a'.assignedShards =
      a.assignedShards ∪ ((shardsAt clients key source \ a.assignedShards) ∩ needed))
    (hready : Ready sources targets isPushToPs (a'.volumes, a'.commPlan)) :
    (∃ b, discard source a' = .stop b ∧
      Visited clients sources targets isPushToPs key needed srcs b) ∨
    ∃ b, discard source a' = .next b ∧
      Visiting clients sources targets isPushToPs key needed srcs b ∧
      b.availableSourceClients.card < a.availableSourceClients.card := by
  have hafter := hassigned.trans (h.assigned_visit hmem)
  unfold CommunicationPlanner.discard
  rw [havailable]
  split
  · rename_i hnone
    refine .inl ⟨_, rfl, ?_, hready⟩
    rw [hnone, Finset.sdiff_empty] at hafter
    show a'.assignedShards = needed ↔ _
    rw [hafter, Finset.inter_eq_left]
  · rename_i hsome
    refine .inr ⟨_, rfl, ⟨(Finset.erase_subset _ _).trans h.subset,
      Finset.nonempty_iff_ne_empty.mpr hsome, hafter, hready⟩, ?_⟩
    exact Finset.card_erase_lt_of_mem hmem

/-- A visit either ends the loop or leaves one source less to visit. -/
theorem Visiting.assignTurn (hsrcs : Providers clients sources key srcs)
    (htarget : target ∈ members targets) :
    (∃ b, p.assignTurn clients isPushToPs target key needed a = .ok (.stop b) ∧
      Visited clients sources targets isPushToPs key needed srcs b) ∨
    ∃ b, p.assignTurn clients isPushToPs target key needed a = .ok (.next b) ∧
      Visiting clients sources targets isPushToPs key needed srcs b ∧
      b.availableSourceClients.card < a.availableSourceClients.card := by
  obtain ⟨turn, hturn⟩ := assignTurn_ok (p := p) h hsrcs htarget
  rw [hturn]
  rcases assignTurn_cases hturn with ⟨hdone, rfl⟩ | ⟨source, hmem, a', rfl, hvisit⟩
  · refine .inl ⟨a, rfl, ?_, h.ready⟩
    have hsub : needed ⊆ srcs.biUnion (shardsAt clients key) := by
      have hall := Finset.inter_eq_left.mp (h.assigned.symm.trans hdone)
      exact hall.trans (Finset.biUnion_subset_biUnion_of_subset_left _ Finset.sdiff_subset)
    exact iff_of_true hdone hsub
  · have hdiscard : (∃ b, CommunicationPlanner.discard source a' = .stop b ∧
          Visited clients sources targets isPushToPs key needed srcs b) ∨
        ∃ b, CommunicationPlanner.discard source a' = .next b ∧
          Visiting clients sources targets isPushToPs key needed srcs b ∧
          b.availableSourceClients.card < a.availableSourceClients.card := by
      rcases hvisit with ⟨rfl, hnone⟩ | htook
      · exact h.discard hmem rfl (by rw [hnone, Finset.union_empty]) h.ready
      · exact h.discard hmem htook.available htook.assigned (htook.ready h.ready)
    rcases hdiscard with ⟨b, hb, hvisited⟩ | ⟨b, hb, hvisiting⟩
    · exact .inl ⟨b, by rw [hb], hvisited⟩
    · exact .inr ⟨b, by rw [hb], hvisiting⟩

end

/-- The loop ends after at most one visit to each source. -/
theorem assignLoop_ok {fuel : Nat} {state : Dict String Vol × CommPlan}
    (hsrcs : Providers clients sources key srcs) (hne : srcs.Nonempty)
    (htarget : target ∈ members targets) (hready : Ready sources targets isPushToPs state)
    (hfuel : srcs.card < fuel) :
    ∃ b, whileLoop (p.assignTurn clients isPushToPs target key needed) fuel
        ⟨srcs, ∅, state.1, state.2⟩ = .ok b ∧
      Visited clients sources targets isPushToPs key needed srcs b := by
  have hstart : Visiting clients sources targets isPushToPs key needed srcs
      (⟨srcs, ∅, state.1, state.2⟩ : Assignment Vol) :=
    ⟨Finset.Subset.refl _, hne, by simp, hready⟩
  exact whileLoop_ok (fun a => a.availableSourceClients.card)
    (fun a ha => ha.assignTurn hsrcs htarget) hstart hfuel

/-! ### The groups a target may read from -/

/-- The restriction allows targets of one group to read from sources of the other one. -/
def Paired (p : CommunicationPlanner Vol) (sources targets : ClientGroups) (isPushToPs : Bool)
    (target source : Int) : Prop :=
  p.restrictClientGroupComm = true ∧ isPushToPs = true →
    source % (targets.keys.length : Int) = target % (sources.keys.length : Int)

instance (target source : Int) : Decidable (Paired p sources targets isPushToPs target source) :=
  inferInstanceAs (Decidable (_ → _))

/-- The group ids are numbered from `0` on. -/
def Numbered (groups : ClientGroups) : Prop :=
  groups.keys.Perm ((List.range groups.keys.length).map Int.ofNat)

theorem Numbered.mem_keys_iff {groups : ClientGroups} (h : Numbered groups) {id : Int} :
    id ∈ groups.keys ↔ ∃ n < groups.keys.length, id = (n : Int) := by
  rw [h.mem_iff]
  simp [eq_comm]

/-- The remainder of the target group by the number of source groups is a source group, and as it
is at most the target group, it is its own remainder by the number of target groups. -/
theorem exists_paired (hsources : Numbered sources) (htargets : Numbered targets)
    (hne : sources.keys ≠ []) {target : Int} (htarget : target ∈ targets.keys) :
    ∃ source ∈ sources.keys, Paired p sources targets isPushToPs target source := by
  obtain ⟨n, hn, rfl⟩ := htargets.mem_keys_iff.mp htarget
  have hpos : 0 < sources.keys.length := List.length_pos_iff.mpr hne
  refine ⟨((n % sources.keys.length : Nat) : Int),
    hsources.mem_keys_iff.mpr ⟨_, Nat.mod_lt _ hpos, rfl⟩, fun _ => ?_⟩
  have hle : n % sources.keys.length ≤ n := Nat.mod_le _ _
  have hself : n % sources.keys.length % targets.keys.length = n % sources.keys.length :=
    Nat.mod_eq_of_lt (by omega)
  exact_mod_cast hself

/-- The source groups of a target group. -/
def pairedIds (p : CommunicationPlanner Vol) (sources targets : ClientGroups) (isPushToPs : Bool)
    (target : Int) : List Int :=
  sources.keys.filter fun id => Paired p sources targets isPushToPs target id

theorem mem_pairedIds {target id : Int} : id ∈ pairedIds p sources targets isPushToPs target ↔
    id ∈ sources.keys ∧ Paired p sources targets isPushToPs target id := by
  simp [pairedIds]

theorem sourceGroupIds_eq {target : Int} (h : pairedIds p sources targets isPushToPs target ≠ []) :
    p.sourceGroupIds sources targets isPushToPs target =
      .ok (pairedIds p sources targets isPushToPs target) := by
  unfold sourceGroupIds
  split
  · rename_i hrestrict
    have hids : (sources.keys.filter fun id =>
        id % (targets.keys.length : Int) = target % (sources.keys.length : Int)) =
          pairedIds p sources targets isPushToPs target := by
      refine List.filter_congr fun id _ => ?_
      simp [Paired, hrestrict]
    dsimp only
    rw [hids, pyAssert_of (List.length_pos_iff.mpr h), ok_bind]
    rfl
  · rename_i hfree
    refine congrArg Except.ok (List.filter_eq_self.mpr fun id _ => ?_).symm
    simp [Paired, hfree]

/-- Every target group has some source group, so the assertion on it holds. -/
theorem restrictMapping_ok (hpaired : ∀ target ∈ targets.keys,
    pairedIds p sources targets isPushToPs target ≠ []) :
    ∃ mapping, p.restrictMapping sources targets isPushToPs = .ok mapping ∧
      ∀ target ∈ targets.keys,
        mapping.get? target = some (pairedIds p sources targets isPushToPs target) := by
  refine ⟨_, foldlM_eq_foldl (g := fun mapping target =>
    mapping.set target (pairedIds p sources targets isPushToPs target)) fun mapping target ht => ?_,
    fun target ht => ?_⟩
  · rw [sourceGroupIds_eq (hpaired target ht), ok_bind]
    rfl
  · rw [Dict.get?_foldl_set, if_pos ht]

/-- Two target groups with the same sorted source groups have the same source groups. -/
theorem pairedIds_eq_of_restrictionKey {target target' : Int}
    (h : restrictionKey (pairedIds p sources targets isPushToPs target) =
      restrictionKey (pairedIds p sources targets isPushToPs target')) :
    pairedIds p sources targets isPushToPs target =
      pairedIds p sources targets isPushToPs target' := by
  refine List.filter_congr fun id hid => ?_
  have hmem : id ∈ pairedIds p sources targets isPushToPs target ↔
      id ∈ pairedIds p sources targets isPushToPs target' :=
    calc id ∈ pairedIds p sources targets isPushToPs target
      _ ↔ id ∈ restrictionKey (pairedIds p sources targets isPushToPs target) :=
          (List.mem_insertionSort _).symm
      _ ↔ id ∈ restrictionKey (pairedIds p sources targets isPushToPs target') := by rw [h]
      _ ↔ id ∈ pairedIds p sources targets isPushToPs target' := List.mem_insertionSort _
  rw [mem_pairedIds, mem_pairedIds, and_iff_right hid, and_iff_right hid] at hmem
  exact decide_eq_decide.mpr hmem

/-! ### The sources of a tensor -/

/-- All members of the groups are clients. -/
def Known (clients : Dict String NIXLClientInfo) (groups : ClientGroups) : Prop :=
  ∀ c ∈ members groups, clients.get? c ≠ none

/-- A client of one of the groups has the tensor. -/
def Provides (clients : Dict String NIXLClientInfo) (sources : ClientGroups) (ids : List Int)
    (key source : String) : Prop :=
  ∃ id ∈ ids, ∃ group, sources.get? id = some group ∧ source ∈ group ∧
    ∃ client, clients.get? source = some client ∧ key ∈ client.tensorInfos.keys

theorem mem_members {groups : ClientGroups} {c : String} :
    c ∈ members groups ↔ ∃ id group, groups.get? id = some group ∧ c ∈ group := by
  simp [members, Dict.get?_eq_some_iff]

/-- The keys of a client. -/
def keysAt (clients : Dict String NIXLClientInfo) (client : String) : List String :=
  match clients.get? client with
  | some info => info.tensorInfos.keys
  | none => []

theorem mem_keysAt {client : String} : key ∈ keysAt clients client ↔
    ∃ info, clients.get? client = some info ∧ key ∈ info.tensorInfos.keys := by
  unfold keysAt
  cases clients.get? client <;> simp

/-- Without exceptions, the loop over groups and clients is one over all clients of the groups. -/
theorem keyToSrcs_eq {ids : List Int} (hknown : Known clients sources)
    (hids : ∀ id ∈ ids, id ∈ sources.keys) :
    keyToSrcs clients sources ids =
      .ok ((ids.flatMap fun id => (sources.get? id).getD []).foldl (fun keyToSrcs src =>
        (keysAt clients src).foldl (fun keyToSrcs key => keyToSrcs.append key src) keyToSrcs)
        .empty) := by
  rw [List.foldl_flatMap]
  refine foldlM_eq_foldl fun keyToSrcs id hid => ?_
  obtain ⟨group, hgroup⟩ := Dict.mem_keys_iff.mp (hids id hid)
  rw [Dict.get_eq_ok.mpr hgroup, ok_bind, hgroup, Option.getD_some]
  refine foldlM_eq_foldl fun keyToSrcs src hsrc => ?_
  obtain ⟨info, hinfo⟩ :=
    Option.ne_none_iff_exists'.mp (hknown src (mem_members.mpr ⟨id, group, hgroup, hsrc⟩))
  rw [Dict.get_eq_ok.mpr hinfo, ok_bind]
  simp [keysAt, hinfo]

theorem keyToSrcs_ok {ids : List Int} (hknown : Known clients sources)
    (hids : ∀ id ∈ ids, id ∈ sources.keys) :
    ∃ d, keyToSrcs clients sources ids = .ok d ∧ d.NoEmptyList ∧
      ∀ key source, d.Listed key source ↔ Provides clients sources ids key source := by
  refine ⟨_, keyToSrcs_eq hknown hids,
    Dict.NoEmptyList.foldl_keysOf fun _ _ hget => (by cases hget), fun key source => ?_⟩
  have hempty : ¬ (Dict.empty : Dict String (List String)).Listed key source := by
    rintro ⟨l, hl, -⟩
    cases hl
  rw [Dict.listed_foldl_keysOf_iff, or_iff_right hempty, mem_keysAt, List.mem_flatMap]
  constructor
  · rintro ⟨⟨id, hid, hmem⟩, hkey⟩
    obtain ⟨group, hgroup⟩ := Dict.mem_keys_iff.mp (hids id hid)
    rw [hgroup] at hmem
    exact ⟨id, hid, group, hgroup, hmem, hkey⟩
  · rintro ⟨id, hid, group, hgroup, hmem, hkey⟩
    refine ⟨⟨id, hid, ?_⟩, hkey⟩
    rw [hgroup]
    exact hmem

/-- The cache has, under its sorted source groups, what `keyToSrcs` computes for a target group. -/
def Caches (p : CommunicationPlanner Vol) (clients : Dict String NIXLClientInfo)
    (sources targets : ClientGroups) (isPushToPs : Bool)
    (cache : Dict (List Int) (Dict String (List String))) : Prop :=
  ∀ target d, cache.get? (restrictionKey (pairedIds p sources targets isPushToPs target)) = some d →
    keyToSrcs clients sources (pairedIds p sources targets isPushToPs target) = .ok d

theorem fillCache_ok {mapping : Dict Int (List Int)} (hknown : Known clients sources)
    (hmapping : ∀ target ∈ targets.keys,
      mapping.get? target = some (pairedIds p sources targets isPushToPs target)) :
    ∀ {l : List Int} {cache : Dict (List Int) (Dict String (List String))},
      (∀ target ∈ l, target ∈ targets.keys) → Caches p clients sources targets isPushToPs cache →
      ∃ cache', l.foldlM (fun cache target => do
          let ids ← mapping.get target
          if restrictionKey ids ∈ cache.keys then return cache
          else
            let srcs ← keyToSrcs clients sources ids
            return cache.set (restrictionKey ids) srcs) cache = .ok cache' ∧
        Caches p clients sources targets isPushToPs cache' ∧
        (∀ k, cache.get? k ≠ none → cache'.get? k ≠ none) ∧
        ∀ target ∈ l,
          cache'.get? (restrictionKey (pairedIds p sources targets isPushToPs target)) ≠ none
  | [], cache, _, hcache => ⟨cache, rfl, hcache, fun _ h => h, fun _ h => by cases h⟩
  | target :: l, cache, hl, hcache => by
      have hrest : ∀ target ∈ l, target ∈ targets.keys :=
        fun target ht => hl target (List.mem_cons_of_mem _ ht)
      rw [List.foldlM_cons,
        Dict.get_eq_ok.mpr (hmapping target (hl target (List.mem_cons_self ..))),
        ok_bind]
      split
      · rename_i hmem
        obtain ⟨cache', hfold, hcache', hgrow, hall⟩ := fillCache_ok hknown hmapping hrest hcache
        obtain ⟨d, hd⟩ := Dict.mem_keys_iff.mp hmem
        refine ⟨cache', hfold, hcache', hgrow, List.forall_mem_cons.mpr ⟨hgrow _ ?_, hall⟩⟩
        rw [hd]
        exact Option.some_ne_none d
      · obtain ⟨d, hd, -⟩ := keyToSrcs_ok hknown fun id hid => (mem_pairedIds.mp hid).1
        have hset : Caches p clients sources targets isPushToPs (cache.set
            (restrictionKey (pairedIds p sources targets isPushToPs target)) d) := by
          intro target' d' hget
          rw [Dict.get?_set] at hget
          split at hget
          · rename_i hkey
            cases hget
            rw [pairedIds_eq_of_restrictionKey hkey]
            exact hd
          · exact hcache target' d' hget
        obtain ⟨cache', hfold, hcache', hgrow, hall⟩ := fillCache_ok hknown hmapping hrest hset
        rw [hd, ok_bind]
        refine ⟨cache', hfold, hcache', fun k hk => hgrow k (Dict.get?_set_ne_none (.inr hk)),
          List.forall_mem_cons.mpr ⟨hgrow _ (Dict.get?_set_ne_none (.inl rfl)), hall⟩⟩

theorem keyToSourcesByRestriction_ok {mapping : Dict Int (List Int)}
    (hknown : Known clients sources) (hmapping : ∀ target ∈ targets.keys,
      mapping.get? target = some (pairedIds p sources targets isPushToPs target)) :
    ∃ cache, keyToSourcesByRestriction clients sources targets mapping = .ok cache ∧
      ∀ target ∈ targets.keys, ∃ d,
        cache.get? (restrictionKey (pairedIds p sources targets isPushToPs target)) = some d ∧
        d.NoEmptyList ∧ ∀ key source, d.Listed key source ↔
          Provides clients sources (pairedIds p sources targets isPushToPs target) key source := by
  have hempty : Caches p clients sources targets isPushToPs .empty := fun _ _ h => by cases h
  obtain ⟨cache, hfold, hcache, -, hall⟩ :=
    fillCache_ok hknown hmapping (fun _ h => h) hempty
  refine ⟨cache, hfold, fun target ht => ?_⟩
  obtain ⟨d, hd⟩ := Option.ne_none_iff_exists'.mp (hall target ht)
  obtain ⟨d', hd', hnonempty, hlisted⟩ := keyToSrcs_ok hknown
    fun id (hid : id ∈ pairedIds p sources targets isPushToPs target) => (mem_pairedIds.mp hid).1
  rw [hcache target d hd] at hd'
  cases hd'
  exact ⟨d, hd, hnonempty, hlisted⟩

/-! ### All targets -/

variable (p clients sources targets isPushToPs)

/-- The client can send shards of a tensor to targets of the group. -/
def MaySend (group : Int) (key source : String) (info : NIXLTensorInfo) : Prop :=
  ∃ id names, sources.get? id = some names ∧ Paired p sources targets isPushToPs group id ∧
    source ∈ names ∧ ∃ client, clients.get? source = some client ∧
      client.tensorInfos.get? key = some info

/-- The tensor is at some source the targets of the group may read from, and so is every shard
that is needed. -/
def KeyCovered (group : Int) (item : String × NIXLTensorInfo) : Prop :=
  (∃ source info, MaySend p clients sources targets isPushToPs group item.1 source info) ∧
    ∀ shard ∈ item.2.sharding.shardIndices, ∃ source info,
      MaySend p clients sources targets isPushToPs group item.1 source info ∧
        shard ∈ info.sharding.shardIndices

/-- Everything the targets need is at sources they may read from. -/
def Covered : Prop :=
  ∀ group names, targets.get? group = some names → ∀ target ∈ names, ∀ client,
    clients.get? target = some client → ∀ key info, client.tensorInfos.get? key = some info →
      KeyCovered p clients sources targets isPushToPs group (key, info)

/-- Every tensor info of a client has one descriptor and one meta info for each shard. -/
def AllComplete : Prop :=
  ∀ c client key info, clients.get? c = some client → client.tensorInfos.get? key = some info →
    info.Complete

variable {p clients sources targets isPushToPs}
variable {group : Int} {ids : List Int} {fuel : Nat} {state : Dict String Vol × CommPlan}
  {keyToSrcs : Dict String (List String)}

theorem mem_shardsAt {shard : ShardIndex} : shard ∈ shardsAt clients key source ↔
    ∃ client info, clients.get? source = some client ∧ client.tensorInfos.get? key = some info ∧
      shard ∈ info.sharding.shardIndices := by
  unfold shardsAt
  cases hclient : clients.get? source with
  | none => simp
  | some client => cases hinfo : client.tensorInfos.get? key <;>
      simp [hinfo, NIXLTensorInfo.shards]

theorem provides_iff_maySend :
    Provides clients sources (pairedIds p sources targets isPushToPs group) key source ↔
      ∃ info, MaySend p clients sources targets isPushToPs group key source info := by
  constructor
  · rintro ⟨id, hid, names, hnames, hsource, client, hclient, hkey⟩
    obtain ⟨info, hinfo⟩ := Dict.mem_keys_iff.mp hkey
    exact ⟨info, id, names, hnames, (mem_pairedIds.mp hid).2, hsource, client, hclient, hinfo⟩
  · rintro ⟨info, id, names, hnames, hpaired, hsource, client, hclient, hinfo⟩
    exact ⟨id, mem_pairedIds.mpr ⟨Dict.mem_keys_iff.mpr ⟨names, hnames⟩, hpaired⟩, names, hnames,
      hsource, client, hclient, Dict.mem_keys_iff.mpr ⟨info, hinfo⟩⟩

/-- The needed shards are at the listed sources exactly if they are at sources that may send. -/
theorem subset_shardsAt_iff {shards : List ShardIndex} {srcs : List String}
    (hsrcs : ∀ source, source ∈ srcs ↔
      ∃ info, MaySend p clients sources targets isPushToPs group key source info) :
    shards.toFinset ⊆ srcs.toFinset.biUnion (shardsAt clients key) ↔
      ∀ shard ∈ shards, ∃ source info,
        MaySend p clients sources targets isPushToPs group key source info ∧
          shard ∈ info.sharding.shardIndices := by
  rw [Finset.subset_iff]
  refine forall_congr' fun shard => ?_
  rw [List.mem_toFinset, Finset.mem_biUnion]
  refine imp_congr_right fun _ => exists_congr fun source => ?_
  rw [List.mem_toFinset, hsrcs, mem_shardsAt]
  constructor
  · rintro ⟨⟨info, hsend⟩, client, info', hclient, hinfo', hshard⟩
    have heq : info' = info := by
      obtain ⟨-, -, -, -, -, client', hclient', hinfo⟩ := hsend
      rw [hclient, Option.some.injEq] at hclient'
      subst hclient'
      rw [hinfo, Option.some.injEq] at hinfo'
      exact hinfo'.symm
    exact ⟨info, hsend, heq ▸ hshard⟩
  · rintro ⟨info, hsend, hshard⟩
    obtain ⟨-, -, -, -, -, client, hclient, hinfo⟩ := id hsend
    exact ⟨⟨info, hsend⟩, client, info, hclient, hinfo, hshard⟩

/-- A source that may send is one the loop can visit. -/
theorem MaySend.provider (hcomplete : AllComplete clients) {info : NIXLTensorInfo}
    (h : MaySend p clients sources targets isPushToPs group key source info) :
    source ∈ members sources ∧ ∃ client info, clients.get? source = some client ∧
      client.tensorInfos.get? key = some info ∧ info.Complete := by
  obtain ⟨id, names, hnames, -, hsource, client, hclient, hinfo⟩ := h
  exact ⟨mem_members.mpr ⟨id, names, hnames, hsource⟩, client, info, hclient, hinfo,
    hcomplete source client key info hclient hinfo⟩

/-- The assignment of one tensor succeeds exactly if its shards are covered. -/
theorem assignKey_asserts (hcomplete : AllComplete clients) (hnonempty : keyToSrcs.NoEmptyList)
    (hlisted : ∀ key source, keyToSrcs.Listed key source ↔
      Provides clients sources (pairedIds p sources targets isPushToPs group) key source)
    (htarget : target ∈ members targets) (hfuel : (members sources).toFinset.card < fuel)
    (hready : Ready sources targets isPushToPs state) (item : String × NIXLTensorInfo) :
    Asserts (p.assignKey fuel clients sources isPushToPs ids keyToSrcs target state item)
      (KeyCovered p clients sources targets isPushToPs group item)
      (Ready sources targets isPushToPs) := by
  unfold assignKey
  cases hget : keyToSrcs.get? item.1 with
  | none =>
      refine ⟨fun hcovered => ?_, fun _ => ⟨_, rfl⟩⟩
      obtain ⟨⟨source, hsend⟩, -⟩ := hcovered
      exact absurd ((hlisted _ _).mpr (provides_iff_maySend.mpr hsend))
        ((hnonempty.get?_eq_none_iff).mp hget source)
  | some srcs =>
      have hsrcs : ∀ source, source ∈ srcs ↔
          ∃ info, MaySend p clients sources targets isPushToPs group item.1 source info := by
        intro source
        rw [← provides_iff_maySend, ← hlisted]
        simp [Dict.Listed, hget]
      have hproviders : Providers clients sources item.1 srcs.toFinset := by
        intro c hc
        obtain ⟨info, hsend⟩ := (hsrcs c).mp (List.mem_toFinset.mp hc)
        exact hsend.provider hcomplete
      have hcard : srcs.toFinset.card < fuel := by
        refine lt_of_le_of_lt (Finset.card_le_card fun c hc => ?_) hfuel
        exact List.mem_toFinset.mpr (hproviders c hc).1
      obtain ⟨first, hfirst⟩ := List.exists_mem_of_ne_nil srcs (hnonempty _ _ hget)
      obtain ⟨b, hloop, hvisited⟩ := assignLoop_ok (p := p) hproviders
        ⟨first, List.mem_toFinset.mpr hfirst⟩ htarget hready hcard
      have hcovered : b.assignedShards = item.2.shards ↔
          KeyCovered p clients sources targets isPushToPs group item := by
        rw [hvisited.assigned]
        refine (subset_shardsAt_iff hsrcs).trans ?_
        exact (and_iff_right ⟨first, (hsrcs first).mp hfirst⟩).symm
      dsimp only
      rw [hloop, ok_bind]
      by_cases hall : b.assignedShards = item.2.shards
      · rw [pyAssert_of hall]
        exact ⟨fun _ => ⟨_, rfl, hvisited.ready⟩, fun h => absurd (hcovered.mp hall) h⟩
      · refine ⟨fun h => absurd (hcovered.mpr h) hall, fun _ =>
          ⟨notAllAssigned target item.1 item.2.shards b.assignedShards, ?_⟩⟩
        rw [pyAssert, if_neg hall]
        rfl

/-- The planner's input: the groups consist of clients, and tensor infos are complete. -/
structure Setting (clients : Dict String NIXLClientInfo) (sources targets : ClientGroups) :
    Prop where
  sources : Known clients sources
  targets : Known clients targets
  complete : AllComplete clients

theorem get?_forMembers {ν : Type} (groups : ClientGroups) (value : ν) {c : String}
    (hc : c ∈ members groups) : (forMembers groups value).get? c ≠ none := by
  have hget : (forMembers groups value).get? c =
      if c ∈ members groups then some value else none := Dict.get?_foldl_set (fun _ => value) c
  rw [if_pos hc] at hget
  exact hget ▸ Option.some_ne_none value

/-- The assignment of all tensors of a target succeeds exactly if each of them is covered. -/
theorem assignTarget_asserts (hset : Setting clients sources targets)
    (hnonempty : keyToSrcs.NoEmptyList)
    (hlisted : ∀ key source, keyToSrcs.Listed key source ↔
      Provides clients sources (pairedIds p sources targets isPushToPs group) key source)
    (htarget : target ∈ members targets) (hfuel : (members sources).toFinset.card < fuel)
    (hready : Ready sources targets isPushToPs state) :
    Asserts (p.assignTarget fuel clients sources isPushToPs ids keyToSrcs state target)
      (∀ client, clients.get? target = some client → ∀ key info,
        client.tensorInfos.get? key = some info →
          KeyCovered p clients sources targets isPushToPs group (key, info))
      (Ready sources targets isPushToPs) := by
  obtain ⟨client, hclient⟩ := Option.ne_none_iff_exists'.mp (hset.targets target htarget)
  unfold assignTarget
  rw [Dict.get_eq_ok.mpr hclient, raising_ok, ok_bind]
  refine (Asserts.foldlM (fun state item _ hready => assignKey_asserts hset.complete hnonempty
    hlisted htarget hfuel hready item) hready).of_iff ?_
  constructor
  · intro h client' hclient' key info hinfo
    rw [hclient, Option.some.injEq] at hclient'
    subst hclient'
    exact h (key, info) (Dict.get?_eq_some_iff.mp hinfo)
  · intro h item hitem
    exact h client hclient item.1 item.2 (Dict.get?_eq_some_iff.mpr hitem)

/-- With a source group for every target group, the plan is made exactly if everything the targets
need is covered; otherwise an assertion fails. -/
theorem makeCommPlanGeneric_asserts (hset : Setting clients sources targets)
    (hpaired : ∀ target ∈ targets.keys, pairedIds p sources targets isPushToPs target ≠ [])
    (hfuel : (members sources).toFinset.card < fuel) :
    Asserts (p.makeCommPlanGeneric fuel clients sources targets
        (forMembers (if isPushToPs then sources else targets) .empty) isPushToPs)
      (Covered p clients sources targets isPushToPs) (fun _ => True) := by
  obtain ⟨mapping, hmap, hmapping⟩ := restrictMapping_ok hpaired
  obtain ⟨cache, hfill, hcache⟩ := keyToSourcesByRestriction_ok hset.sources hmapping
  have hready : Ready sources targets isPushToPs
      (forMembers sources p.arith.zero,
        forMembers (if isPushToPs then sources else targets) .empty) :=
    ⟨fun c hc => get?_forMembers _ _ hc, fun c hc => get?_forMembers _ _ hc⟩
  have hgroup : ∀ (state : Dict String Vol × CommPlan), ∀ item ∈ targets.items,
      Ready sources targets isPushToPs state →
      Asserts (p.assignGroup fuel clients sources isPushToPs mapping cache state item)
        (∀ target ∈ item.2, ∀ client, clients.get? target = some client → ∀ key info,
          client.tensorInfos.get? key = some info →
            KeyCovered p clients sources targets isPushToPs item.1 (key, info))
        (Ready sources targets isPushToPs) := by
    intro state item hitem hready
    have hnames : targets.get? item.1 = some item.2 := Dict.get?_eq_some_iff.mpr hitem
    have hkey : item.1 ∈ targets.keys := Dict.mem_keys_iff.mpr ⟨_, hnames⟩
    obtain ⟨keyToSrcs, hget, hnonempty, hlisted⟩ := hcache item.1 hkey
    unfold assignGroup
    rw [Dict.get_eq_ok.mpr (hmapping item.1 hkey), raising_ok, ok_bind,
      Dict.get_eq_ok.mpr hget, raising_ok, ok_bind]
    refine Asserts.foldlM (fun state target ht hready => ?_) hready
    exact assignTarget_asserts hset hnonempty hlisted
      (mem_members.mpr ⟨item.1, item.2, hnames, ht⟩) hfuel hready
  unfold makeCommPlanGeneric
  rw [hmap, raising_ok, ok_bind, hfill, raising_ok, ok_bind]
  refine ((Asserts.foldlM hgroup hready).map Prod.snd fun _ _ => trivial).of_iff ?_
  constructor
  · intro h group names hnames
    exact h (group, names) (Dict.get?_eq_some_iff.mp hnames)
  · intro h item hitem
    exact h item.1 item.2 (Dict.get?_eq_some_iff.mpr hitem)

/-- **Plan existence.** However links and volumes order the sources: the assertion that a target
group has a source group holds, the planner ends, and it succeeds exactly if every tensor of every
target, and every shard of it that the target needs, is at some source of the groups allowed for
the target; otherwise an assertion fails. -/
theorem makeCommPlanGeneric_ok_iff (p : CommunicationPlanner Vol)
    (hset : Setting clients sources targets) (hsources : Numbered sources)
    (htargets : Numbered targets) (hne : sources.keys ≠ []) (isPushToPs : Bool)
    (hfuel : (members sources).toFinset.card < fuel) :
    (∃ mapping, p.restrictMapping sources targets isPushToPs = .ok mapping) ∧
    ((∃ plan, p.makeCommPlanGeneric fuel clients sources targets
        (forMembers (if isPushToPs then sources else targets) .empty) isPushToPs = .ok plan) ↔
      Covered p clients sources targets isPushToPs) ∧
    ((∃ plan, p.makeCommPlanGeneric fuel clients sources targets
        (forMembers (if isPushToPs then sources else targets) .empty) isPushToPs = .ok plan) ∨
      ∃ msg, p.makeCommPlanGeneric fuel clients sources targets
        (forMembers (if isPushToPs then sources else targets) .empty) isPushToPs =
          .error (.raised (.assertionError msg))) := by
  have hpaired : ∀ target ∈ targets.keys,
      pairedIds p sources targets isPushToPs target ≠ [] := by
    intro target htarget
    obtain ⟨source, hmem, hpair⟩ :=
      exists_paired (p := p) hsources htargets hne htarget
    exact List.ne_nil_of_mem (mem_pairedIds.mpr ⟨hmem, hpair⟩)
  obtain ⟨mapping, hmap, -⟩ := restrictMapping_ok hpaired
  have hasserts := makeCommPlanGeneric_asserts hset hpaired hfuel
  exact ⟨⟨mapping, hmap⟩, hasserts.ok_iff, hasserts.ends⟩

/-- Volumes as exact numbers. -/
def exactVolumes : VolumeArith Rat where
  zero := 0
  add := (· + ·)
  lt a b := a < b
  transferTime size link := size / (link.bandwidthGbps * 10 ^ 9)

/-- A planner with the group restriction for clients that are all on one node. -/
def nodePlanner : CommunicationPlanner Rat where
  restrictClientGroupComm := true
  link _ _ := ⟨.nvlink, 900, by decide⟩
  setOrder := SetOrder.ofLinearOrder String
  arith := exactVolumes

/-- The info of a tensor cut into two shards, some of which are there. -/
def halves (shardIndices : List ShardIndex) : NIXLTensorInfo where
  sharding := ⟨Dict.empty.set 0 2, Dict.empty.set 0 shardIndices.length, shardIndices⟩
  numLocalShards := shardIndices.length
  shardMetaInfos := shardIndices.map fun _ => ⟨[4], 2⟩

/-- Two push groups with one half of a tensor each, and a server that needs both. -/
def twoPushers : Dict String NIXLClientInfo :=
  ((Dict.empty.set "push0" ⟨Dict.empty.set "w" (halves [[0]])⟩).set
    "push1" ⟨Dict.empty.set "w" (halves [[1]])⟩).set
    "ps" ⟨Dict.empty.set "w" (halves [[0], [1]])⟩

def pushGroups : ClientGroups := (Dict.empty.set 0 ["push0"]).set 1 ["push1"]

def psGroups : ClientGroups := Dict.empty.set 0 ["ps"]

theorem halves_complete (shardIndices : List ShardIndex) : (halves shardIndices).Complete :=
  ⟨rfl, List.length_map _⟩

theorem twoPushers_setting : Setting twoPushers pushGroups psGroups := by
  refine ⟨by unfold Known; decide +kernel, by unfold Known; decide +kernel, ?_⟩
  intro c client key info hclient hinfo
  have hitems : twoPushers.items = [
      ("push0", ⟨Dict.empty.set "w" (halves [[0]])⟩),
      ("push1", ⟨Dict.empty.set "w" (halves [[1]])⟩),
      ("ps", ⟨Dict.empty.set "w" (halves [[0], [1]])⟩)] := rfl
  have hclient := Dict.get?_eq_some_iff.mp hclient
  rw [hitems] at hclient
  have hone : ∀ l, (Dict.empty.set "w" (halves l)).get? key = some info → info.Complete := by
    intro l hget
    rw [Dict.get?_set] at hget
    split at hget
    · cases hget
      exact halves_complete l
    · cases hget
  simp only [List.mem_cons, Prod.mk.injEq, List.not_mem_nil, or_false] at hclient
  rcases hclient with ⟨-, rfl⟩ | ⟨-, rfl⟩ | ⟨-, rfl⟩
  all_goals exact hone _ hinfo

/-- Both halves are there, so the server gets its plan. -/
theorem makeCommPlanGeneric_ok_iff_twoPushers :
    (∃ plan, nodePlanner.makeCommPlanGeneric 3 twoPushers pushGroups psGroups
      (forMembers pushGroups .empty) true = .ok plan) ∧
    Covered nodePlanner twoPushers pushGroups psGroups true := by
  have hnumbered : Numbered pushGroups ∧ Numbered psGroups := by
    unfold Numbered
    decide +kernel
  have hiff := (makeCommPlanGeneric_ok_iff nodePlanner twoPushers_setting hnumbered.1 hnumbered.2
    (by decide +kernel) true (by decide +kernel : _ < 3)).2.1
  have hrun : ((nodePlanner.makeCommPlanGeneric 3 twoPushers pushGroups psGroups
      (forMembers pushGroups .empty) true).toOption.map fun _ => ()) = some () := by
    decide +kernel
  obtain ⟨plan, hplan, -⟩ := Option.map_eq_some_iff.mp hrun
  have hplan := toOption_eq_some_iff.mp hplan
  exact ⟨⟨plan, hplan⟩, hiff.mp ⟨plan, hplan⟩⟩

end CommunicationPlanner

end Psrl
