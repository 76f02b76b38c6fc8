import Psrl.Lib.Loop
import Psrl.Lib.Multimap
import Psrl.Nixl.Sharding

/-!
# Psrl.Nixl.CommPlan

The communication planner (`utils/nixl/comm_plan.py`).

For every target client and every tensor of it, `_make_comm_plan_generic` assigns the shards the
target needs to source clients: it visits the sources by link priority and by the volume they
have already been given, takes from each what is still missing, and never visits one twice. With
the group restriction, pushes only use sources of matching groups.

The order of the visits depends on the order a set is iterated in and on floating point volumes.
Both are parameters (`SetOrder`, `VolumeArith`) of which nothing is assumed.
-/

namespace Psrl

open Py

/-! ### Clients and links -/

/-- What the size of a shard is computed from (`NIXLShardMetaInfo`). -/
structure NIXLShardMetaInfo where
  shape : List Nat
  itemsize : Nat

/-- `NIXLTensorInfo`, with the length of its list of descriptors. -/
structure NIXLTensorInfo where
  sharding : NIXLSharding
  numLocalShards : Nat
  shardMetaInfos : List NIXLShardMetaInfo

namespace NIXLTensorInfo

/-- The shards of the tensor. -/
def shards (info : NIXLTensorInfo) : Finset ShardIndex := info.sharding.shardIndices.toFinset

/-- `get_shard_size_bytes`. -/
def getShardSizeBytes (info : NIXLTensorInfo) (localPos : Nat) : Except PyError Nat := do
  pyAssert (localPos < info.numLocalShards)
    s!"Shard position {localPos} is out of range for tensor with {info.numLocalShards} shards"
  match info.shardMetaInfos[localPos]? with
  | some shardMeta => .ok (shardMeta.shape.prod * shardMeta.itemsize)
  | none => .error (.indexError "list index out of range")

/-- There is one descriptor and one meta info for each shard (`register_local_tensors`). -/
structure Complete (info : NIXLTensorInfo) : Prop where
  descs : info.numLocalShards = info.sharding.shardIndices.length
  metas : info.shardMetaInfos.length = info.sharding.shardIndices.length

end NIXLTensorInfo

structure NIXLClientInfo where
  tensorInfos : Dict String NIXLTensorInfo

inductive LinkType
  | eth
  | ibPcie
  | pcie
  | ib
  | nvlink
  | «local»
  deriving Repr, DecidableEq

/-- The `priority_map` of `get_link_priority`. -/
def LinkType.priority : LinkType → Int
  | .local => 5
  | .nvlink => 4
  | .ib => 3
  | .pcie => 2
  | .ibPcie => 1
  | .eth => 0

structure NetworkLink where
  linkType : LinkType
  bandwidthGbps : Rat
  bandwidth_pos : 0 < bandwidthGbps

/-- The floating point arithmetic of the volumes. -/
structure VolumeArith (Vol : Type) where
  zero : Vol
  add : Vol → Vol → Vol
  lt : Vol → Vol → Bool
  /-- `shard_size_bytes / (bandwidth_gbps * 1e9)`. -/
  transferTime : Nat → NetworkLink → Vol

/-- Client names by client group id. -/
abbrev ClientGroups := Dict Int (List String)

/-- `{push_client: {key: {ps_client: shards}}}`, or `{pull_client: {key: {ps_client: shards}}}`. -/
abbrev CommPlan := Dict String (Dict String (Dict String (List ShardIndex)))

/-- `comm_plan[outer][key][inner] = shards`, with the dictionary of a new key. -/
def CommPlan.assign (plan : CommPlan) (outer key inner : String) (shards : List ShardIndex) :
    Except PyError CommPlan := do
  let keyPlans ← plan.get outer
  return plan.set outer (keyPlans.set key (((keyPlans.get? key).getD .empty).set inner shards))

/-! ### The planner -/

/-- `CommunicationPlanner`, with the global topology and the order in which it visits sets. -/
structure CommunicationPlanner (Vol : Type) where
  restrictClientGroupComm : Bool
  link : String → String → NetworkLink
  setOrder : SetOrder String
  arith : VolumeArith Vol

/-- What the assignment of the shards of one tensor of one target changes. -/
structure Assignment (Vol : Type) where
  availableSourceClients : Finset String
  assignedShards : Finset ShardIndex
  volumes : Dict String Vol
  commPlan : CommPlan

namespace CommunicationPlanner

variable {Vol : Type} (p : CommunicationPlanner Vol)

/-- The source groups a target group may read from. -/
def sourceGroupIds (sources targets : ClientGroups) (isPushToPs : Bool) (target : Int) :
    Except PyError (List Int) :=
  if p.restrictClientGroupComm = true ∧ isPushToPs = true then do
    let ids := sources.keys.filter fun id =>
      id % (targets.keys.length : Int) = target % (sources.keys.length : Int)
    let names := stringsText ((targets.get? target).getD [])
    pyAssert (0 < ids.length) ("No source client group ids found for target client group "
      ++ s!"(id: {target}, client_names: {names})")
    return ids
  else .ok sources.keys

/-- `restrict_target_to_source_client_group_mapping`. -/
def restrictMapping (sources targets : ClientGroups) (isPushToPs : Bool) :
    Except PyError (Dict Int (List Int)) :=
  targets.keys.foldlM (fun mapping target => do
    let ids ← p.sourceGroupIds sources targets isPushToPs target
    return mapping.set target ids) .empty

/-- The clients of the given groups that have a key, for every key. -/
def keyToSrcs (clients : Dict String NIXLClientInfo) (sources : ClientGroups)
    (restrictIds : List Int) : Except PyError (Dict String (List String)) :=
  restrictIds.foldlM (fun keyToSrcs id => do
    let group ← sources.get id
    group.foldlM (fun keyToSrcs src => do
      let info ← clients.get src
      return info.tensorInfos.keys.foldl (fun keyToSrcs key => keyToSrcs.append key src) keyToSrcs)
      keyToSrcs) .empty

/-- `tuple(sorted(restrict_ids))`. -/
def restrictionKey (restrictIds : List Int) : List Int := restrictIds.insertionSort (· ≤ ·)

/-- `key_to_sources_by_restriction`. -/
def keyToSourcesByRestriction (clients : Dict String NIXLClientInfo)
    (sources targets : ClientGroups) (mapping : Dict Int (List Int)) :
    Except PyError (Dict (List Int) (Dict String (List String))) :=
  targets.keys.foldlM (fun cache target => do
    let ids ← mapping.get target
    if restrictionKey ids ∈ cache.keys then return cache
    else
      let srcs ← keyToSrcs clients sources ids
      return cache.set (restrictionKey ids) srcs) .empty

/-- `get_shard_pos_map`: the position of each shard. -/
def shardPosMap (info : NIXLTensorInfo) : Dict ShardIndex Nat :=
  info.sharding.shardIndices.zipIdx.foldl (fun positions (shard, i) => positions.set shard i) .empty

/-- The bytes of some shards of a tensor. -/
def shardSizeBytes (info : NIXLTensorInfo) (shards : List ShardIndex) : Except PyError Nat := do
  let localIndices ← shards.mapM fun shard => (shardPosMap info).get shard
  let sizes ← localIndices.mapM info.getShardSizeBytes
  return sizes.sum

/-- `sort_key`. -/
def sortKey (volumes : Dict String Vol) (target source : String) : Except PyError (Int × Vol) := do
  let volume ← volumes.get source
  return (-(p.link source target).linkType.priority, volume)

/-- `a < b` for two sort keys. -/
def keyLess (a b : Int × Vol) : Bool := a.1 < b.1 || (a.1 = b.1 && p.arith.lt a.2 b.2)

/-- `min(available_source_clients, key=sort_key)`. -/
def minVolumeClient (volumes : Dict String Vol) (target : String) (available : Finset String) :
    Except PyError String := do
  let keyed ← (p.setOrder.toList available).mapM fun source => do
    let sortKey ← p.sortKey volumes target source
    return (source, sortKey)
  match keyed with
  | [] => .error (.valueError "min() iterable argument is empty")
  | first :: rest =>
      .ok (rest.foldl (fun best c => if p.keyLess c.2 best.2 then c else best) first).1

/-- The tuples of a set of shards in ascending order. -/
def sortedShards (shards : Finset ShardIndex) : List ShardIndex :=
  (SetOrder.ofLinearOrder ShardIndex).toList shards

/-- `available_source_clients.discard(source)`, and the `break` when none is left. -/
def discard (source : String) (a : Assignment Vol) : LoopTurn (Assignment Vol) :=
  if a.availableSourceClients.erase source = ∅ then
    .stop { a with availableSourceClients := a.availableSourceClients.erase source }
  else .next { a with availableSourceClients := a.availableSourceClients.erase source }

/-- The assignment of shards to the chosen source. -/
def take (isPushToPs : Bool) (target key source : String) (info : NIXLTensorInfo)
    (shards : List ShardIndex) (a : Assignment Vol) : Except PyError (Assignment Vol) := do
  let commPlan ← if isPushToPs then a.commPlan.assign source key target shards
    else a.commPlan.assign target key source shards
  let size ← shardSizeBytes info shards
  let volume ← a.volumes.get source
  return { a with
    assignedShards := a.assignedShards ∪ shards.toFinset
    commPlan := commPlan
    volumes := a.volumes.set source
      (p.arith.add volume (p.arith.transferTime size (p.link source target))) }

/-- One turn of the loop `while assigned_shards != needed_shards`. -/
def assignTurn (clients : Dict String NIXLClientInfo) (isPushToPs : Bool) (target key : String)
    (needed : Finset ShardIndex) (a : Assignment Vol) :
    Except PyError (LoopTurn (Assignment Vol)) :=
  if a.assignedShards = needed then .ok (.stop a)
  else do
    let source ← p.minVolumeClient a.volumes target a.availableSourceClients
    let clientInfo ← clients.get source
    let info ← clientInfo.tensorInfos.get key
    if (info.shards \ a.assignedShards) ∩ needed = ∅ then return discard source a
    else
      let a ← p.take isPushToPs target key source info
        (sortedShards ((info.shards \ a.assignedShards) ∩ needed)) a
      return discard source a

/-- `client_keys_info`: the keys of the clients of the given groups. -/
def clientKeysInfo (clients : Dict String NIXLClientInfo) (sources : ClientGroups)
    (restrictIds : List Int) : Dict String (List String) :=
  restrictIds.foldl (fun info id => ((sources.get? id).getD []).foldl (fun info source =>
    info.set source (((clients.get? source).map (·.tensorInfos.keys)).getD [])) info) .empty

/-- What is raised for a key that no source has. -/
def noAvailableKey (clients : Dict String NIXLClientInfo) (sources : ClientGroups)
    (restrictIds : List Int) (target key : String) : PyError :=
  let groups := dictText (sources.items.map fun (id, names) => (toString id, stringsText names))
  let keys := dictText ((clientKeysInfo clients sources restrictIds).items.map
    fun (source, keys) => (s!"'{source}'", stringsText keys))
  .assertionError (s!"No available key {key} in source client groups {groups}, "
    ++ s!"which is required by target client {target}, keys of them are {keys}")

/-- `repr` of a set of shards. The model shows them in ascending order. -/
def shardsText (shards : Finset ShardIndex) : String :=
  if shards = ∅ then "set()" else bracketed "\x7b" "\x7d" ((sortedShards shards).map tupleText)

def notAllAssigned (target key : String) (needed assigned : Finset ShardIndex) : String :=
  let needed := shardsText needed
  let assigned := shardsText assigned
  s!"Not all shards assigned for key {key} on target client {target}. "
    ++ s!"Needed shards: {needed}. Assigned shards: {assigned}."

/-- The assignment of the shards of one tensor of a target. -/
def assignKey (fuel : Nat) (clients : Dict String NIXLClientInfo) (sources : ClientGroups)
    (isPushToPs : Bool) (ids : List Int) (keyToSrcs : Dict String (List String)) (target : String)
    (state : Dict String Vol × CommPlan) (item : String × NIXLTensorInfo) :
    Except Halt (Dict String Vol × CommPlan) :=
  match keyToSrcs.get? item.1 with
  | none => .error (.raised (noAvailableKey clients sources ids target item.1))
  | some srcs => do
      let a ← whileLoop (p.assignTurn clients isPushToPs target item.1 item.2.shards) fuel
        ⟨srcs.toFinset, ∅, state.1, state.2⟩
      raising (pyAssert (a.assignedShards = item.2.shards)
        (notAllAssigned target item.1 item.2.shards a.assignedShards))
      return (a.volumes, a.commPlan)

/-- The assignment of all tensors of a target. -/
def assignTarget (fuel : Nat) (clients : Dict String NIXLClientInfo) (sources : ClientGroups)
    (isPushToPs : Bool) (ids : List Int) (keyToSrcs : Dict String (List String))
    (state : Dict String Vol × CommPlan) (target : String) :
    Except Halt (Dict String Vol × CommPlan) := do
  let info ← raising (clients.get target)
  info.tensorInfos.items.foldlM
    (p.assignKey fuel clients sources isPushToPs ids keyToSrcs target) state

/-- The assignment of all targets of a group. -/
def assignGroup (fuel : Nat) (clients : Dict String NIXLClientInfo) (sources : ClientGroups)
    (isPushToPs : Bool) (mapping : Dict Int (List Int))
    (cache : Dict (List Int) (Dict String (List String))) (state : Dict String Vol × CommPlan)
    (item : Int × List String) :
    Except Halt (Dict String Vol × CommPlan) := do
  let ids ← raising (mapping.get item.1)
  let keyToSrcs ← raising (cache.get (restrictionKey ids))
  item.2.foldlM (p.assignTarget fuel clients sources isPushToPs ids keyToSrcs) state

/-- All clients of some groups. -/
def members (groups : ClientGroups) : List String := groups.items.flatMap Prod.snd

/-- `{client: value for client_group in groups.values() for client in client_group}`. -/
def forMembers {ν : Type} (groups : ClientGroups) (value : ν) : Dict String ν :=
  (members groups).foldl (fun d client => d.set client value) .empty

/-- `_make_comm_plan_generic`. -/
def makeCommPlanGeneric (fuel : Nat) (clients : Dict String NIXLClientInfo)
    (sources targets : ClientGroups) (commPlan : CommPlan) (isPushToPs : Bool) :
    Except Halt CommPlan := do
  let mapping ← raising (p.restrictMapping sources targets isPushToPs)
  let cache ← raising (keyToSourcesByRestriction clients sources targets mapping)
  let state ← targets.items.foldlM
    (p.assignGroup fuel clients sources isPushToPs mapping cache)
    (forMembers sources p.arith.zero, commPlan)
  return state.2

end CommunicationPlanner

end Psrl
