import Psrl.Lib.Grid
import Psrl.Lib.Index

/-!
# Psrl.Nixl.Sharding

`NIXLSharding` (`utils/nixl/nixl_spec.py`): which shards of a global tensor a client holds.

A mesh says into how many shards some of the dimensions are cut, a shard index has one coordinate
for each dimension of the mesh, in the mesh's order. `get_local_sharded_tensors` cuts the client's
own tensor into one view for each shard it holds; `refactor_based_on_finer_shard_mesh` describes the
same tensor by the shards of a finer mesh.
-/

namespace Psrl

open Py

/-- The coordinates of a shard, one for each dimension of the mesh. -/
abbrev ShardIndex := List Nat

/-- How many shards each dimension is cut into (an `OrderedDict`). -/
abbrev ShardMesh := Dict Nat Nat

structure NIXLSharding where
  shardMesh : ShardMesh
  localShardMesh : ShardMesh
  shardIndices : List ShardIndex

theorem map_fst_zip_sublist {α β : Type} : ∀ (l : List α) (l' : List β),
    ((l.zip l').map Prod.fst).Sublist l
  | [], _ => by simp
  | _ :: _, [] => by simp
  | a :: l, _ :: l' => (map_fst_zip_sublist l l').cons_cons a

/-- `zip(mesh.keys(), values)` as an `OrderedDict`. -/
def ShardMesh.zip (mesh : ShardMesh) (values : List Nat) : ShardMesh where
  items := mesh.keys.zip values
  nodup_keys := mesh.nodup_keys.sublist (map_fst_zip_sublist mesh.keys values)

namespace NIXLSharding

/-- The distinct coordinates that occur in each position. -/
def dimValues (nDim : Nat) (shardIndices : List ShardIndex) : List (Finset Nat) :=
  (List.range nDim).map fun dim => (shardIndices.map (·.getD dim 0)).toFinset

/-- What is raised for the first tuple of another length. -/
def lengthMismatch (nDim : Nat) (shardIndices : List ShardIndex) : PyError :=
  let idx := shardIndices.findIdx (·.length ≠ nDim)
  let found := (shardIndices.getD idx []).length
  .valueError (s!"All tuples must have the same length. Found {found} at index {idx}, "
    ++ s!"expected {nDim}.")

/-- What is raised for the first tuple that is not above the one before it. -/
def orderMismatch (shardIndices : List ShardIndex) : PyError :=
  let i := (shardIndices.zip shardIndices.tail).findIdx (fun pair => pair.2 ≤ pair.1) + 1
  let prev := tupleText (shardIndices.getD (i - 1) [])
  let curr := tupleText (shardIndices.getD i [])
  .valueError (s!"Shard indices must be in strictly increasing order. At index {i}: "
    ++ s!"{prev} >= {curr}.")

def countMismatch (totalExpected : Nat) (shardIndices : List ShardIndex) : PyError :=
  let found := shardIndices.length
  let shown := bracketed "[" "]" (shardIndices.map tupleText)
  .valueError (s!"Total shard count mismatch. Expected {totalExpected} but found {found} shards. "
    ++ s!"shard_indices: {shown}")

/-- `_validate_and_set_local_shard_mesh`. -/
def validateAndSetLocalShardMesh (shardMesh : ShardMesh) (shardIndices : List ShardIndex) :
    Except PyError ShardMesh :=
  match shardIndices with
  | [] => .ok .empty
  | first :: _ =>
      if ∃ tup ∈ shardIndices, tup.length ≠ first.length then
        .error (lengthMismatch first.length shardIndices)
      else if ¬ shardIndices.IsChain (· < ·) then
        .error (orderMismatch shardIndices)
      else if shardIndices.length ≠ ((dimValues first.length shardIndices).map (·.card)).prod then
        .error (countMismatch ((dimValues first.length shardIndices).map (·.card)).prod
          shardIndices)
      else .ok (shardMesh.zip ((dimValues first.length shardIndices).map (·.card)))

/-- `NIXLSharding(shard_mesh=…, shard_indices=…)`. -/
def new (shardMesh : ShardMesh) (shardIndices : List ShardIndex) : Except PyError NIXLSharding :=
  (validateAndSetLocalShardMesh shardMesh shardIndices).map fun localShardMesh =>
    ⟨shardMesh, localShardMesh, shardIndices⟩

/-- The checks of `get_local_sharded_tensors`. -/
def checkDims (localShardMesh : List (Nat × Nat)) (shape : List Nat) : Except PyError Unit :=
  localShardMesh.forM fun (dim, chunks) =>
    let rank := shape.length
    let size := shape.getD dim 0
    if rank ≤ dim then
      .error (.valueError s!"Dimension {dim} is out of range for tensor with {rank} dimensions")
    else if size % chunks ≠ 0 then
      .error (.valueError s!"Dimension {dim} of size {size} cannot be split into {chunks} shards")
    else .ok ()

/-- `get_local_sharded_tensors`: the views of a tensor of the given shape, one for each shard. -/
def getLocalShardedTensors (s : NIXLSharding) (shape : List Nat) : Except PyError (List Box) :=
  if s.shardIndices = [] then .ok []
  else do
    checkDims s.localShardMesh.items shape
    return Box.cut s.localShardMesh.items [Box.whole shape]

/-- `_validate_refactor_compatibility`. -/
def validateRefactorCompatibility (shardMesh finerShardMesh : ShardMesh) : Except PyError Unit :=
  shardMesh.items.forM fun (dim, current) =>
    match finerShardMesh.get? dim with
    | some finer =>
        if finer % current ≠ 0 then
          .error (.valueError (s!"Cannot refactor sharding: finer shard_mesh[{dim}]={finer} "
            ++ s!"is not divisible by current shard_mesh[{dim}]={current}"))
        else .ok ()
    | none => .ok ()

/-- The first loop of `_calculate_scaling_factors`. -/
def scaleCurrent (finerShardMesh : ShardMesh) (factors : Dict Nat Nat) (item : Nat × Nat) :
    Except PyError (Dict Nat Nat) :=
  match finerShardMesh.get? item.1 with
  | some finer => .ok (factors.set item.1 (finer / item.2))
  | none => do
      pyAssert (item.2 = 1)
        "Current dimension doesn't exist in finer sharding, and current shard_mesh is not 1"
      return factors

/-- `_calculate_scaling_factors`. -/
def calculateScalingFactors (shardMesh finerShardMesh : ShardMesh) :
    Except PyError (Dict Nat Nat) := do
  let factors ← shardMesh.items.foldlM (scaleCurrent finerShardMesh) .empty
  return finerShardMesh.items.foldl (fun factors item =>
    if item.1 ∈ shardMesh.keys then factors else factors.set item.1 item.2) factors

/-- The finer coordinates of one dimension that belong to the current shard. -/
def finerCoords (shardMesh : ShardMesh) (currentDimToIdx scalingFactors : Dict Nat Nat)
    (item : Nat × Nat) : Except PyError (List Nat) := do
  let scalingFactor ← scalingFactors.get item.1
  if item.1 ∈ shardMesh.keys then
    let startIdx := (currentDimToIdx.get? item.1).getD 0 * scalingFactor
    return (List.range scalingFactor).map (startIdx + ·)
  else
    pyAssert (scalingFactor = item.2) ("When it's a new dimension, scaling factor must be equal "
      ++ "to the number of shards in the new dimension")
    return List.range scalingFactor

/-- `_expand_recursive`, over the dimensions of the finer mesh that are still to come. -/
def expandRecursive (shardMesh : ShardMesh) (currentDimToIdx scalingFactors : Dict Nat Nat) :
    List (Nat × Nat) → ShardIndex → List ShardIndex → Except PyError (List ShardIndex)
  | [], currentCombination, result => .ok (result ++ [currentCombination])
  | item :: dims, currentCombination, result => do
      let coords ← finerCoords shardMesh currentDimToIdx scalingFactors item
      coords.foldlM (fun result idx => expandRecursive shardMesh currentDimToIdx scalingFactors
        dims (currentCombination ++ [idx]) result) result

/-- `current_dim_to_idx`: the coordinates of a shard, keyed by dimension. -/
def dimToIdx (shardMesh : ShardMesh) (shard : ShardIndex) : Dict Nat Nat := shardMesh.zip shard

/-- `_generate_new_shard_indices`. -/
def generateNewShardIndices (s : NIXLSharding) (finerShardMesh : ShardMesh)
    (scalingFactors : Dict Nat Nat) : Except PyError (List ShardIndex) :=
  s.shardIndices.foldlM (fun newShardIndices shard => do
    pyAssert (s.shardMesh.items.length = shard.length)
      "Current shard index tuple must have the same length as shard_mesh"
    let expanded ← expandRecursive s.shardMesh (dimToIdx s.shardMesh shard) scalingFactors
      finerShardMesh.items [] []
    return newShardIndices ++ expanded) []

/-- `refactor_based_on_finer_shard_mesh`. -/
def refactorBasedOnFinerShardMesh (s : NIXLSharding) (finerShardMesh : ShardMesh) :
    Except PyError NIXLSharding := do
  validateRefactorCompatibility s.shardMesh finerShardMesh
  let scalingFactors ← calculateScalingFactors s.shardMesh finerShardMesh
  let newShardIndices ← generateNewShardIndices s finerShardMesh scalingFactors
  new finerShardMesh newShardIndices

end NIXLSharding

end Psrl
