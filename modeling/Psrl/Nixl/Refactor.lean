import Psrl.Nixl.Layout

/-!
# Psrl.Nixl.Refactor

What `refactor_based_on_finer_shard_mesh` computes.

The recursive expansion of a shard lists a grid (`expandRecursive_eq`): in each dimension of the
finer mesh its coordinate is split into as many as the scaling factor says (`finerCells`). The
refactoring is the validation of all these blocks, one after the other (`refactor_eq`).
-/

namespace Psrl

open Py

namespace NIXLSharding

variable {s s' : NIXLSharding} {mesh : ShardMesh} {global shape : List Nat}
  {axes : List (List Nat)} {d : Nat}

/-! ### Scaling factors -/

theorem find?_zip_eq_atDim : ∀ {items : List (Nat × Nat)} {shard : List Nat},
    ((((items.map Prod.fst).zip shard).find? (fun item => item.1 = d)).map Prod.snd).getD 0 =
      atDim 0 items shard d
  | [], _ => by simp [atDim]
  | _ :: _, [] => by simp [atDim]
  | (dim, n) :: items, c :: shard => by
      rw [List.map_cons, List.zip_cons_cons, List.find?_cons, atDim]
      by_cases hd : d = dim
      · simp [hd]
      · have hne : dim ≠ d := fun h => hd h.symm
        simp only [hne, decide_false, hd, if_false]
        exact find?_zip_eq_atDim

/-- The coordinate of a shard in a dimension. -/
theorem dimToIdx_getD (mesh : ShardMesh) (shard : ShardIndex) :
    ((dimToIdx mesh shard).get? d).getD 0 = atDim 0 mesh.items shard d :=
  find?_zip_eq_atDim

theorem countAt_of_notMem_keys (h : d ∉ mesh.keys) : countAt mesh.items d = 1 := atDim_of_notMem h

/-- A mesh with all dimensions of another one, and a multiple of its shards in each. -/
structure Refines (mesh finer : ShardMesh) : Prop where
  covers : ∀ item ∈ mesh.items, item.1 ∈ finer.keys ∧ item.2 ∣ countAt finer.items item.1
  pos : ∀ item ∈ finer.items, 0 < item.2

/-- How many shards of a finer mesh one shard is split into, in each dimension. -/
def scaleAt (mesh finer : ShardMesh) (d : Nat) : Nat :=
  countAt finer.items d / countAt mesh.items d

theorem get?_of_mem_keys (h : d ∈ mesh.keys) : mesh.get? d = some (countAt mesh.items d) := by
  obtain ⟨item, hitem, rfl⟩ := List.mem_map.mp h
  rw [countAt_of_mem mesh.nodup_keys hitem]
  exact Dict.get?_eq_some_iff.mpr hitem

theorem items_eq_map_keys (mesh : ShardMesh) :
    mesh.items = mesh.keys.map fun d => (d, countAt mesh.items d) := by
  rw [Dict.keys, List.map_map]
  refine (List.map_id mesh.items).symm.trans (List.map_congr_left fun item hitem => ?_)
  rw [Function.comp_apply, countAt_of_mem mesh.nodup_keys hitem]
  rfl

namespace Refines

variable {finer : ShardMesh}

theorem mem_keys (h : Refines mesh finer) (hd : d ∈ mesh.keys) : d ∈ finer.keys := by
  obtain ⟨item, hitem, rfl⟩ := List.mem_map.mp hd
  exact (h.covers item hitem).1

theorem dvd (h : Refines mesh finer) (d : Nat) : countAt mesh.items d ∣ countAt finer.items d := by
  by_cases hmem : d ∈ mesh.keys
  · obtain ⟨item, hitem, rfl⟩ := List.mem_map.mp hmem
    rw [countAt_of_mem mesh.nodup_keys hitem]
    exact (h.covers item hitem).2
  · rw [countAt_of_notMem_keys hmem]
    exact Nat.one_dvd _

theorem count_pos (h : Refines mesh finer) (d : Nat) : 0 < countAt finer.items d := by
  by_cases hmem : d ∈ finer.keys
  · obtain ⟨item, hitem, rfl⟩ := List.mem_map.mp hmem
    rw [countAt_of_mem finer.nodup_keys hitem]
    exact h.pos item hitem
  · rw [countAt_of_notMem_keys hmem]
    exact Nat.one_pos

theorem scale_pos (h : Refines mesh finer) (d : Nat) : 0 < scaleAt mesh finer d :=
  Nat.div_pos (Nat.le_of_dvd (h.count_pos d) (h.dvd d))
    (Nat.pos_of_dvd_of_pos (h.dvd d) (h.count_pos d))

theorem calculateScalingFactors_ok (h : Refines mesh finer) :
    ∃ factors, calculateScalingFactors mesh finer = .ok factors ∧
      ∀ d ∈ finer.keys, factors.get? d = some (scaleAt mesh finer d) := by
  have hcurrent : mesh.items.foldlM (scaleCurrent finer) .empty =
      .ok (mesh.items.foldl (fun factors item =>
        factors.set item.1 (scaleAt mesh finer item.1)) .empty) := by
    refine foldlM_eq_foldl fun factors item hitem => ?_
    rw [scaleCurrent, get?_of_mem_keys (h.covers item hitem).1]
    simp only [scaleAt, countAt_of_mem mesh.nodup_keys hitem]
  refine ⟨_, by rw [calculateScalingFactors, hcurrent, ok_bind]; rfl, fun d hd => ?_⟩
  have hkeys : mesh.items.foldl (fun (factors : Dict Nat Nat) item =>
      factors.set item.1 (scaleAt mesh finer item.1)) Dict.empty =
        mesh.keys.foldl (fun factors d => factors.set d (scaleAt mesh finer d)) Dict.empty := by
    rw [Dict.keys, List.foldl_map]
  have hnew : ∀ factors : Dict Nat Nat, finer.items.foldl (fun factors item =>
      if item.1 ∈ mesh.keys then factors else factors.set item.1 item.2) factors =
      (finer.keys.filter fun d => d ∉ mesh.keys).foldl (fun factors d =>
        factors.set d (countAt finer.items d)) factors := by
    intro factors
    rw [List.foldl_filter]
    conv_lhs => rw [items_eq_map_keys finer]
    simp only [List.foldl_map, decide_not, Bool.not_eq_true', decide_eq_false_iff_not]
    congr 1
    funext factors d
    by_cases hd : d ∈ mesh.keys <;> simp [hd]
  rw [hkeys, hnew, Dict.get?_foldl_set, Dict.get?_foldl_set]
  by_cases hmem : d ∈ mesh.keys
  · simp [hmem]
  · simp [hmem, hd, scaleAt, countAt_of_notMem_keys hmem]

end Refines

/-! ### Expansion of shards -/

/-- The coordinates of a shard in a dimension of a finer mesh. -/
def finerCells (mesh finer : ShardMesh) (shard : ShardIndex) (d : Nat) : List Nat :=
  (List.range (scaleAt mesh finer d)).map
    (atDim 0 mesh.items shard d * scaleAt mesh finer d + ·)

theorem finerCoords_ok {finer : ShardMesh} {factors : Dict Nat Nat}
    (hfactors : ∀ d ∈ finer.keys, factors.get? d = some (scaleAt mesh finer d))
    (shard : ShardIndex) {item : Nat × Nat} (hitem : item ∈ finer.items) :
    finerCoords mesh (dimToIdx mesh shard) factors item =
      .ok (finerCells mesh finer shard item.1) := by
  rw [finerCoords, Dict.get_eq_ok.mpr (hfactors item.1 (List.mem_map_of_mem hitem)), ok_bind]
  by_cases hmem : item.1 ∈ mesh.keys
  · rw [if_pos hmem]
    simp only [dimToIdx_getD, pure_eq_ok, finerCells]
  · have hone : scaleAt mesh finer item.1 = item.2 := by
      rw [scaleAt, countAt_of_notMem_keys hmem, Nat.div_one,
        countAt_of_mem finer.nodup_keys hitem]
    have hzero : atDim 0 mesh.items shard item.1 = 0 := atDim_of_notMem hmem
    rw [if_neg hmem, pyAssert_of hone, ok_bind, finerCells, hzero]
    simp

theorem foldl_append_eq {α β : Type} (f : α → List β) : ∀ (l : List α) (acc : List β),
    l.foldl (fun acc a => acc ++ f a) acc = acc ++ l.flatMap f
  | [], acc => by simp
  | a :: l, acc => by
      rw [List.foldl_cons, foldl_append_eq f, List.flatMap_cons, List.append_assoc]

/-- The recursion lists a grid. -/
theorem expandRecursive_eq {idx factors : Dict Nat Nat} {coords : Nat × Nat → List Nat} :
    ∀ {items : List (Nat × Nat)} {combination : ShardIndex} {result : List ShardIndex},
      (∀ item ∈ items, finerCoords mesh idx factors item = .ok (coords item)) →
      expandRecursive mesh idx factors items combination result =
        .ok (result ++ (grid (items.map coords)).map (combination ++ ·))
  | [], combination, result, _ => by simp [expandRecursive, grid]
  | item :: items, combination, result, h => by
      obtain ⟨hitem, hitems⟩ := List.forall_mem_cons.mp h
      rw [expandRecursive, hitem, ok_bind]
      have hrest : ∀ (result : List ShardIndex), ∀ i ∈ coords item,
          expandRecursive mesh idx factors items (combination ++ [i]) result =
            .ok (result ++ (grid (items.map coords)).map ((combination ++ [i]) ++ ·)) :=
        fun result i _ => expandRecursive_eq hitems
      rw [foldlM_eq_foldl hrest, foldl_append_eq, List.map_cons, grid, List.map_flatMap]
      congr 2
      refine List.flatMap_congr fun i _ => ?_
      rw [List.map_map]
      refine List.map_congr_left fun cell _ => ?_
      simp

/-- The shards of a finer mesh that make up one shard. -/
def finerBlock (mesh finer : ShardMesh) (shard : ShardIndex) : List ShardIndex :=
  grid (finer.items.map fun item => finerCells mesh finer shard item.1)

/-- The shards of a finer mesh that make up all shards, one after the other. -/
def expandedIndices (s : NIXLSharding) (finer : ShardMesh) : List ShardIndex :=
  s.shardIndices.flatMap (finerBlock s.shardMesh finer)

theorem validateRefactorCompatibility_ok {finer : ShardMesh} (h : Refines mesh finer) :
    validateRefactorCompatibility mesh finer = .ok () := by
  refine forM_ok fun item hitem => ?_
  obtain ⟨hmem, hdvd⟩ := h.covers item hitem
  simp only [get?_of_mem_keys hmem, Nat.mod_eq_zero_of_dvd hdvd, ne_eq, not_true_eq_false, if_false]

/-- What the refactoring of shards with one coordinate for each dimension comes to. -/
theorem refactor_eq {finer : ShardMesh} (h : Refines s.shardMesh finer)
    (hlength : ∀ shard ∈ s.shardIndices, shard.length = s.shardMesh.items.length) :
    s.refactorBasedOnFinerShardMesh finer = new finer (expandedIndices s finer) := by
  obtain ⟨factors, hok, hfactors⟩ := h.calculateScalingFactors_ok
  have heach : ∀ (acc : List ShardIndex), ∀ shard ∈ s.shardIndices, (do
      pyAssert (s.shardMesh.items.length = shard.length)
        "Current shard index tuple must have the same length as shard_mesh"
      let expanded ← expandRecursive s.shardMesh (dimToIdx s.shardMesh shard) factors
        finer.items [] []
      return acc ++ expanded : Except PyError (List ShardIndex)) =
        .ok (acc ++ finerBlock s.shardMesh finer shard) := by
    intro acc shard hshard
    rw [pyAssert_of (hlength shard hshard).symm, ok_bind,
      expandRecursive_eq fun item hitem => finerCoords_ok hfactors shard hitem, ok_bind]
    simp [finerBlock]
  rw [refactorBasedOnFinerShardMesh, validateRefactorCompatibility_ok h, ok_bind, hok, ok_bind,
    generateNewShardIndices, foldlM_eq_foldl heach, foldl_append_eq, ok_bind]
  rfl

/-! ### Valid shardings -/

/-- The sharding describes a part of a global tensor: it passed its validation, its mesh cuts the
tensor evenly, and its shards are among those of the mesh. -/
structure Valid (s : NIXLSharding) (global : List Nat) : Prop where
  built : new s.shardMesh s.shardIndices = .ok s
  cuts : Cuts s.shardMesh global
  shards : ∀ shard ∈ s.shardIndices,
    List.Forall₂ (fun (c : Nat) (item : Nat × Nat) => c < item.2) shard s.shardMesh.items

theorem Valid.length (h : s.Valid global) {shard : ShardIndex} (hshard : shard ∈ s.shardIndices) :
    shard.length = s.shardMesh.items.length :=
  (h.shards shard hshard).length_eq

theorem Valid.laid (h : s.Valid global) (hne : s.shardIndices ≠ []) :
    Laid s (axesOf s.shardMesh.items.length s.shardIndices) :=
  laid_of_new h.built hne fun _ hshard => h.length hshard

theorem Cuts.count_dvd (h : Cuts mesh global) (d : Nat) :
    countAt mesh.items d ∣ global.getD d 0 := by
  by_cases hmem : d ∈ mesh.keys
  · obtain ⟨item, hitem, rfl⟩ := List.mem_map.mp hmem
    rw [countAt_of_mem mesh.nodup_keys hitem]
    exact (h item hitem).2.2
  · rw [countAt_of_notMem_keys hmem]
    exact Nat.one_dvd _

/-- A shard is as large as the shards of the finer mesh that make it up. -/
theorem Refines.sizeAt {finer : ShardMesh} (h : Refines mesh finer) (hcuts : Cuts finer global)
    (d : Nat) : sizeAt global mesh d = scaleAt mesh finer d * sizeAt global finer d := by
  rw [NIXLSharding.sizeAt, NIXLSharding.sizeAt, scaleAt]
  have hcount : 0 < countAt mesh.items d := Nat.pos_of_dvd_of_pos (h.dvd d) (h.count_pos d)
  have hpos := h.count_pos d
  obtain ⟨q, hq⟩ := hcuts.count_dvd d
  obtain ⟨f, hf⟩ := h.dvd d
  rw [hq, Nat.mul_div_cancel_left _ hpos, hf, Nat.mul_assoc, Nat.mul_div_cancel_left _ hcount,
    Nat.mul_div_cancel_left _ hcount]

theorem not_holds_of_empty (hnone : s.shardIndices = []) {g i : List Nat} :
    ¬ s.Holds global shape g i := by
  rintro ⟨_, -, k, shard, _, _, hshard, -⟩
  rw [hnone] at hshard
  cases hshard

/-- **A local tensor is a one-to-one image.** The views of the shards cover a local tensor: each of
its elements stands for exactly one element of the global tensor, and no two for the same. -/
theorem local_elements_one_to_one (hvalid : s.Valid global) (hfits : s.Fits global shape) :
    (∀ i, List.Forall₂ (· < ·) i shape → ∃! g, s.Holds global shape g i) ∧
    ∀ g i i', s.Holds global shape g i → s.Holds global shape g i' → i = i' := by
  by_cases hsome : s.shardIndices = []
  · refine ⟨fun i hi => ?_, fun g i i' h => absurd h (not_holds_of_empty hsome)⟩
    -- such a tensor has an empty dimension
    obtain ⟨d, hd, hzero⟩ := List.getElem_of_mem (hfits.noElements hsome)
    have hlt := (Box.forall₂_lt_iff.mp hi).2 d hd
    simp [List.getD_eq_getElem?_getD, hd, hzero] at hlt
  · have hlaid := hvalid.laid hsome
    refine ⟨fun i hi => ?_, fun g i i' => hlaid.holds_local_unique hvalid.cuts hfits⟩
    obtain ⟨g, hg⟩ := hlaid.exists_holds hvalid.cuts hfits hi
    exact ⟨g, hg, fun g' hg' => hlaid.holds_global_unique hvalid.cuts hfits hg' hg⟩

/-- The second half of a vector of four elements. -/
def secondHalf : NIXLSharding := ⟨Dict.empty.set 0 2, Dict.empty.set 0 1, [[1]]⟩

theorem secondHalf_valid : secondHalf.Valid [4] ∧ secondHalf.Fits [4] [2] := by
  refine ⟨⟨rfl, ?_, ?_⟩, rfl, fun _ d hd => ?_, nofun⟩
  · intro item hitem
    obtain rfl : item = (0, 2) := List.mem_singleton.mp hitem
    decide
  · intro shard hshard
    obtain rfl : shard = [1] := List.mem_singleton.mp hshard
    exact .cons (by decide) .nil
  · obtain rfl : d = 0 := by simpa using hd
    rfl

theorem local_elements_one_to_one_secondHalf :
    ∃! g, secondHalf.Holds [4] [2] g [1] :=
  (local_elements_one_to_one secondHalf_valid.1 secondHalf_valid.2).1 [1] (.cons (by decide) .nil)

end NIXLSharding

end Psrl
