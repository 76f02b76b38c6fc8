import Psrl.Nixl.Refactor

/-!
# Psrl.Nixl.Refining

When `refactor_based_on_finer_shard_mesh` succeeds, and what the result describes.

Every shard becomes a block of shards of the finer mesh, and the blocks are listed one after the
other. As sets they are what they should be (`region_expanded`): a shard of the finer mesh belongs
to the shard whose coordinates are the quotients of its own (`mem_finerBlock`). But the validation
of the result asks for a strictly increasing list, and the blocks of two shards only follow each
other in lexicographic order if no dimension below the one where the shards differ is split
(`pairwise_expanded_iff`).

A refactoring that succeeds changes the description of a client's tensor, not what its elements
stand for: by the arithmetic of one axis from `Lib.Grid`, a local element stands for the same global
element under both shardings (`holds_refactor_iff`).
-/

namespace Psrl

open Py

namespace NIXLSharding

variable {s s' : NIXLSharding} {mesh finer : ShardMesh} {indices : List ShardIndex}
  {global shape : List Nat} {axes : List (List Nat)} {d : Nat}

/-! ### The block of a shard -/

theorem mem_finerCells (h : Refines mesh finer) {shard : ShardIndex} {x : Nat} :
    x ∈ finerCells mesh finer shard d ↔
      x / scaleAt mesh finer d = atDim 0 mesh.items shard d := by
  have hcells : finerCells mesh finer shard d =
      refineAxis (scaleAt mesh finer d) [atDim 0 mesh.items shard d] := by
    simp [finerCells, refineAxis]
  rw [hcells, mem_refineAxis_iff_div (h.scale_pos d), List.mem_singleton]

/-- A shard of the finer mesh belongs to the shard with the quotients of its coordinates. -/
theorem mem_finerBlock (h : Refines mesh finer) {shard t : ShardIndex} :
    t ∈ finerBlock mesh finer shard ↔
      ∃ y : Nat → Nat, t = finer.items.map (fun item => y item.1) ∧ ∀ item ∈ finer.items,
        y item.1 / scaleAt mesh finer item.1 = atDim 0 mesh.items shard item.1 := by
  rw [finerBlock, mem_grid_map finer.nodup_keys]
  simp only [mem_finerCells h]

theorem pairwise_finerBlock (shard : ShardIndex) :
    (finerBlock mesh finer shard).Pairwise (· < ·) := by
  refine pairwise_grid fun axis haxis => ?_
  obtain ⟨item, -, rfl⟩ := List.mem_map.mp haxis
  rw [finerCells, List.pairwise_map]
  exact List.pairwise_lt_range.imp fun hlt => Nat.add_lt_add_left hlt _

/-- The shard of a block with given offsets from its first one. -/
theorem offset_mem_finerBlock (h : Refines mesh finer) (shard : ShardIndex) {r : Nat → Nat}
    (hr : ∀ d, r d < scaleAt mesh finer d) :
    finer.items.map (fun item => scaleAt mesh finer item.1 * atDim 0 mesh.items shard item.1 +
      r item.1) ∈ finerBlock mesh finer shard := by
  refine (mem_finerBlock h).mpr
    ⟨fun d => scaleAt mesh finer d * atDim 0 mesh.items shard d + r d, rfl, fun item _ => ?_⟩
  rw [Nat.mul_add_div (h.scale_pos item.1), Nat.div_eq_of_lt (hr item.1), Nat.add_zero]

/-! ### All blocks -/

/-- The shards of a sharding, by their coordinates in the dimensions of the mesh. -/
theorem Laid.mem_shardIndices (hlaid : Laid s axes) {shard : ShardIndex} :
    shard ∈ s.shardIndices ↔
      ∃ x : Nat → Nat, shard = s.shardMesh.items.map (fun item => x item.1) ∧
        ∀ item ∈ s.shardMesh.items, x item.1 ∈ valuesAt s.shardMesh axes item.1 := by
  have haxes : axes = s.shardMesh.items.map fun item => valuesAt s.shardMesh axes item.1 :=
    (map_atDim [0] s.shardMesh.nodup_keys hlaid.length).symm
  rw [hlaid.indices]
  conv_lhs => rw [haxes]
  exact mem_grid_map s.shardMesh.nodup_keys

/-- The axes of the shards of the finer mesh. -/
def finerAxes (mesh finer : ShardMesh) (axes : List (List Nat)) : List (List Nat) :=
  finer.items.map fun item => refineAxis (scaleAt mesh finer item.1) (valuesAt mesh axes item.1)

theorem mem_expandedIndices (h : Refines s.shardMesh finer) (hlaid : Laid s axes) {t : ShardIndex} :
    t ∈ expandedIndices s finer ↔ t ∈ grid (finerAxes s.shardMesh finer axes) := by
  have hgrid : t ∈ grid (finerAxes s.shardMesh finer axes) ↔
      ∃ y : Nat → Nat, t = finer.items.map (fun item => y item.1) ∧ ∀ item ∈ finer.items,
        y item.1 / scaleAt s.shardMesh finer item.1 ∈ valuesAt s.shardMesh axes item.1 := by
    rw [finerAxes, @mem_grid_map _ (fun d => refineAxis (scaleAt s.shardMesh finer d)
      (valuesAt s.shardMesh axes d)) _ finer.nodup_keys]
    simp only [mem_refineAxis_iff_div (h.scale_pos _)]
  rw [hgrid, expandedIndices, List.mem_flatMap]
  constructor
  · rintro ⟨shard, hshard, ht⟩
    obtain ⟨y, rfl, hy⟩ := (mem_finerBlock h).mp ht
    refine ⟨y, rfl, fun item hitem => ?_⟩
    rw [hlaid.indices] at hshard
    exact (exists_mem_grid_atDim_iff hlaid.length hlaid.nonempty).mp
      ⟨shard, hshard, (hy item hitem).symm⟩
  · rintro ⟨y, rfl, hy⟩
    -- The quotients are the coordinates of the shard it comes from.
    refine ⟨s.shardMesh.items.map fun item => y item.1 / scaleAt s.shardMesh finer item.1,
      hlaid.mem_shardIndices.mpr ⟨fun d => y d / scaleAt s.shardMesh finer d, rfl,
        fun item hitem => ?_⟩, (mem_finerBlock h).mpr ⟨y, rfl, fun item hitem => ?_⟩⟩
    · obtain ⟨item', hitem', heq⟩ := List.mem_map.mp (h.covers item hitem).1
      rw [← heq]
      exact hy item' hitem'
    · rw [@atDim_map_fst _ _ _ fun d => y d / scaleAt s.shardMesh finer d]
      split
      · rfl
      · rename_i hnot
        have hmem := hy item hitem
        rw [valuesAt, atDim_of_notMem hnot, List.mem_singleton] at hmem
        exact hmem

theorem finerAxes_sorted (hlaid : Laid s axes) :
    ∀ axis ∈ finerAxes s.shardMesh finer axes, axis.Pairwise (· < ·) := by
  intro axis haxis
  obtain ⟨item, -, rfl⟩ := List.mem_map.mp haxis
  exact pairwise_refineAxis hlaid.valuesAt_sorted

theorem finerAxes_ne_nil (h : Refines s.shardMesh finer) (hlaid : Laid s axes) :
    ∀ axis ∈ finerAxes s.shardMesh finer axes, axis ≠ [] := by
  intro axis haxis
  obtain ⟨item, -, rfl⟩ := List.mem_map.mp haxis
  rw [← List.length_pos_iff, length_refineAxis]
  exact Nat.mul_pos (List.length_pos_iff.mpr hlaid.valuesAt_ne_nil) (h.scale_pos item.1)

/-! ### Validation of the result -/

/-- The axes of a grid can be read off its cells. -/
theorem axesOf_grid (hsorted : ∀ axis ∈ axes, axis.Pairwise (· < ·))
    (hne : ∀ axis ∈ axes, axis ≠ []) : axesOf axes.length (grid axes) = axes := by
  refine List.ext_getElem (by simp [axesOf]) fun j hj hj' => ?_
  have hget : axes.getD j [] = axes[j] := by simp [List.getD_eq_getElem?_getD, hj']
  simp only [axesOf, List.getElem_map, List.getElem_range]
  refine eq_of_mem_iff (pairwise_axisOf j) (hsorted _ (List.getElem_mem hj')) fun x => ?_
  rw [mem_axisOf, exists_mem_grid_getD_iff hne hj', hget]

/-- A grid passes the validation. -/
theorem new_grid (mesh : ShardMesh) (hsorted : ∀ axis ∈ axes, axis.Pairwise (· < ·))
    (hne : ∀ axis ∈ axes, axis ≠ []) :
    ∃ s, new mesh (grid axes) = .ok s ∧ s.shardMesh = mesh ∧ s.shardIndices = grid axes := by
  have hlength : ∀ shard ∈ grid axes, shard.length = axes.length :=
    fun shard hshard => (mem_grid.mp hshard).length_eq
  have hcount : (grid axes).length =
      ((dimValues axes.length (grid axes)).map (·.card)).prod := by
    rw [map_card_dimValues, axesOf_grid hsorted hne, length_grid]
  have hchain : (grid axes).IsChain (· < ·) :=
    List.isChain_iff_pairwise.mpr (pairwise_grid hsorted)
  cases hgrid : grid axes with
  | nil => exact absurd hgrid (grid_ne_nil hne)
  | cons first rest =>
      rw [hgrid] at hlength hcount hchain
      have hfirst : first.length = axes.length := hlength first (List.mem_cons_self ..)
      have hsame : ¬ ∃ tup ∈ first :: rest, tup.length ≠ first.length := by
        rintro ⟨tup, htup, hlt⟩
        exact hlt ((hlength tup htup).trans hfirst.symm)
      refine ⟨⟨mesh, mesh.zip ((dimValues first.length (first :: rest)).map (·.card)),
        first :: rest⟩, ?_, rfl, rfl⟩
      rw [hfirst, new, validateAndSetLocalShardMesh, if_neg hsame, if_neg (not_not.mpr hchain),
        hfirst, if_neg (not_not.mpr hcount)]
      rfl

theorem pairwise_of_new (h : new mesh indices = .ok s) : s.shardIndices.Pairwise (· < ·) := by
  obtain ⟨localMesh, hvalid, rfl⟩ := map_eq_ok.mp h
  cases indices with
  | nil => exact .nil
  | cons first rest =>
      obtain ⟨-, hgrid, -⟩ := validate_eq_ok hvalid
      show (first :: rest).Pairwise (· < ·)
      rw [hgrid]
      refine pairwise_grid fun axis haxis => ?_
      obtain ⟨j, -, rfl⟩ := List.mem_map.mp haxis
      exact pairwise_axisOf j

theorem eq_of_new (h : new mesh indices = .ok s) :
    s.shardMesh = mesh ∧ s.shardIndices = indices := by
  obtain ⟨localMesh, -, rfl⟩ := map_eq_ok.mp h
  exact ⟨rfl, rfl⟩

/-- A refactoring that ends found a coordinate for each dimension in every shard. -/
theorem lengths_of_refactor (hok : s.refactorBasedOnFinerShardMesh finer = .ok s') :
    ∀ shard ∈ s.shardIndices, shard.length = s.shardMesh.items.length := by
  intro shard hshard
  obtain ⟨_, -, hok⟩ := bind_eq_ok.mp hok
  obtain ⟨factors, -, hok⟩ := bind_eq_ok.mp hok
  obtain ⟨_, hloop, -⟩ := bind_eq_ok.mp hok
  obtain ⟨_, _, hbody⟩ := exists_of_foldlM_ok hloop shard hshard
  obtain ⟨_, hassert, -⟩ := bind_eq_ok.mp hbody
  exact (pyAssert_eq_ok.mp hassert).symm

/-- Blocks in increasing order are a grid. -/
theorem expandedIndices_eq_grid (h : Refines s.shardMesh finer) (hlaid : Laid s axes)
    (hsorted : (expandedIndices s finer).Pairwise (· < ·)) :
    expandedIndices s finer = grid (finerAxes s.shardMesh finer axes) :=
  eq_of_mem_iff hsorted (pairwise_grid (finerAxes_sorted hlaid)) fun _ =>
    mem_expandedIndices h hlaid

/-- Blocks in increasing order make up a valid sharding. -/
theorem new_expanded (h : Refines s.shardMesh finer) (hlaid : Laid s axes)
    (hsorted : (expandedIndices s finer).Pairwise (· < ·)) :
    ∃ s', new finer (expandedIndices s finer) = .ok s' := by
  rw [expandedIndices_eq_grid h hlaid hsorted]
  obtain ⟨s', hnew, -⟩ := new_grid finer (finerAxes_sorted hlaid) (finerAxes_ne_nil h hlaid)
  exact ⟨s', hnew⟩

/-! ### The order of the blocks -/

/-- Two shards of the sharding differ in a dimension. -/
def SplitAt (s : NIXLSharding) (d : Nat) : Prop :=
  ∃ shard ∈ s.shardIndices, ∃ shard' ∈ s.shardIndices,
    atDim 0 s.shardMesh.items shard d < atDim 0 s.shardMesh.items shard' d

instance (s : NIXLSharding) (d : Nat) : Decidable (s.SplitAt d) :=
  inferInstanceAs (Decidable (∃ shard ∈ s.shardIndices, ∃ shard' ∈ s.shardIndices,
    atDim 0 s.shardMesh.items shard d < atDim 0 s.shardMesh.items shard' d))

/-- Every shard has a coordinate for each dimension of the mesh, the dimensions where shards differ
come in increasing order, and the finer mesh splits no shard in a dimension below one of them. -/
structure Refinable (s : NIXLSharding) (finer : ShardMesh) : Prop where
  lengths : ∀ shard ∈ s.shardIndices, shard.length = s.shardMesh.items.length
  ordered : (s.shardMesh.keys.filter fun d => s.SplitAt d).Pairwise (· < ·)
  coarse : ∀ d ∈ s.shardMesh.keys, s.SplitAt d → ∀ item ∈ finer.items, item.1 < d →
    item.2 = countAt s.shardMesh.items item.1

/-- The blocks are in order if each pair of them is. -/
theorem pairwise_expanded (hindices : s.shardIndices.Pairwise (· < ·)) :
    (expandedIndices s finer).Pairwise (· < ·) ↔
      ∀ shard ∈ s.shardIndices, ∀ shard' ∈ s.shardIndices, shard < shard' →
        ∀ t ∈ finerBlock s.shardMesh finer shard, ∀ t' ∈ finerBlock s.shardMesh finer shard',
          t < t' := by
  rw [expandedIndices, List.pairwise_flatMap]
  constructor
  · rintro ⟨-, hblocks⟩
    have hearlier : s.shardIndices.Pairwise fun shard shard' => shard < shard' →
        ∀ t ∈ finerBlock s.shardMesh finer shard, ∀ t' ∈ finerBlock s.shardMesh finer shard',
          t < t' := by
      refine hblocks.imp ?_
      intro shard shard' hblock _
      exact hblock
    have hlater : s.shardIndices.Pairwise (flip fun shard shard' => shard < shard' →
        ∀ t ∈ finerBlock s.shardMesh finer shard, ∀ t' ∈ finerBlock s.shardMesh finer shard',
          t < t') :=
      hindices.imp fun hlt hgt => absurd hgt (lt_asymm hlt)
    intro shard hshard shard' hshard' hlt
    exact hearlier.forall_of_forall_of_flip (fun _ _ hlt => absurd hlt (lt_irrefl _)) hlater
      hshard hshard' hlt
  · intro hall
    refine ⟨fun shard _ => pairwise_finerBlock shard, ?_⟩
    refine hindices.imp_of_mem fun hshard hshard' hlt t ht t' ht' => ?_
    exact hall _ hshard _ hshard' hlt t ht t' ht'

/-- A dimension where two shards differ belongs to the mesh. -/
theorem SplitAt.mem_keys (h : s.SplitAt d) : d ∈ s.shardMesh.keys := by
  obtain ⟨shard, -, shard', -, hlt⟩ := h
  by_contra hnot
  rw [atDim_of_notMem hnot, atDim_of_notMem hnot] at hlt
  exact lt_irrefl _ hlt

theorem scaleAt_eq_one_iff (h : Refines mesh finer) :
    scaleAt mesh finer d = 1 ↔ countAt finer.items d = countAt mesh.items d := by
  have hpos : 0 < countAt mesh.items d := Nat.pos_of_dvd_of_pos (h.dvd d) (h.count_pos d)
  have hmul := Nat.div_mul_cancel (h.dvd d)
  rw [scaleAt]
  constructor
  · intro hone
    rw [hone, Nat.one_mul] at hmul
    exact hmul.symm
  · intro heq
    rw [heq, Nat.div_self hpos]

/-- The order of the blocks is that of their shards. -/
theorem Refinable.lt_of_lt (h : Refines s.shardMesh finer) (hfiner : finer.keys.Pairwise (· < ·))
    (hok : s.Refinable finer) {shard shard' t t' : ShardIndex}
    (hshard : shard ∈ s.shardIndices) (hshard' : shard' ∈ s.shardIndices) (hlt : shard < shard')
    (ht : t ∈ finerBlock s.shardMesh finer shard) (ht' : t' ∈ finerBlock s.shardMesh finer shard') :
    t < t' := by
  obtain ⟨y, rfl, hy⟩ := (mem_finerBlock h).mp ht
  obtain ⟨y', rfl, hy'⟩ := (mem_finerBlock h).mp ht'
  have heq := map_atDim 0 s.shardMesh.nodup_keys (hok.lengths shard hshard)
  have heq' := map_atDim 0 s.shardMesh.nodup_keys (hok.lengths shard' hshard')
  rw [← heq, ← heq'] at hlt
  obtain ⟨before, first, after, hitems, hbefore, hfirst⟩ := map_lt_map_iff.mp hlt
  have hsplit : s.SplitAt first.1 := ⟨shard, hshard, shard', hshard', hfirst⟩
  obtain ⟨item, hitem, hdim⟩ := List.mem_map.mp (h.mem_keys hsplit.mem_keys)
  -- The first dimension of the mesh where the shards differ is the least one.
  have hleast : ∀ d < first.1, atDim 0 s.shardMesh.items shard d =
      atDim 0 s.shardMesh.items shard' d := by
    intro d hd
    by_contra hne
    have hd' : s.SplitAt d := by
      rcases Nat.lt_or_gt_of_ne hne with hlt | hgt
      · exact ⟨shard, hshard, shard', hshard', hlt⟩
      · exact ⟨shard', hshard', shard, hshard, hgt⟩
    have hordered := hok.ordered
    rw [Dict.keys, hitems, List.map_append, List.map_cons, List.filter_append,
      List.filter_cons_of_pos (by simpa using hsplit), List.pairwise_append,
      List.pairwise_cons] at hordered
    have hmem := hd'.mem_keys
    rw [Dict.keys, hitems, List.map_append, List.map_cons, List.mem_append, List.mem_cons] at hmem
    rcases hmem with hmem | rfl | hmem
    · obtain ⟨item, hitem, rfl⟩ := List.mem_map.mp hmem
      exact hne (hbefore item hitem)
    · exact lt_irrefl _ hd
    · exact lt_asymm hd (hordered.2.1.1 d (List.mem_filter.mpr ⟨hmem, by simpa using hd'⟩))
  refine map_lt_map_of_least hfiner hitem (fun item' hitem' hlt => ?_) ?_
  · have hlt : item'.1 < first.1 := hdim ▸ hlt
    have hone : scaleAt s.shardMesh finer item'.1 = 1 := by
      rw [scaleAt_eq_one_iff h, countAt_of_mem finer.nodup_keys hitem']
      exact hok.coarse first.1 hsplit.mem_keys hsplit item' hitem' hlt
    have hquot := hy item' hitem'
    have hquot' := hy' item' hitem'
    rw [hone, Nat.div_one] at hquot hquot'
    rw [hquot, hquot', hleast item'.1 hlt]
  · have hquot := hy item hitem
    have hquot' := hy' item hitem
    rw [hdim] at hquot hquot' ⊢
    refine lt_of_not_ge fun hge => ?_
    have hle := Nat.div_le_div_right hge (c := scaleAt s.shardMesh finer first.1)
    rw [hquot, hquot'] at hle
    exact lt_irrefl _ (lt_of_lt_of_le hfirst hle)

/-- The coordinates of a shard that is given by them. -/
theorem atDim_coords (x : Nat → Nat) (hd : d ∈ s.shardMesh.keys) :
    atDim 0 s.shardMesh.items (s.shardMesh.items.map fun item => x item.1) d = x d := by
  rw [@atDim_map_fst]
  exact if_pos hd

section Order

variable (hlaid : Laid s axes)

include hlaid

/-- A dimension where shards differ has two coordinates. -/
theorem SplitAt.values (hsplit : s.SplitAt d) :
    ∃ v ∈ valuesAt s.shardMesh axes d, ∃ v' ∈ valuesAt s.shardMesh axes d, v < v' := by
  obtain ⟨shard, hshard, shard', hshard', hlt⟩ := hsplit
  rw [hlaid.indices] at hshard hshard'
  have hvalue : ∀ shard ∈ grid axes, atDim 0 s.shardMesh.items shard d ∈
      valuesAt s.shardMesh axes d := fun shard hshard =>
    (exists_mem_grid_atDim_iff hlaid.length hlaid.nonempty).mp ⟨shard, hshard, rfl⟩
  exact ⟨_, hvalue shard hshard, _, hvalue shard' hshard', hlt⟩

/-- Some coordinates of a shard. -/
theorem Laid.exists_coords :
    ∃ x : Nat → Nat, ∀ d ∈ s.shardMesh.keys, x d ∈ valuesAt s.shardMesh axes d := by
  obtain ⟨shard, hshard⟩ := List.exists_mem_of_ne_nil _ hlaid.shardIndices_ne_nil
  obtain ⟨x, -, hx⟩ := hlaid.mem_shardIndices.mp hshard
  refine ⟨x, fun d hd => ?_⟩
  obtain ⟨item, hitem, rfl⟩ := List.mem_map.mp hd
  exact hx item hitem

omit hlaid in
/-- Coordinates with one of them replaced. -/
theorem coords_update {x : Nat → Nat} {v : Nat}
    (hx : ∀ d ∈ s.shardMesh.keys, x d ∈ valuesAt s.shardMesh axes d)
    (hv : v ∈ valuesAt s.shardMesh axes d) :
    ∀ d' ∈ s.shardMesh.keys, Function.update x d v d' ∈ valuesAt s.shardMesh axes d' := by
  intro d' hd'
  by_cases heq : d' = d
  · rw [heq, Function.update_self]
    exact hv
  · rw [Function.update_of_ne heq]
    exact hx d' hd'

theorem Laid.coords_mem {x : Nat → Nat}
    (hx : ∀ d ∈ s.shardMesh.keys, x d ∈ valuesAt s.shardMesh axes d) :
    s.shardMesh.items.map (fun item => x item.1) ∈ s.shardIndices :=
  hlaid.mem_shardIndices.mpr ⟨x, rfl, fun item hitem => hx item.1 (List.mem_map_of_mem hitem)⟩

end Order

section Necessity

variable (h : Refines s.shardMesh finer) (hfiner : finer.keys.Pairwise (· < ·))
  (hblocks : ∀ shard ∈ s.shardIndices, ∀ shard' ∈ s.shardIndices, shard < shard' →
    ∀ t ∈ finerBlock s.shardMesh finer shard, ∀ t' ∈ finerBlock s.shardMesh finer shard', t < t')

include h hfiner hblocks

/-- Shards in order do not have blocks where the least dimension that differs is the other way. -/
theorem not_least_of_lt {shard shard' : ShardIndex} (hshard : shard ∈ s.shardIndices)
    (hshard' : shard' ∈ s.shardIndices) (hlt : shard < shard') {r : Nat → Nat}
    (hr : ∀ d, r d < scaleAt s.shardMesh finer d) {item : Nat × Nat} (hitem : item ∈ finer.items)
    (heq : ∀ e < item.1, r e = 0 ∧
      atDim 0 s.shardMesh.items shard e = atDim 0 s.shardMesh.items shard' e)
    (hgt : scaleAt s.shardMesh finer item.1 * atDim 0 s.shardMesh.items shard' item.1 <
      scaleAt s.shardMesh finer item.1 * atDim 0 s.shardMesh.items shard item.1 + r item.1) :
    False := by
  have ht := offset_mem_finerBlock h shard hr
  have ht' := offset_mem_finerBlock h shard' fun d => h.scale_pos d
  refine lt_asymm (hblocks shard hshard shard' hshard' hlt _ ht _ ht') ?_
  refine @map_lt_map_of_least _
    (fun d => scaleAt s.shardMesh finer d * atDim 0 s.shardMesh.items shard' d + 0)
    (fun d => scaleAt s.shardMesh finer d * atDim 0 s.shardMesh.items shard d + r d) _ hfiner hitem
    (fun item' _ hlt => ?_) hgt
  obtain ⟨hzero, hcoord⟩ := heq item'.1 hlt
  rw [hzero, hcoord]

/-- No dimension below one where shards differ is split. -/
theorem coarse_of_blocks (hlaid : Laid s axes) (hsplit : s.SplitAt d) {item : Nat × Nat}
    (hitem : item ∈ finer.items) (hlt : item.1 < d) :
    item.2 = countAt s.shardMesh.items item.1 := by
  rw [← countAt_of_mem finer.nodup_keys hitem, ← scaleAt_eq_one_iff h]
  by_contra hne
  have hpos := h.scale_pos item.1
  obtain ⟨v, hv, v', hv', hvlt⟩ := hsplit.values hlaid
  obtain ⟨x, hx⟩ := hlaid.exists_coords
  -- Two shards that differ in `d` only, and a shard of the first block that is not its first one.
  have hshard := hlaid.coords_mem (coords_update hx hv)
  have hshard' := hlaid.coords_mem (coords_update hx hv')
  obtain ⟨entry, hentry, hdim⟩ := List.mem_map.mp hsplit.mem_keys
  obtain ⟨before, after, hitems⟩ := List.append_of_mem hentry
  have hnodup := s.shardMesh.nodup_keys
  rw [hitems, List.map_append, List.map_cons, List.nodup_append] at hnodup
  have hother : ∀ e, e ≠ d → Function.update x d v e = Function.update x d v' e := by
    intro e he
    rw [Function.update_of_ne he, Function.update_of_ne he]
  have hcoords : ∀ e, e ≠ d →
      atDim 0 s.shardMesh.items (s.shardMesh.items.map fun item => Function.update x d v item.1) e =
        atDim 0 s.shardMesh.items
          (s.shardMesh.items.map fun item => Function.update x d v' item.1) e := by
    intro e he
    rw [@atDim_map_fst, @atDim_map_fst, hother e he]
  refine not_least_of_lt h hfiner hblocks hshard hshard' ?_
    (r := fun e => if e = item.1 then 1 else 0) (fun e => ?_) hitem (fun e he => ?_) ?_
  · refine map_lt_map_iff.mpr ⟨before, entry, after, hitems, fun item' hitem' => ?_, ?_⟩
    · refine hother item'.1 fun heq => ?_
      exact hnodup.2.2 item'.1 (List.mem_map_of_mem hitem') entry.1 (List.mem_cons_self ..)
        (heq.trans hdim.symm)
    · rw [hdim, Function.update_self, Function.update_self]
      exact hvlt
  · have hpos := h.scale_pos e
    split
    · subst e
      omega
    · exact hpos
  · exact ⟨if_neg (Nat.ne_of_lt he), hcoords e (Nat.ne_of_lt (he.trans hlt))⟩
  · rw [hcoords item.1 (Nat.ne_of_lt hlt), if_pos rfl]
    exact Nat.lt_succ_self _

/-- The dimensions where shards differ come in increasing order. -/
theorem ordered_of_blocks (hlaid : Laid s axes) :
    (s.shardMesh.keys.filter fun d => s.SplitAt d).Pairwise (· < ·) := by
  rw [List.pairwise_filter, Dict.keys, List.pairwise_map, List.pairwise_iff_forall_sublist]
  intro entry' entry hsub hsplit' hsplit
  simp only [decide_eq_true_eq] at hsplit hsplit'
  obtain ⟨left, right, hitems, hleft, hright⟩ := List.cons_sublist_iff.mp hsub
  have hright := List.singleton_sublist.mp hright
  obtain ⟨before, after, hleft⟩ := List.append_of_mem hleft
  have hnodup := s.shardMesh.nodup_keys
  have hlater := hnodup
  rw [hitems, List.map_append, List.nodup_append] at hlater
  rw [hitems, hleft, List.append_assoc, List.cons_append, List.map_append, List.map_cons,
    List.nodup_append] at hnodup
  have hne : ∀ item ∈ left, item.1 ≠ entry.1 := fun item hitem =>
    hlater.2.2 item.1 (List.mem_map_of_mem hitem) entry.1 (List.mem_map_of_mem hright)
  have hne' : ∀ item ∈ before, item.1 ≠ entry'.1 := fun item hitem =>
    hnodup.2.2 item.1 (List.mem_map_of_mem hitem) entry'.1 (List.mem_cons_self ..)
  have hdiffer : entry'.1 ≠ entry.1 := hne entry' (hleft ▸ by simp)
  by_contra hge
  have hlt : entry.1 < entry'.1 := by omega
  obtain ⟨v, hv, v', hv', hvlt⟩ := hsplit.values hlaid
  obtain ⟨w, hw, w', hw', hwlt⟩ := hsplit'.values hlaid
  obtain ⟨x, hx⟩ := hlaid.exists_coords
  -- Two shards that differ in both dimensions, in opposite directions.
  have hshard := hlaid.coords_mem (coords_update (coords_update hx hw) hv')
  have hshard' := hlaid.coords_mem (coords_update (coords_update hx hw') hv)
  have hother : ∀ e, e ≠ entry.1 → e ≠ entry'.1 →
      Function.update (Function.update x entry'.1 w) entry.1 v' e =
        Function.update (Function.update x entry'.1 w') entry.1 v e := by
    intro e he he'
    rw [Function.update_of_ne he, Function.update_of_ne he, Function.update_of_ne he',
      Function.update_of_ne he']
  obtain ⟨item, hitem, hdim⟩ := List.mem_map.mp (h.mem_keys hsplit.mem_keys)
  refine not_least_of_lt h hfiner hblocks hshard hshard' ?_ (fun e => h.scale_pos e) hitem
    (fun e he => ?_) ?_
  · refine map_lt_map_iff.mpr ⟨before, entry', after ++ right, ?_, fun item' hitem' => ?_, ?_⟩
    · rw [hitems, hleft, List.append_assoc, List.cons_append]
    · exact hother _ (hne item' (hleft ▸ List.mem_append_left _ hitem')) (hne' item' hitem')
    · rw [Function.update_of_ne hdiffer, Function.update_of_ne hdiffer, Function.update_self,
        Function.update_self]
      exact hwlt
  · rw [hdim] at he
    refine ⟨rfl, ?_⟩
    rw [@atDim_map_fst, @atDim_map_fst, hother e (Nat.ne_of_lt he) (Nat.ne_of_lt (he.trans hlt))]
  · rw [hdim, atDim_coords _ hsplit.mem_keys, atDim_coords _ hsplit.mem_keys, Function.update_self,
      Function.update_self]
    exact Nat.mul_lt_mul_of_pos_left hvlt (h.scale_pos entry.1)

end Necessity

/-- When the blocks of the shards make up an increasing list. -/
theorem pairwise_expanded_iff (h : Refines s.shardMesh finer)
    (hfiner : finer.keys.Pairwise (· < ·)) (hlaid : Laid s axes)
    (hlengths : ∀ shard ∈ s.shardIndices, shard.length = s.shardMesh.items.length) :
    (expandedIndices s finer).Pairwise (· < ·) ↔ s.Refinable finer := by
  have hindices : s.shardIndices.Pairwise (· < ·) := by
    rw [hlaid.indices]
    exact pairwise_grid hlaid.sorted
  rw [pairwise_expanded hindices]
  constructor
  · intro hblocks
    exact ⟨hlengths, ordered_of_blocks h hfiner hblocks hlaid, fun d _ hsplit item hitem hlt =>
      coarse_of_blocks h hfiner hblocks hlaid hsplit hitem hlt⟩
  · intro hok shard hshard shard' hshard' hlt t ht t' ht'
    exact hok.lt_of_lt h hfiner hshard hshard' hlt ht ht'

/-! ### The region of a sharding -/

/-- An element of the global tensor is in a shard. -/
def Covers (mesh : ShardMesh) (global : List Nat) (shard : ShardIndex) (g : List Nat) : Prop :=
  ∀ d < global.length,
    atDim 0 mesh.items shard d * sizeAt global mesh d ≤ g.getD d 0 ∧
      g.getD d 0 < (atDim 0 mesh.items shard d + 1) * sizeAt global mesh d

/-- The elements of the global tensor in some shard of the sharding. -/
def region (s : NIXLSharding) (global : List Nat) : Set (List Nat) :=
  {g | List.Forall₂ (· < ·) g global ∧ ∃ shard ∈ s.shardIndices, Covers s.shardMesh global shard g}

/-- An element is in the shard with the quotients of its coordinates. -/
theorem covers_iff {shard : ShardIndex} {g : List Nat}
    (hsize : ∀ d < global.length, 0 < sizeAt global mesh d) : Covers mesh global shard g ↔
      ∀ d < global.length, g.getD d 0 / sizeAt global mesh d = atDim 0 mesh.items shard d :=
  forall₂_congr fun d hd => by
    rw [← Nat.le_div_iff_mul_le (hsize d hd), ← Nat.div_lt_iff_lt_mul (hsize d hd), Nat.lt_succ_iff,
      le_antisymm_iff, and_comm]

theorem Refines.sizeAt_pos (h : Refines mesh finer) (hcuts : Cuts finer global) {g : List Nat}
    (hg : List.Forall₂ (· < ·) g global) :
    ∀ d < global.length, 0 < NIXLSharding.sizeAt global finer d := by
  intro d hd
  have hglobal : 0 < global.getD d 0 := Nat.zero_lt_of_lt ((Box.forall₂_lt_iff.mp hg).2 d hd)
  refine Nat.div_pos (Nat.le_of_dvd hglobal ?_) (h.count_pos d)
  exact hcuts.count_dvd d

/-- The quotients of the coordinates of a shard in a block, in every dimension. -/
theorem coord_of_mem_finerBlock (h : Refines mesh finer) {shard t : ShardIndex}
    (ht : t ∈ finerBlock mesh finer shard) (d : Nat) :
    atDim 0 finer.items t d / scaleAt mesh finer d = atDim 0 mesh.items shard d := by
  obtain ⟨y, rfl, hy⟩ := (mem_finerBlock h).mp ht
  rw [@atDim_map_fst]
  split
  · rename_i hd
    obtain ⟨item, hitem, rfl⟩ := List.mem_map.mp hd
    exact hy item hitem
  · rename_i hd
    have hmesh : d ∉ mesh.items.map Prod.fst := fun hmem => hd (h.mem_keys hmem)
    rw [atDim_of_notMem hmesh, Nat.zero_div]

/-- The blocks of the shards cover what the shards cover. -/
theorem region_expanded (h : Refines s.shardMesh finer) (hcuts : Cuts finer global)
    (hmesh : s'.shardMesh = finer) (hindices : s'.shardIndices = expandedIndices s finer) :
    s'.region global = s.region global := by
  refine Set.ext fun g => and_congr_right fun hg => ?_
  have hsize := h.sizeAt_pos hcuts hg
  have hsizes : ∀ d, sizeAt global s.shardMesh d =
      sizeAt global finer d * scaleAt s.shardMesh finer d := fun d => by
    rw [h.sizeAt hcuts d, Nat.mul_comm]
  have hsize' : ∀ d < global.length, 0 < sizeAt global s.shardMesh d := by
    intro d hd
    rw [hsizes d]
    exact Nat.mul_pos (hsize d hd) (h.scale_pos d)
  rw [hmesh, hindices]
  simp only [covers_iff hsize, covers_iff hsize', hsizes, ← Nat.div_div_eq_div_mul]
  constructor
  · rintro ⟨t, ht, hcovers⟩
    obtain ⟨shard, hshard, ht⟩ := List.mem_flatMap.mp ht
    refine ⟨shard, hshard, fun d hd => ?_⟩
    rw [hcovers d hd, coord_of_mem_finerBlock h ht d]
  · rintro ⟨shard, hshard, hcovers⟩
    refine ⟨finer.items.map fun item => g.getD item.1 0 / sizeAt global finer item.1,
      List.mem_flatMap.mpr ⟨shard, hshard, (mem_finerBlock h).mpr
        ⟨fun d => g.getD d 0 / sizeAt global finer d, rfl, fun item hitem =>
          hcovers item.1 (hcuts item hitem).1⟩⟩, fun d hd => ?_⟩
    rw [@atDim_map_fst _ _ _ fun d => g.getD d 0 / sizeAt global finer d]
    split
    · rfl
    · rename_i hnot
      have hnot : d ∉ finer.keys := hnot
      have hmesh : d ∉ s.shardMesh.keys := fun hmem => hnot (h.mem_keys hmem)
      have hcoord := hcovers d hd
      rw [atDim_of_notMem hmesh, scaleAt, countAt_of_notMem_keys hnot,
        countAt_of_notMem_keys hmesh, Nat.div_one] at hcoord
      exact hcoord

/-! ### Refining -/

/-- The refactored sharding exists if the blocks are in order. -/
theorem refactor_ok_iff (hnew : new mesh indices = .ok s) (h : Refines s.shardMesh finer)
    (hfiner : finer.keys.Pairwise (· < ·)) :
    (∃ s', s.refactorBasedOnFinerShardMesh finer = .ok s') ↔ s.Refinable finer := by
  by_cases hlengths : ∀ shard ∈ s.shardIndices, shard.length = s.shardMesh.items.length
  · rw [refactor_eq h hlengths]
    obtain ⟨rfl, rfl⟩ := eq_of_new hnew
    by_cases hne : s.shardIndices = []
    · have hnone : ∀ d, ¬ s.SplitAt d := by
        rintro d ⟨shard, hshard, -⟩
        rw [hne] at hshard
        cases hshard
      refine iff_of_true ⟨⟨finer, .empty, []⟩, ?_⟩ ⟨hlengths, ?_, fun d _ hd => absurd hd (hnone d)⟩
      · rw [expandedIndices, hne]
        rfl
      · simp [hnone]
    · have hlaid := laid_of_new hnew hne hlengths
      rw [← pairwise_expanded_iff h hfiner hlaid hlengths]
      constructor
      · rintro ⟨s', hok⟩
        rw [← (eq_of_new hok).2]
        exact pairwise_of_new hok
      · exact new_expanded h hlaid
  · refine iff_of_false ?_ fun hok => hlengths hok.lengths
    rintro ⟨s', hok⟩
    exact hlengths (lengths_of_refactor hok)

/-- Refining a sharding succeeds, with increasing shard indices for the same region, exactly if the
blocks of its shards follow each other in lexicographic order. -/
theorem refactor_keeps_region_iff (hnew : new mesh indices = .ok s) (h : Refines mesh finer)
    (hfiner : finer.keys.Pairwise (· < ·)) :
    (∃ s', s.refactorBasedOnFinerShardMesh finer = .ok s' ∧
      s'.shardIndices.Pairwise (· < ·) ∧
      ∀ global, Cuts finer global → s'.region global = s.region global) ↔
      s.Refinable finer := by
  have hmesh := (eq_of_new hnew).1
  rw [← hmesh] at h
  rw [← refactor_ok_iff hnew h hfiner]
  constructor
  · rintro ⟨s', hok, -⟩
    exact ⟨s', hok⟩
  · rintro ⟨s', hok⟩
    have hnew' := hok
    rw [refactor_eq h (lengths_of_refactor hok)] at hnew'
    obtain ⟨hfinerMesh, hindices⟩ := eq_of_new hnew'
    exact ⟨s', hok, pairwise_of_new hnew', fun global hcuts =>
      region_expanded h hcuts hfinerMesh hindices⟩

/-- A tensor split along its first dimension, then refined along its second one too. -/
theorem refactor_keeps_region_rows :
    ∃ s s' : NIXLSharding, new (Dict.empty.set 0 2) [[0], [1]] = .ok s ∧
      s.refactorBasedOnFinerShardMesh ((Dict.empty.set 0 4).set 1 2) = .ok s' ∧
      s'.shardIndices.Pairwise (· < ·) ∧
      ∀ global, Cuts ((Dict.empty.set 0 4).set 1 2) global →
        s'.region global = s.region global := by
  have hnew : new (Dict.empty.set 0 2) [[0], [1]] =
      .ok ⟨Dict.empty.set 0 2, Dict.empty.set 0 2, [[0], [1]]⟩ := rfl
  have hrefines : Refines (Dict.empty.set 0 2) ((Dict.empty.set 0 4).set 1 2) :=
    ⟨by decide, by decide⟩
  obtain ⟨s', hok⟩ := (refactor_keeps_region_iff hnew hrefines (by decide)).mpr
    ⟨by decide, by decide, by decide⟩
  exact ⟨_, s', hnew, hok⟩

/-- A tensor split along its second dimension, then along its first one too. -/
theorem refactor_not_increasing :
    ∃ s : NIXLSharding, new (Dict.empty.set 1 2) [[0], [1]] = .ok s ∧
      Refines (Dict.empty.set 1 2) ((Dict.empty.set 0 2).set 1 2) ∧
      ((Dict.empty.set 0 2).set 1 2 : ShardMesh).keys.Pairwise (· < ·) ∧
      s.refactorBasedOnFinerShardMesh ((Dict.empty.set 0 2).set 1 2) =
        .error (.valueError ("Shard indices must be in strictly increasing order. "
          ++ "At index 2: (1, 0) >= (0, 1).")) := by
  refine ⟨⟨Dict.empty.set 1 2, Dict.empty.set 1 2, [[0], [1]]⟩, by rfl, ⟨by decide, by decide⟩,
    by decide, by rfl⟩

/-! ### What local elements stand for -/

/-- The axes of the finer mesh, dimension by dimension. -/
theorem valuesAt_finerAxes (h : Refines mesh finer) (axes : List (List Nat)) (d : Nat) :
    valuesAt finer (finerAxes mesh finer axes) d =
      refineAxis (scaleAt mesh finer d) (valuesAt mesh axes d) := by
  rw [valuesAt, finerAxes, @atDim_map_fst _ _ _ fun d =>
    refineAxis (scaleAt mesh finer d) (valuesAt mesh axes d)]
  split
  · rfl
  · rename_i hfiner
    have hmesh : d ∉ mesh.keys := fun hmem => hfiner (h.mem_keys hmem)
    rw [valuesAt, atDim_of_notMem hmesh, scaleAt, countAt_of_notMem_keys hfiner,
      countAt_of_notMem_keys hmesh]
    rfl

/-- The shards of a refactored sharding. -/
theorem Laid.refactor (hlaid : Laid s axes) (h : Refines s.shardMesh finer)
    (hok : s.refactorBasedOnFinerShardMesh finer = .ok s') :
    s'.shardMesh = finer ∧ Laid s' (finerAxes s.shardMesh finer axes) := by
  rw [refactor_eq h (lengths_of_refactor hok)] at hok
  obtain ⟨hmesh, hindices⟩ := eq_of_new hok
  rw [expandedIndices_eq_grid h hlaid (hindices ▸ pairwise_of_new hok)] at hok
  have hlength : (finerAxes s.shardMesh finer axes).length = finer.items.length := by
    simp [finerAxes]
  have hlaid' := laid_of_new hok (grid_ne_nil (finerAxes_ne_nil h hlaid)) fun shard hshard =>
    (mem_grid.mp hshard).length_eq.trans hlength
  rw [← hlength, axesOf_grid (finerAxes_sorted hlaid) (finerAxes_ne_nil h hlaid)] at hlaid'
  exact ⟨hmesh, hlaid'⟩

/-- A sharding without shards keeps none. -/
theorem refactor_empty (h : Refines s.shardMesh finer) (hnone : s.shardIndices = [])
    (hok : s.refactorBasedOnFinerShardMesh finer = .ok s') : s'.shardIndices = [] := by
  rw [refactor_eq h (lengths_of_refactor hok)] at hok
  rw [(eq_of_new hok).2, expandedIndices, hnone, List.flatMap_nil]

/-- The local tensor fits the refactored sharding. -/
theorem Fits.refactor (hfits : s.Fits global shape) (hvalid : s.Valid global)
    (h : Refines s.shardMesh finer) (hcuts : Cuts finer global)
    (hok : s.refactorBasedOnFinerShardMesh finer = .ok s') : s'.Fits global shape := by
  refine ⟨hfits.rank, fun hne d hd => ?_, fun hnone => ?_⟩
  · have hsome : s.shardIndices ≠ [] := fun hnone => hne (refactor_empty h hnone hok)
    have hlaid := hvalid.laid hsome
    obtain ⟨hmesh, hlaid'⟩ := hlaid.refactor h hok
    have hsize := h.sizeAt hcuts d
    rw [sizeAt, sizeAt] at hsize
    rw [hfits.sizes hsome d hd, hlaid'.countAt_local, hlaid.countAt_local, hmesh,
      valuesAt_finerAxes h, length_refineAxis, hsize, Nat.mul_assoc]
  · by_cases hsome : s.shardIndices = []
    · exact hfits.noElements hsome
    · exact absurd hnone ((hvalid.laid hsome).refactor h hok).2.shardIndices_ne_nil

/-- A local element stands for the same global element before and after. -/
theorem holds_refactor_iff (hvalid : s.Valid global) (hfits : s.Fits global shape)
    (h : Refines s.shardMesh finer) (hcuts : Cuts finer global)
    (hok : s.refactorBasedOnFinerShardMesh finer = .ok s') {g i : List Nat} :
    s'.Holds global shape g i ↔ s.Holds global shape g i := by
  by_cases hsome : s.shardIndices = []
  · exact iff_of_false (not_holds_of_empty (refactor_empty h hsome hok)) (not_holds_of_empty hsome)
  · have hlaid := hvalid.laid hsome
    obtain ⟨hmesh, hlaid'⟩ := hlaid.refactor h hok
    have hfits' := hfits.refactor hvalid h hcuts hok
    rw [hlaid'.holds_iff (hmesh ▸ hcuts) hfits', hlaid.holds_iff hvalid.cuts hfits]
    refine and_congr_right fun _ => and_congr_right fun _ => forall_congr' fun d =>
      imp_congr_right fun _ => ?_
    rw [hmesh, valuesAt_finerAxes h, onAxis_refineAxis, ← h.sizeAt hcuts]

/-- **Refactoring moves no data.** A sharding refactored to a finer mesh still fits the local tensor
as it is, and every local element stands for the same global element as before. -/
theorem refactor_moves_no_element (hvalid : s.Valid global) (hfits : s.Fits global shape)
    (h : Refines s.shardMesh finer) (hcuts : Cuts finer global)
    (hok : s.refactorBasedOnFinerShardMesh finer = .ok s') :
    s'.Fits global shape ∧
      ∀ g i, s'.Holds global shape g i ↔ s.Holds global shape g i :=
  ⟨hfits.refactor hvalid h hcuts hok, fun _ _ => holds_refactor_iff hvalid hfits h hcuts hok⟩

/-- The half of a vector as two quarters. -/
theorem refactor_moves_no_element_quarters : ∃ s' : NIXLSharding, s'.shardIndices = [[2], [3]] ∧
    s'.Fits [4] [2] ∧ ∀ g i, s'.Holds [4] [2] g i ↔ secondHalf.Holds [4] [2] g i := by
  have hok : secondHalf.refactorBasedOnFinerShardMesh (Dict.empty.set 0 4) =
      .ok ⟨Dict.empty.set 0 4, Dict.empty.set 0 2, [[2], [3]]⟩ := by rfl
  refine ⟨_, rfl, refactor_moves_no_element secondHalf_valid.1 secondHalf_valid.2
    ⟨by decide, by decide⟩ ?_ hok⟩
  intro item hitem
  obtain rfl : item = (0, 4) := List.mem_singleton.mp hitem
  decide

end NIXLSharding

end Psrl
