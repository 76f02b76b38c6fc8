import Mathlib.Algebra.BigOperators.Group.List.Basic
import Mathlib.Data.List.Forall2
import Mathlib.Data.List.Lex
import Mathlib.Data.List.Sort
import Mathlib.Tactic.Ring
import Psrl.Lib.Python

/-!
# Psrl.Lib.Grid

The cells of a grid in row-major order, and boxes of a tensor.

* `grid axes` lists the tuples with one coordinate from each axis, the first coordinate slowest.
  A strictly increasing list of as many such tuples is this list (`eq_grid`).
* `Box` is a view of a tensor: where it starts and how far it reaches in each dimension.
  `Box.chunk` cuts it into equal parts along one dimension, `Box.cut` along several ones. The parts
  come in the order of a grid (`Box.cut_eq`), so they can be addressed by coordinates
  (`Box.block`), dimension by dimension.
* `refineAxis` splits every coordinate of an axis into several ones. It does not change which
  position of a tensor an index of the axis stands for (`onAxis_refineAxis`).
-/

namespace Py

/-! ### Grids -/

/-- The tuples with one coordinate from each axis, in row-major order. -/
def grid : List (List Nat) → List (List Nat)
  | [] => [[]]
  | axis :: axes => axis.flatMap fun i => (grid axes).map (i :: ·)

variable {axes : List (List Nat)} {cell : List Nat}

theorem mem_grid : ∀ {axes : List (List Nat)} {cell : List Nat},
    cell ∈ grid axes ↔ List.Forall₂ (· ∈ ·) cell axes
  | [], cell => by
      rw [grid, List.mem_singleton, List.forall₂_nil_right_iff]
  | axis :: axes, cell => by
      rw [grid, List.mem_flatMap, List.forall₂_cons_right_iff]
      constructor
      · rintro ⟨i, hi, hcell⟩
        obtain ⟨rest, hrest, rfl⟩ := List.mem_map.mp hcell
        exact ⟨i, rest, hi, mem_grid.mp hrest, rfl⟩
      · rintro ⟨i, rest, hi, hrest, rfl⟩
        exact ⟨i, hi, List.mem_map_of_mem (mem_grid.mpr hrest)⟩

theorem length_grid : ∀ axes : List (List Nat), (grid axes).length = (axes.map List.length).prod
  | [] => rfl
  | axis :: axes => by
      rw [grid, List.length_flatMap, List.map_cons, List.prod_cons, ← length_grid axes]
      simp

/-- Cells come in lexicographic order. -/
theorem pairwise_grid : ∀ {axes : List (List Nat)},
    (∀ axis ∈ axes, axis.Pairwise (· < ·)) → (grid axes).Pairwise (· < ·)
  | [], _ => List.pairwise_singleton ..
  | axis :: axes, h => by
      rw [grid, List.pairwise_flatMap]
      have hrest := pairwise_grid fun axis' hmem => h axis' (List.mem_cons_of_mem _ hmem)
      refine ⟨fun i _ => ?_, ?_⟩
      · rw [List.pairwise_map]
        exact hrest.imp fun hlt => List.Lex.cons hlt
      · refine (h axis (List.mem_cons_self ..)).imp fun hlt cell hcell cell' hcell' => ?_
        obtain ⟨rest, -, rfl⟩ := List.mem_map.mp hcell
        obtain ⟨rest', -, rfl⟩ := List.mem_map.mp hcell'
        exact List.Lex.rel hlt

/-- A strictly increasing list of cells that is as long as the grid is the grid. -/
theorem eq_grid {cells : List (List Nat)} (haxes : ∀ axis ∈ axes, axis.Pairwise (· < ·))
    (hcells : cells.Pairwise (· < ·)) (hmem : ∀ cell ∈ cells, cell ∈ grid axes)
    (hlength : (axes.map List.length).prod = cells.length) : cells = grid axes := by
  have hnodup : cells.Nodup := hcells.imp fun hlt => ne_of_lt hlt
  have hperm : cells.Perm (grid axes) := by
    refine (hnodup.subperm hmem).perm_of_length_le ?_
    rw [length_grid, hlength]
  exact hperm.eq_of_pairwise (fun _ _ _ _ h h' => absurd h' (lt_asymm h)) hcells
    (pairwise_grid haxes)

/-- Tuples in lexicographic order: they agree up to the first place where they differ. -/
theorem map_lt_map_iff {α : Type} {x y : α → Nat} : ∀ {l : List α}, l.map x < l.map y ↔
    ∃ before a after, l = before ++ a :: after ∧ (∀ b ∈ before, x b = y b) ∧ x a < y a
  | [] => by simp
  | a :: l => by
      rw [List.map_cons, List.map_cons, List.cons_lt_cons_iff, map_lt_map_iff]
      constructor
      · rintro (hlt | ⟨heq, before, b, after, rfl, hbefore, hlt⟩)
        · exact ⟨[], a, l, rfl, by simp, hlt⟩
        · exact ⟨a :: before, b, after, rfl, List.forall_mem_cons.mpr ⟨heq, hbefore⟩, hlt⟩
      · rintro ⟨before, b, after, hl, hbefore, hlt⟩
        cases before with
        | nil =>
            obtain ⟨rfl, rfl⟩ := List.cons.inj hl
            exact .inl hlt
        | cons a' before =>
            obtain ⟨rfl, rfl⟩ := List.cons.inj hl
            obtain ⟨heq, hbefore⟩ := List.forall_mem_cons.mp hbefore
            exact .inr ⟨heq, before, b, after, rfl, hbefore, hlt⟩

/-- With the dimensions in increasing order, the least one where they differ decides. -/
theorem map_lt_map_of_least {mesh : List (Nat × Nat)} {x y : Nat → Nat} {item : Nat × Nat}
    (hsorted : (mesh.map Prod.fst).Pairwise (· < ·)) (hitem : item ∈ mesh)
    (heq : ∀ item' ∈ mesh, item'.1 < item.1 → x item'.1 = y item'.1) (hlt : x item.1 < y item.1) :
    mesh.map (fun item => x item.1) < mesh.map (fun item => y item.1) := by
  obtain ⟨before, after, rfl⟩ := List.append_of_mem hitem
  refine map_lt_map_iff.mpr ⟨before, item, after, rfl, fun item' hitem' => ?_, hlt⟩
  refine heq item' (List.mem_append_left _ hitem') ?_
  rw [List.map_append, List.pairwise_append] at hsorted
  exact hsorted.2.2 _ (List.mem_map_of_mem hitem') _ (List.mem_cons_self ..)

theorem eq_of_mem_iff {α : Type} [LinearOrder α] {l l' : List α} (hl : l.Pairwise (· < ·))
    (hl' : l'.Pairwise (· < ·)) (h : ∀ x, x ∈ l ↔ x ∈ l') : l = l' := by
  have hperm : l.Perm l' := (List.perm_ext_iff_of_nodup (hl.imp fun hlt => ne_of_lt hlt)
    (hl'.imp fun hlt => ne_of_lt hlt)).mpr h
  exact hperm.eq_of_pairwise (fun _ _ _ _ h h' => absurd h' (lt_asymm h)) hl hl'

/-- The positions along the axes. -/
def positions (axes : List (List Nat)) : List (List Nat) :=
  axes.map fun axis => List.range axis.length

/-- The coordinates at some positions. -/
def pick (axes : List (List Nat)) (cell : List Nat) : List Nat :=
  List.zipWith (fun axis i => axis.getD i 0) axes cell

theorem map_getD_range (axis : List Nat) : (List.range axis.length).map (axis.getD · 0) = axis := by
  refine List.ext_getElem (by simp) fun i h h' => ?_
  simp [List.getD_eq_getElem?_getD, h']

/-- A grid and the grid of its positions list corresponding cells at the same place. -/
theorem grid_eq_map_pick : ∀ axes : List (List Nat),
    grid axes = (grid (positions axes)).map (pick axes)
  | [] => rfl
  | axis :: axes => by
      have hcons : ∀ i cell, pick (axis :: axes) (i :: cell) = axis.getD i 0 :: pick axes cell :=
        fun _ _ => rfl
      rw [positions, List.map_cons, grid, grid, List.map_flatMap, ← positions]
      conv_lhs => rw [← map_getD_range axis, List.flatMap_map]
      refine List.flatMap_congr fun i _ => ?_
      rw [grid_eq_map_pick axes, List.map_map, List.map_map]
      rfl

/-- The cells at the same place of a grid and of a list that follows the grid of its positions. -/
theorem exists_getElem?_grid {α : Type} {f : List Nat → α} {a : α} :
    (∃ k : Nat, (grid axes)[k]? = some cell ∧ ((grid (positions axes)).map f)[k]? = some a) ↔
      ∃ at' ∈ grid (positions axes), cell = pick axes at' ∧ a = f at' := by
  rw [grid_eq_map_pick axes]
  constructor
  · rintro ⟨k, hcell, ha⟩
    rw [List.getElem?_map, Option.map_eq_some_iff] at hcell ha
    obtain ⟨at', hat, rfl⟩ := hcell
    obtain ⟨at₁, hat₁, rfl⟩ := ha
    rw [hat, Option.some.injEq] at hat₁
    exact ⟨at', List.mem_of_getElem? hat, rfl, by rw [hat₁]⟩
  · rintro ⟨at', hmem, rfl, rfl⟩
    obtain ⟨k, hk⟩ := List.mem_iff_getElem?.mp hmem
    exact ⟨k, by rw [List.getElem?_map, hk]; rfl, by rw [List.getElem?_map, hk]; rfl⟩

theorem grid_ne_nil (hne : ∀ axis ∈ axes, axis ≠ []) : grid axes ≠ [] := by
  refine List.ne_nil_of_mem (a := axes.map (·.headD 0)) (mem_grid.mpr ?_)
  rw [List.forall₂_map_left_iff, List.forall₂_same]
  intro axis haxis
  obtain ⟨v, rest, rfl⟩ := List.exists_cons_of_ne_nil (hne axis haxis)
  exact List.mem_cons_self ..

/-- The coordinates that occur in one position of a grid. -/
theorem exists_mem_grid_getD_iff :
    ∀ {axes : List (List Nat)} {j x : Nat}, (∀ axis ∈ axes, axis ≠ []) →
    j < axes.length → ((∃ cell ∈ grid axes, cell.getD j 0 = x) ↔ x ∈ axes.getD j [])
  | axis :: axes, j, x, hne, hj => by
      obtain ⟨haxis, haxes⟩ := List.forall_mem_cons.mp hne
      have hcells : grid axes ≠ [] := grid_ne_nil haxes
      cases j with
      | zero =>
          obtain ⟨rest, hrest⟩ := List.exists_mem_of_ne_nil _ hcells
          constructor
          · rintro ⟨cell, hcell, rfl⟩
            obtain ⟨i, rest, hi, -, rfl⟩ := List.forall₂_cons_right_iff.mp (mem_grid.mp hcell)
            exact hi
          · intro hx
            exact ⟨x :: rest, mem_grid.mpr (.cons hx (mem_grid.mp hrest)), rfl⟩
      | succ j =>
          have ih := exists_mem_grid_getD_iff (x := x) haxes (by simpa using hj)
          rw [List.getD_cons_succ, ← ih]
          constructor
          · rintro ⟨cell, hcell, rfl⟩
            obtain ⟨i, rest, -, hrest, rfl⟩ := List.forall₂_cons_right_iff.mp (mem_grid.mp hcell)
            exact ⟨rest, mem_grid.mpr hrest, rfl⟩
          · rintro ⟨rest, hrest, rfl⟩
            obtain ⟨i, hi⟩ := List.exists_mem_of_ne_nil _ haxis
            exact ⟨i :: rest, mem_grid.mpr (.cons hi (mem_grid.mp hrest)), rfl⟩

/-! ### Dimensions -/

section AtDim

variable {α β γ : Type} {d : Nat}

/-- The value of a dimension, when the values are listed in the order of a mesh. -/
def atDim (unlisted : α) : List (Nat × Nat) → List α → Nat → α
  | (dim, _) :: mesh, a :: as, d => if d = dim then a else atDim unlisted mesh as d
  | _, _, _ => unlisted

/-- The number of parts a mesh cuts a dimension into. -/
def countAt (mesh : List (Nat × Nat)) (d : Nat) : Nat := atDim 1 mesh (mesh.map Prod.snd) d

theorem atDim_of_notMem {unlisted : α} : ∀ {mesh : List (Nat × Nat)} {as : List α},
    d ∉ mesh.map Prod.fst → atDim unlisted mesh as d = unlisted
  | [], _, _ => rfl
  | _ :: _, [], _ => rfl
  | (dim, n) :: mesh, a :: as, h => by
      rw [List.map_cons, List.mem_cons, not_or] at h
      rw [atDim, if_neg h.1, atDim_of_notMem h.2]

theorem atDim_map {unlisted : α} (f : α → β) : ∀ {mesh : List (Nat × Nat)} {as : List α},
    atDim (f unlisted) mesh (as.map f) d = f (atDim unlisted mesh as d)
  | [], _ => rfl
  | _ :: _, [] => rfl
  | (dim, n) :: mesh, a :: as => by
      rw [List.map_cons, atDim, atDim, atDim_map f]
      split <;> rfl

theorem atDim_zipWith (a₀ : α) (b₀ : β) (f : α → β → γ) :
    ∀ {mesh : List (Nat × Nat)} {as : List α} {bs : List β}, as.length = bs.length →
      atDim (f a₀ b₀) mesh (List.zipWith f as bs) d = f (atDim a₀ mesh as d) (atDim b₀ mesh bs d)
  | [], _, _, _ => by simp [atDim]
  | _ :: _, [], [], _ => rfl
  | (dim, n) :: mesh, a :: as, b :: bs, h => by
      rw [List.zipWith_cons_cons, atDim, atDim, atDim, atDim_zipWith a₀ b₀ f (by simpa using h)]
      split <;> rfl

theorem atDim_rel {R : α → β → Prop} {a₀ : α} {b₀ : β} (h₀ : R a₀ b₀) {as : List α} {bs : List β}
    (h : List.Forall₂ R as bs) : ∀ {mesh : List (Nat × Nat)},
      R (atDim a₀ mesh as d) (atDim b₀ mesh bs d) := by
  induction h with
  | nil => intro mesh; cases mesh <;> exact h₀
  | cons hR _ ih =>
      intro mesh
      cases mesh with
      | nil => exact h₀
      | cons item mesh =>
          rw [atDim, atDim]
          split
          · exact hR
          · exact ih

theorem atDim_prop {P : α → Prop} {a₀ : α} (h₀ : P a₀) {as : List α} (h : ∀ a ∈ as, P a)
    (mesh : List (Nat × Nat)) : P (atDim a₀ mesh as d) :=
  @atDim_rel _ _ _ (fun a _ => P a) a₀ a₀ h₀ as as (List.forall₂_same.mpr h) mesh

theorem countAt_of_mem {n : Nat} : ∀ {mesh : List (Nat × Nat)}, (mesh.map Prod.fst).Nodup →
    (d, n) ∈ mesh → countAt mesh d = n
  | (dim, n') :: mesh, hnodup, hmem => by
      obtain ⟨hnot, hnodup⟩ := List.nodup_cons.mp hnodup
      rw [countAt, List.map_cons, atDim]
      rcases List.mem_cons.mp hmem with heq | hmem
      · cases heq
        exact if_pos rfl
      · rw [if_neg fun heq => hnot (List.mem_map.mpr ⟨(d, n), hmem, heq⟩)]
        exact countAt_of_mem hnodup hmem

theorem atDim_congr {unlisted : α} : ∀ {mesh mesh' : List (Nat × Nat)} {as : List α},
    mesh.map Prod.fst = mesh'.map Prod.fst → atDim unlisted mesh as d = atDim unlisted mesh' as d
  | [], [], _, _ => rfl
  | _ :: _, _ :: _, [], _ => rfl
  | (dim, _) :: mesh, (dim', _) :: mesh', a :: as, h => by
      obtain ⟨hdim, hrest⟩ := List.cons.inj h
      have hdim : dim = dim' := hdim
      rw [atDim, atDim, hdim, atDim_congr hrest]

/-- Values given by dimension, listed in the order of a mesh. -/
theorem atDim_map_fst {unlisted : α} {f : Nat → α} : ∀ {mesh : List (Nat × Nat)},
    atDim unlisted mesh (mesh.map fun item => f item.1) d =
      if d ∈ mesh.map Prod.fst then f d else unlisted
  | [] => by simp [atDim]
  | (dim, n) :: mesh => by
      rw [List.map_cons, atDim, atDim_map_fst, List.map_cons]
      by_cases hd : d = dim
      · simp [hd]
      · rw [if_neg hd]
        simp only [List.mem_cons, hd, false_or]

/-- The coordinates that occur in one dimension of a grid, `0` if the mesh does not cut it. -/
theorem exists_mem_grid_atDim_iff {x : Nat} : ∀ {mesh : List (Nat × Nat)} {axes : List (List Nat)},
    axes.length = mesh.length → (∀ axis ∈ axes, axis ≠ []) →
      ((∃ cell ∈ grid axes, atDim 0 mesh cell d = x) ↔ x ∈ atDim [0] mesh axes d)
  | [], [], _, _ => by simp [grid, atDim, eq_comm]
  | (dim, n) :: mesh, axis :: axes, hlength, hne => by
      obtain ⟨haxis, haxes⟩ := List.forall_mem_cons.mp hne
      by_cases hd : d = dim
      · rw [atDim, if_pos hd]
        constructor
        · rintro ⟨cell, hcell, rfl⟩
          obtain ⟨i, rest, hi, -, rfl⟩ := List.forall₂_cons_right_iff.mp (mem_grid.mp hcell)
          rw [atDim, if_pos hd]
          exact hi
        · intro hx
          obtain ⟨rest, hrest⟩ := List.exists_mem_of_ne_nil _ (grid_ne_nil haxes)
          exact ⟨x :: rest, mem_grid.mpr (.cons hx (mem_grid.mp hrest)), if_pos hd⟩
      · rw [atDim, if_neg hd, ← exists_mem_grid_atDim_iff (by simpa using hlength) haxes]
        constructor
        · rintro ⟨cell, hcell, rfl⟩
          obtain ⟨i, rest, -, hrest, rfl⟩ := List.forall₂_cons_right_iff.mp (mem_grid.mp hcell)
          exact ⟨rest, mem_grid.mpr hrest, (if_neg hd).symm⟩
        · rintro ⟨rest, hrest, rfl⟩
          obtain ⟨i, hi⟩ := List.exists_mem_of_ne_nil _ haxis
          exact ⟨i :: rest, mem_grid.mpr (.cons hi (mem_grid.mp hrest)), if_neg hd⟩

theorem eq_of_atDim (a₀ : α) : ∀ {mesh : List (Nat × Nat)} {as bs : List α},
    (mesh.map Prod.fst).Nodup → as.length = mesh.length → bs.length = mesh.length →
      (∀ d ∈ mesh.map Prod.fst, atDim a₀ mesh as d = atDim a₀ mesh bs d) → as = bs
  | [], [], [], _, _, _, _ => rfl
  | (dim, n) :: mesh, a :: as, b :: bs, hnodup, has, hbs, h => by
      obtain ⟨hnot, hnodup⟩ := List.nodup_cons.mp hnodup
      have hfirst := h dim (List.mem_cons_self ..)
      rw [atDim, atDim, if_pos rfl, if_pos rfl] at hfirst
      have hrest : as = bs := by
        refine eq_of_atDim a₀ hnodup (by simpa using has) (by simpa using hbs) fun d hd => ?_
        have hne : d ≠ dim := fun heq => hnot (heq ▸ hd)
        have hd := h d (List.mem_cons_of_mem _ hd)
        rwa [atDim, atDim, if_neg hne, if_neg hne] at hd
      rw [hfirst, hrest]

/-- Values listed in the order of a mesh are given by their dimensions. -/
theorem map_atDim (a₀ : α) {mesh : List (Nat × Nat)} {as : List α}
    (hnodup : (mesh.map Prod.fst).Nodup) (hlength : as.length = mesh.length) :
    mesh.map (fun item => atDim a₀ mesh as item.1) = as := by
  refine eq_of_atDim a₀ hnodup (List.length_map _) hlength fun d hd => ?_
  rw [atDim_map_fst, if_pos hd]

/-- A cell of a grid whose axes are given by dimension has coordinates given by dimension. -/
theorem mem_grid_map {axis : Nat → List Nat} {mesh : List (Nat × Nat)}
    (hnodup : (mesh.map Prod.fst).Nodup) :
    cell ∈ grid (mesh.map fun item => axis item.1) ↔
      ∃ x : Nat → Nat, cell = mesh.map (fun item => x item.1) ∧
        ∀ item ∈ mesh, x item.1 ∈ axis item.1 := by
  have hcoords : ∀ x : Nat → Nat, mesh.map (fun item => x item.1) ∈
      grid (mesh.map fun item => axis item.1) ↔ ∀ item ∈ mesh, x item.1 ∈ axis item.1 := by
    intro x
    rw [mem_grid, List.forall₂_map_left_iff, List.forall₂_map_right_iff, List.forall₂_same]
  constructor
  · intro hcell
    have hlength : cell.length = mesh.length := by
      simpa using (mem_grid.mp hcell).length_eq
    have heq := (map_atDim 0 hnodup hlength).symm
    refine ⟨atDim 0 mesh cell, heq, (hcoords _).mp ?_⟩
    rwa [← heq]
  · rintro ⟨x, rfl, hx⟩
    exact (hcoords x).mpr hx

/-- Positions given by dimension are those of a cell if each of them is one of its axis. -/
theorem map_mem_grid_positions {f : Nat → Nat} {mesh : List (Nat × Nat)}
    {axes : List (List Nat)} (hnodup : (mesh.map Prod.fst).Nodup)
    (hlength : axes.length = mesh.length)
    (h : ∀ d ∈ mesh.map Prod.fst, f d < (atDim [0] mesh axes d).length) :
    mesh.map (fun item => f item.1) ∈ grid (positions axes) := by
  have haxes : positions axes =
      mesh.map fun item => List.range (atDim [0] mesh axes item.1).length := by
    conv_lhs => rw [positions, ← map_atDim [0] hnodup hlength, List.map_map]
    rfl
  rw [haxes, @mem_grid_map _ (fun d => List.range (atDim [0] mesh axes d).length) _ hnodup]
  exact ⟨f, rfl, fun item hitem => List.mem_range.mpr (h item.1 (List.mem_map_of_mem hitem))⟩

end AtDim

/-! ### Boxes -/

/-- A view of a tensor that keeps its dimensions. -/
structure Box where
  start : List Nat
  shape : List Nat
  deriving Repr, DecidableEq

namespace Box

/-- A tensor as a view of itself. -/
def whole (shape : List Nat) : Box := ⟨shape.map fun _ => 0, shape⟩

/-- The index in the tensor of the element with the index `offset` in the view. -/
def toBase (box : Box) (offset : List Nat) : List Nat := List.zipWith (· + ·) box.start offset

/-- One of `chunks` equal parts along a dimension. -/
def part (chunks dim : Nat) (box : Box) (i : Nat) : Box :=
  ⟨box.start.modify dim (· + i * (box.shape.getD dim 0 / chunks)),
    box.shape.modify dim (· / chunks)⟩

/-- `t.chunk(chunks, dim)` of a dimension that the number of chunks divides. -/
def chunk (chunks dim : Nat) (box : Box) : List Box :=
  (List.range chunks).map (box.part chunks dim)

/-- Cuts along several dimensions, one after the other. -/
def cut (mesh : List (Nat × Nat)) (boxes : List Box) : List Box :=
  mesh.foldl (fun boxes (dim, chunks) => boxes.flatMap (chunk chunks dim)) boxes

/-- The part of a box with the given coordinates in a mesh. -/
def block : List (Nat × Nat) → Box → List Nat → Box
  | (dim, chunks) :: mesh, box, i :: cell => block mesh (box.part chunks dim i) cell
  | _, box, _ => box

/-- The parts of a box come in the order of the grid of their coordinates. -/
theorem cut_eq : ∀ (mesh : List (Nat × Nat)) (boxes : List Box),
    cut mesh boxes = boxes.flatMap fun box =>
      (grid (mesh.map fun item => List.range item.2)).map (block mesh box)
  | [], boxes => by simp [cut, grid, block]
  | (dim, chunks) :: mesh, boxes => by
      have hcut : cut ((dim, chunks) :: mesh) boxes =
          cut mesh (boxes.flatMap (chunk chunks dim)) := rfl
      rw [hcut, cut_eq mesh, List.flatMap_assoc]
      refine List.flatMap_congr fun box _ => ?_
      rw [chunk, List.flatMap_map, List.map_cons, grid, List.map_flatMap]
      refine List.flatMap_congr fun i _ => ?_
      rw [List.map_map]
      rfl

/-! Boxes, dimension by dimension. -/

/-- The box has a start in every dimension. -/
def Wf (box : Box) : Prop := box.start.length = box.shape.length

theorem wf_whole (shape : List Nat) : (whole shape).Wf := List.length_map _

variable {box : Box} {d : Nat}

theorem getD_modify (l : List Nat) (f : Nat → Nat) (dim : Nat) :
    (l.modify dim f).getD d 0 = if d = dim ∧ d < l.length then f (l.getD d 0) else l.getD d 0 := by
  rw [List.getD_eq_getElem?_getD, List.getElem?_modify, List.getD_eq_getElem?_getD]
  by_cases hlt : d < l.length
  · by_cases hd : dim = d
    · simp [hd, hlt]
    · simp [hd, hlt, Ne.symm hd]
  · simp [hlt]

theorem Wf.part (h : box.Wf) (chunks dim i : Nat) : (box.part chunks dim i).Wf := by
  simp only [Wf, Box.part, List.length_modify]
  exact h

theorem getD_shape_part (chunks dim i : Nat) : (box.part chunks dim i).shape.getD d 0 =
    if d = dim then box.shape.getD d 0 / chunks else box.shape.getD d 0 := by
  rw [Box.part, getD_modify]
  by_cases hlt : d < box.shape.length
  · simp [hlt]
  · simp [hlt]

theorem Wf.getD_start_part (h : box.Wf) (chunks dim i : Nat) :
    (box.part chunks dim i).start.getD d 0 =
      box.start.getD d 0 + if d = dim then i * (box.shape.getD d 0 / chunks) else 0 := by
  rw [Box.part, getD_modify]
  by_cases hd : d = dim
  · subst hd
    by_cases hlt : d < box.start.length
    · simp [hlt]
    · have hlt' : ¬ d < box.shape.length := h ▸ hlt
      simp [hlt, hlt']
  · simp [hd]

theorem length_shape_block : ∀ (mesh : List (Nat × Nat)) (box : Box) (cell : List Nat),
    (block mesh box cell).shape.length = box.shape.length
  | [], _, _ => rfl
  | _ :: _, _, [] => rfl
  | (dim, chunks) :: mesh, box, i :: cell => by
      rw [block, length_shape_block]
      exact List.length_modify ..

theorem Wf.block : ∀ {mesh : List (Nat × Nat)} {box : Box} {cell : List Nat}, box.Wf →
    (block mesh box cell).Wf
  | [], _, _, h => h
  | _ :: _, _, [], h => h
  | (dim, chunks) :: _, _, i :: _, h => (h.part chunks dim i).block

theorem getD_shape_block : ∀ {mesh : List (Nat × Nat)} {box : Box} {cell : List Nat},
    (mesh.map Prod.fst).Nodup → cell.length = mesh.length →
      (Box.block mesh box cell).shape.getD d 0 = box.shape.getD d 0 / countAt mesh d
  | [], _, _, _, _ => by simp [Box.block, countAt, atDim]
  | (dim, chunks) :: mesh, box, i :: cell, hnodup, hlength => by
      obtain ⟨hnot, hnodup⟩ := List.nodup_cons.mp hnodup
      rw [Box.block, getD_shape_block hnodup (by simpa using hlength), getD_shape_part]
      by_cases hd : d = dim
      · subst hd
        have hone : countAt mesh d = 1 := atDim_of_notMem hnot
        have hcount : countAt ((d, chunks) :: mesh) d = chunks := if_pos rfl
        rw [if_pos rfl, hone, hcount, Nat.div_one]
      · simp [hd, countAt, atDim]

/-- Where a part starts, in each dimension. -/
theorem Wf.getD_start_block : ∀ {mesh : List (Nat × Nat)} {box : Box} {cell : List Nat}, box.Wf →
    (mesh.map Prod.fst).Nodup → cell.length = mesh.length →
      (Box.block mesh box cell).start.getD d 0 =
        box.start.getD d 0 + atDim 0 mesh cell d * (box.shape.getD d 0 / countAt mesh d)
  | [], _, _, _, _, _ => by simp [Box.block, atDim]
  | (dim, chunks) :: mesh, box, i :: cell, h, hnodup, hlength => by
      obtain ⟨hnot, hnodup⟩ := List.nodup_cons.mp hnodup
      rw [Box.block, (h.part chunks dim i).getD_start_block hnodup (by simpa using hlength),
        h.getD_start_part, getD_shape_part]
      by_cases hd : d = dim
      · subst hd
        have hzero : atDim 0 mesh cell d = 0 := atDim_of_notMem hnot
        simp [hzero, countAt, atDim]
      · simp [hd, countAt, atDim]

/-- The offset is one of the view. -/
def Has (box : Box) (offset : List Nat) : Prop := List.Forall₂ (· < ·) offset box.shape

theorem forall₂_lt_iff {l l' : List Nat} : List.Forall₂ (· < ·) l l' ↔
    l.length = l'.length ∧ ∀ d < l'.length, l.getD d 0 < l'.getD d 0 := by
  rw [List.forall₂_iff_get]
  refine and_congr_right fun hlength => ?_
  constructor
  · intro h d hd
    have hd' : d < l.length := hlength ▸ hd
    have := h d hd' hd
    simpa [List.getD_eq_getElem?_getD, hd, hd'] using this
  · intro h d hd' hd
    have := h d hd
    simpa [List.getD_eq_getElem?_getD, hd, hd'] using this

theorem eq_of_getD {l l' : List Nat} (hlength : l.length = l'.length)
    (h : ∀ d < l.length, l.getD d 0 = l'.getD d 0) : l = l' := by
  refine List.ext_getElem hlength fun d hd hd' => ?_
  have := h d hd
  simpa [List.getD_eq_getElem?_getD, hd, hd'] using this

theorem length_toBase {offset : List Nat} (h : box.Wf)
    (hlength : offset.length = box.shape.length) :
    (box.toBase offset).length = box.shape.length := by
  unfold Wf at h
  simp [toBase, h, hlength]

theorem getD_toBase {offset : List Nat} (h : box.Wf) (hlength : offset.length = box.shape.length)
    (hd : d < box.shape.length) :
    (box.toBase offset).getD d 0 = box.start.getD d 0 + offset.getD d 0 := by
  unfold Wf at h
  have hstart : d < box.start.length := h ▸ hd
  have hoffset : d < offset.length := hlength ▸ hd
  simp [toBase, List.getD_eq_getElem?_getD, hstart, hoffset]

end Box

/-! ### Axes -/

/-- The element `i` of a local axis, whose blocks have the coordinates `values` in the global one,
is the element `g` of the global axis. -/
def OnAxis (values : List Nat) (size g i : Nat) : Prop :=
  ∃ j v o, values[j]? = some v ∧ o < size ∧ i = j * size + o ∧ g = v * size + o

/-- Every coordinate split into `factor` ones. -/
def refineAxis (factor : Nat) (values : List Nat) : List Nat :=
  values.flatMap fun v => (List.range factor).map (v * factor + ·)

variable {factor size g i : Nat} {values : List Nat}

theorem mem_refineAxis {x : Nat} :
    x ∈ refineAxis factor values ↔ ∃ v ∈ values, ∃ r < factor, x = v * factor + r := by
  simp [refineAxis, eq_comm]

theorem mem_refineAxis_iff_div {x : Nat} (hpos : 0 < factor) :
    x ∈ refineAxis factor values ↔ x / factor ∈ values := by
  rw [mem_refineAxis]
  constructor
  · rintro ⟨v, hv, r, hr, rfl⟩
    rwa [Nat.mul_comm v, Nat.mul_add_div hpos, Nat.div_eq_of_lt hr, Nat.add_zero]
  · intro hv
    exact ⟨x / factor, hv, x % factor, Nat.mod_lt _ hpos, (Nat.div_add_mod' x factor).symm⟩

theorem length_refineAxis : (refineAxis factor values).length = values.length * factor := by
  simp [refineAxis]

theorem getElem?_refineAxis {r : Nat} (hr : r < factor) : ∀ {values : List Nat} {j : Nat},
    (refineAxis factor values)[j * factor + r]? = values[j]?.map (· * factor + r)
  | [], j => by simp [refineAxis]
  | v :: values, 0 => by
      rw [refineAxis, List.flatMap_cons, List.getElem?_append_left (by simpa using hr)]
      simp [hr]
  | v :: values, j + 1 => by
      have hle : ((List.range factor).map (v * factor + ·)).length ≤ (j + 1) * factor + r := by
        rw [List.length_map, List.length_range, Nat.add_mul]
        omega
      have hsub : (j + 1) * factor + r - factor = j * factor + r := by
        rw [Nat.add_mul]
        omega
      rw [refineAxis, List.flatMap_cons, List.getElem?_append_right hle, List.length_map,
        List.length_range, hsub, List.getElem?_cons_succ]
      exact getElem?_refineAxis hr

theorem pairwise_refineAxis (h : values.Pairwise (· < ·)) :
    (refineAxis factor values).Pairwise (· < ·) := by
  rw [refineAxis, List.pairwise_flatMap]
  refine ⟨fun v _ => ?_, h.imp fun {v w} hlt x hx y hy => ?_⟩
  · rw [List.pairwise_map]
    exact List.pairwise_lt_range.imp fun hlt => Nat.add_lt_add_left hlt _
  · obtain ⟨r, hr, rfl⟩ := List.mem_map.mp hx
    obtain ⟨r', -, rfl⟩ := List.mem_map.mp hy
    have hr := List.mem_range.mp hr
    calc v * factor + r < (v + 1) * factor := by rw [Nat.add_mul]; omega
      _ ≤ w * factor := Nat.mul_le_mul_right _ hlt
      _ ≤ w * factor + r' := Nat.le_add_right ..

theorem mul_add_inj {size j j' o o' : Nat} (ho : o < size) (ho' : o' < size)
    (h : j * size + o = j' * size + o') : j = j' ∧ o = o' := by
  have hpos : 0 < size := Nat.zero_lt_of_lt ho
  have hdiv := congrArg (· / size) h
  have hmod := congrArg (· % size) h
  simp only [Nat.mul_add_mod_self_right, Nat.mod_eq_of_lt ho, Nat.mod_eq_of_lt ho'] at hmod
  simp only [Nat.add_comm _ o, Nat.add_comm _ o', Nat.add_mul_div_right _ _ hpos,
    Nat.div_eq_of_lt ho, Nat.div_eq_of_lt ho', Nat.zero_add] at hdiv
  exact ⟨hdiv, hmod⟩

theorem OnAxis.global_unique {g' : Nat} (h : OnAxis values size g i)
    (h' : OnAxis values size g' i) : g = g' := by
  obtain ⟨j, v, o, hv, ho, hi, rfl⟩ := h
  obtain ⟨j', v', o', hv', ho', hi', rfl⟩ := h'
  obtain ⟨rfl, rfl⟩ := mul_add_inj ho ho' (hi.symm.trans hi')
  rw [hv, Option.some.injEq] at hv'
  rw [hv']

theorem OnAxis.local_unique {i' : Nat} (hnodup : values.Nodup) (h : OnAxis values size g i)
    (h' : OnAxis values size g i') : i = i' := by
  obtain ⟨j, v, o, hv, ho, rfl, hg⟩ := h
  obtain ⟨j', v', o', hv', ho', rfl, hg'⟩ := h'
  obtain ⟨rfl, rfl⟩ := mul_add_inj ho ho' (hg.symm.trans hg')
  obtain ⟨hj, hget⟩ := List.getElem?_eq_some_iff.mp hv
  obtain ⟨hj', hget'⟩ := List.getElem?_eq_some_iff.mp hv'
  rw [(hnodup.getElem_inj_iff).mp (hget.trans hget'.symm)]

/-- Every element of a local axis stands for one of the global axis. -/
theorem exists_onAxis (h : i < values.length * size) : ∃ g, OnAxis values size g i := by
  have hpos : 0 < size := Nat.pos_of_ne_zero fun hzero => by simp [hzero] at h
  have hj : i / size < values.length := (Nat.div_lt_iff_lt_mul hpos).mpr h
  exact ⟨_, i / size, _, i % size, List.getElem?_eq_getElem hj, Nat.mod_lt _ hpos,
    (Nat.div_add_mod' i size).symm, rfl⟩

/-- Splitting the blocks of an axis leaves every element where it is. -/
theorem onAxis_refineAxis :
    OnAxis (refineAxis factor values) size g i ↔ OnAxis values (factor * size) g i := by
  constructor
  · rintro ⟨j, v, o, hv, ho, rfl, rfl⟩
    have hpos : 0 < factor := by
      have hmem := List.mem_of_getElem? hv
      obtain ⟨-, -, r, hr, -⟩ := mem_refineAxis.mp hmem
      omega
    have hlt := Nat.mod_lt j hpos
    have hj : j / factor * factor + j % factor = j := Nat.div_add_mod' j factor
    rw [← hj, getElem?_refineAxis hlt, Option.map_eq_some_iff] at hv
    obtain ⟨w, hw, rfl⟩ := hv
    refine ⟨j / factor, w, j % factor * size + o, hw, ?_, ?_, ?_⟩
    · calc j % factor * size + o < (j % factor + 1) * size := by rw [Nat.add_mul]; omega
        _ ≤ factor * size := Nat.mul_le_mul_right _ hlt
    · conv_lhs => rw [← hj]
      ring
    · ring
  · rintro ⟨j, v, o, hv, ho, rfl, rfl⟩
    have hpos : 0 < size := by
      by_contra hzero
      simp only [Nat.not_lt, Nat.le_zero] at hzero
      subst hzero
      simp at ho
    have hr : o / size < factor := (Nat.div_lt_iff_lt_mul hpos).mpr ho
    have ho' : o / size * size + o % size = o := Nat.div_add_mod' o size
    refine ⟨j * factor + o / size, v * factor + o / size, o % size, ?_, Nat.mod_lt _ hpos, ?_, ?_⟩
    · rw [getElem?_refineAxis hr, hv]
      rfl
    · conv_lhs => rw [← ho']
      ring
    · conv_lhs => rw [← ho']
      ring

end Py
