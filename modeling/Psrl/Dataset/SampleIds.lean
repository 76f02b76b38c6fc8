import Psrl.Lib.Run
import Psrl.Lib.Python

/-!
# Psrl.Dataset.SampleIds

**Ids of samples and requests** (`DataProcessor` in `utils/dataset/data_processor.py`).

Samples for training get ids from `0` up to `MAX_TRAIN_ID`, those for validation the ids that
follow, up to `MAX_TRAIN_ID + MAX_VAL_ID`; both counters wrap around. A sample's requests are
numbered by scaling its id with the group size of its kind. The ranges of samples are disjoint, but
the two kinds are scaled by different factors: the requests for validation begin at
`MAX_TRAIN_ID * val_rollout_n`, which is before the end of those for training if `val_rollout_n` is
the smaller one, and close to or beyond `sys.maxsize` if it is the larger one
(`request_ids_separate_iff`).
-/

namespace Psrl

open Py

/-- `sys.maxsize` on 64-bit platforms. -/
def sysMaxsize : Nat := 2 ^ 63 - 1

inductive DatasetType
  | train
  | val
  deriving DecidableEq

/-- `DataProcessor`: the group sizes and the counters of samples. -/
structure SampleIdCounters where
  rolloutN : Nat
  valRolloutN : Nat
  trainSampleIdx : Nat
  valSampleIdx : Nat

namespace SampleIdCounters

def new (rolloutN valRolloutN : Nat) : SampleIdCounters := ⟨rolloutN, valRolloutN, 0, 0⟩

/-- `MAX_TRAIN_ID`. -/
def maxTrainId (p : SampleIdCounters) : Nat := sysMaxsize / (2 * p.rolloutN)

/-- `MAX_VAL_ID`. -/
def maxValId (p : SampleIdCounters) : Nat := sysMaxsize / (2 * p.valRolloutN)

/-- The body of the loop of `get_val_sample_ids`. -/
def nextValSampleId (acc : List Nat × SampleIdCounters) (_ : Nat) :
    Except PyError (List Nat × SampleIdCounters) := do
  let valOffset ← pyMod acc.2.valSampleIdx acc.2.maxValId
  return (acc.1 ++ [acc.2.maxTrainId + valOffset],
    { acc.2 with valSampleIdx := acc.2.valSampleIdx + 1 })

/-- `get_val_sample_ids`. -/
def getValSampleIds (p : SampleIdCounters) (batchSize : Nat) :
    Except PyError (List Nat × SampleIdCounters) :=
  (List.range batchSize).foldlM nextValSampleId ([], p)

/-- `get_train_sample_ids`. -/
def getTrainSampleIds (p : SampleIdCounters) (batchSize : Nat) :
    Except PyError (List Nat × SampleIdCounters) := do
  let sampleIds ← (List.range batchSize).mapM fun i => pyMod (p.trainSampleIdx + i) p.maxTrainId
  let trainSampleIdx ← pyMod (p.trainSampleIdx + batchSize) p.maxTrainId
  return (sampleIds, { p with trainSampleIdx := trainSampleIdx })

/-- The ids of the requests for some samples. -/
def requestIds (rolloutN : Nat) (sampleIds : List Nat) : List Nat :=
  if rolloutN > 1 then
    sampleIds.flatMap fun sampleId => (List.range rolloutN).map (sampleId * rolloutN + ·)
  else sampleIds

/-- The ids that `get_single_controller_batch` gives to a batch (and `sample_train_prompts` to
prompts for training). -/
def batchRequestIds (p : SampleIdCounters) (datasetType : DatasetType) (batchSize : Nat) :
    Except PyError (List Nat × SampleIdCounters) :=
  match datasetType with
  | .train => do
      let (sampleIds, p) ← p.getTrainSampleIds batchSize
      return (requestIds p.rolloutN sampleIds, p)
  | .val => do
      let (sampleIds, p) ← p.getValSampleIds batchSize
      return (requestIds p.valRolloutN sampleIds, p)

end SampleIdCounters

/-- The processor with the ids given out so far, and for how many samples. -/
structure Requests where
  processor : SampleIdCounters
  trainIds : List Nat
  valIds : List Nat
  trainSamples : Nat
  valSamples : Nat

namespace Requests

def start (rolloutN valRolloutN : Nat) : Requests := ⟨.new rolloutN valRolloutN, [], [], 0, 0⟩

/-- A batch of some size is drawn. -/
def exec (s : Requests) (batch : DatasetType × Nat) : Except PyError Requests := do
  let (ids, p) ← s.processor.batchRequestIds batch.1 batch.2
  match batch.1 with
  | .train => return { s with
      processor := p, trainIds := s.trainIds ++ ids, trainSamples := s.trainSamples + batch.2 }
  | .val => return { s with
      processor := p, valIds := s.valIds ++ ids, valSamples := s.valSamples + batch.2 }

end Requests

namespace SampleIdCounters

variable {p p' : SampleIdCounters} {n k x : Nat} {ids : List Nat}

/-- The requests of a sample are those with its id as quotient. -/
theorem mem_requestIds (hn : 1 ≤ n) : x ∈ requestIds n ids ↔ x / n ∈ ids := by
  unfold requestIds
  split
  · rename_i hlt
    rw [List.mem_flatMap]
    constructor
    · rintro ⟨sampleId, hmem, hx⟩
      obtain ⟨j, hj, rfl⟩ := List.mem_map.mp hx
      rwa [Nat.mul_comm sampleId, Nat.mul_add_div hn, Nat.div_eq_of_lt (List.mem_range.mp hj),
        Nat.add_zero]
    · intro hmem
      exact ⟨x / n, hmem, List.mem_map.mpr ⟨x % n, List.mem_range.mpr (Nat.mod_lt _ hn),
        Nat.div_add_mod' x n⟩⟩
  · rename_i hone
    obtain rfl : n = 1 := by omega
    rw [Nat.div_one]

/-- One more value of a counter that wraps around. -/
theorem lt_min_succ (hk : 0 < k) : x < min (n + 1) k ↔ x < min n k ∨ x = n % k := by
  by_cases hlt : n < k
  · rw [Nat.mod_eq_of_lt hlt, Nat.min_eq_left hlt, Nat.min_eq_left hlt.le, Nat.lt_succ_iff_lt_or_eq]
  · have hmod := Nat.mod_lt n hk
    rw [Nat.min_eq_right (by omega), Nat.min_eq_right (by omega)]
    omega

/-- The values of a counter that wraps around, in one batch. -/
theorem lt_min_add {a : Nat} (hk : 0 < k) :
    x < min (a + n) k ↔ x < min a k ∨ ∃ i < n, (a + i) % k = x := by
  induction n with
  | zero => simp
  | succ n ih =>
      rw [← Nat.add_assoc, lt_min_succ hk, ih, or_assoc]
      rw [Nat.exists_lt_succ_right, eq_comm (a := x)]

/-- The ids of a batch for training. -/
theorem getTrainSampleIds_eq_ok (h : p.getTrainSampleIds n = .ok (ids, p')) :
    0 < p.maxTrainId ∧
    p' = { p with trainSampleIdx := (p.trainSampleIdx + n) % p.maxTrainId } ∧
    ∀ x, x ∈ ids ↔ ∃ i < n, (p.trainSampleIdx + i) % p.maxTrainId = x := by
  obtain ⟨sampleIds, hids, h⟩ := bind_eq_ok.mp h
  obtain ⟨idx, hidx, h⟩ := bind_eq_ok.mp h
  cases h
  obtain ⟨hpos, rfl⟩ := pyMod_eq_ok.mp hidx
  have hall := (mapM_eq_ok hids).imp fun i x h => (pyMod_eq_ok.mp h).2
  rw [← List.forall₂_map_left_iff, List.forall₂_eq_eq_eq] at hall
  subst hall
  refine ⟨hpos, rfl, fun x => ?_⟩
  simp

/-- The ids of a batch for validation. -/
theorem getValSampleIds_eq_ok : ∀ {n : Nat} {ids : List Nat} {p' : SampleIdCounters},
    p.getValSampleIds n = .ok (ids, p') →
    (0 < n → 0 < p.maxValId) ∧
    p' = { p with valSampleIdx := p.valSampleIdx + n } ∧
    ∀ x, x ∈ ids ↔ ∃ i < n, p.maxTrainId + (p.valSampleIdx + i) % p.maxValId = x := by
  intro n
  induction n with
  | zero =>
      intro ids p' h
      cases h
      exact ⟨fun h => absurd h (Nat.lt_irrefl 0), rfl, by simp⟩
  | succ n ih =>
      intro ids p' h
      rw [getValSampleIds, List.range_succ, List.foldlM_append] at h
      obtain ⟨⟨ids₁, p₁⟩, hfirst, h⟩ := bind_eq_ok.mp h
      obtain ⟨-, rfl, hmem⟩ := ih hfirst
      rw [List.foldlM_cons] at h
      obtain ⟨⟨ids₂, p₂⟩, hlast, h⟩ := bind_eq_ok.mp h
      cases h
      obtain ⟨offset, hoffset, hlast⟩ := bind_eq_ok.mp hlast
      cases hlast
      obtain ⟨hpos, rfl⟩ := pyMod_eq_ok.mp hoffset
      refine ⟨fun _ => hpos, rfl, fun x => ?_⟩
      rw [List.mem_append, hmem, List.mem_singleton, Nat.exists_lt_succ_right, eq_comm (a := x)]
      rfl

end SampleIdCounters

namespace Requests

open SampleIdCounters

variable {s s' : Requests} {rolloutN valRolloutN : Nat} {batch : DatasetType × Nat}

/-- Which ids were given out: all multiples of a range of samples, which only depends on how many
samples were drawn. -/
structure Inv (rolloutN valRolloutN : Nat) (s : Requests) : Prop where
  rolloutN_eq : s.processor.rolloutN = rolloutN
  valRolloutN_eq : s.processor.valRolloutN = valRolloutN
  trainIdx : s.processor.trainSampleIdx = s.trainSamples % s.processor.maxTrainId
  valIdx : s.processor.valSampleIdx = s.valSamples
  valPos : 0 < s.valSamples → 0 < s.processor.maxValId
  train : ∀ x, x ∈ s.trainIds ↔ x / rolloutN < min s.trainSamples s.processor.maxTrainId
  val : ∀ x, x ∈ s.valIds ↔ ∃ o < min s.valSamples s.processor.maxValId,
    x / valRolloutN = s.processor.maxTrainId + o

theorem Inv.start (rolloutN valRolloutN : Nat) :
    Inv rolloutN valRolloutN (start rolloutN valRolloutN) where
  rolloutN_eq := rfl
  valRolloutN_eq := rfl
  trainIdx := (Nat.zero_mod _).symm
  valIdx := rfl
  valPos h := absurd h (Nat.lt_irrefl 0)
  train x := by simp [Requests.start]
  val x := by simp [Requests.start]

theorem Inv.exec (h : Inv rolloutN valRolloutN s) (hn : 1 ≤ rolloutN) (hv : 1 ≤ valRolloutN)
    (hexec : exec s batch = .ok s') : Inv rolloutN valRolloutN s' := by
  obtain ⟨datasetType, n⟩ := batch
  obtain ⟨⟨ids, p⟩, hids, hexec⟩ := bind_eq_ok.mp hexec
  cases datasetType with
  | train =>
      cases hexec
      obtain ⟨⟨sampleIds, p⟩, hsamples, hids⟩ := bind_eq_ok.mp hids
      cases hids
      obtain ⟨hpos, rfl, hmem⟩ := getTrainSampleIds_eq_ok hsamples
      refine ⟨h.rolloutN_eq, h.valRolloutN_eq, ?_, h.valIdx, h.valPos, fun x => ?_, h.val⟩
      · show (s.processor.trainSampleIdx + n) % s.processor.maxTrainId =
          (s.trainSamples + n) % s.processor.maxTrainId
        rw [h.trainIdx, Nat.mod_add_mod]
      · show x ∈ s.trainIds ++ requestIds s.processor.rolloutN sampleIds ↔
          x / rolloutN < min (s.trainSamples + n) s.processor.maxTrainId
        rw [List.mem_append, h.train, h.rolloutN_eq, mem_requestIds hn, hmem, lt_min_add hpos]
        simp only [h.trainIdx, Nat.mod_add_mod]
  | val =>
      cases hexec
      obtain ⟨⟨sampleIds, p⟩, hsamples, hids⟩ := bind_eq_ok.mp hids
      cases hids
      obtain ⟨hpos, rfl, hmem⟩ := getValSampleIds_eq_ok hsamples
      refine ⟨h.rolloutN_eq, h.valRolloutN_eq, h.trainIdx, ?_, ?_, h.train, fun x => ?_⟩
      · show s.processor.valSampleIdx + n = s.valSamples + n
        rw [h.valIdx]
      · intro hsome
        rcases Nat.eq_zero_or_pos n with rfl | hdrawn
        · exact h.valPos hsome
        · exact hpos hdrawn
      · show x ∈ s.valIds ++ requestIds s.processor.valRolloutN sampleIds ↔
          ∃ o < min (s.valSamples + n) s.processor.maxValId,
            x / valRolloutN = s.processor.maxTrainId + o
        rw [List.mem_append, h.val, h.valRolloutN_eq, mem_requestIds hv, hmem, h.valIdx]
        rcases Nat.eq_zero_or_pos n with rfl | hdrawn
        · simp
        · have hpos := hpos hdrawn
          constructor
          · rintro (⟨o, ho, heq⟩ | ⟨i, hi, heq⟩)
            · exact ⟨o, (lt_min_add hpos).mpr (.inl ho), heq⟩
            · exact ⟨_, (lt_min_add hpos).mpr (.inr ⟨i, hi, rfl⟩), heq.symm⟩
          · rintro ⟨o, ho, heq⟩
            rcases (lt_min_add hpos).mp ho with ho | ⟨i, hi, rfl⟩
            · exact .inl ⟨o, ho, heq⟩
            · exact .inr ⟨i, hi, heq.symm⟩

/-- All ids fit into a machine word, and no id stands for two requests of different kinds. -/
def Separate (s : Requests) : Prop :=
  (∀ x ∈ s.trainIds, x ≤ sysMaxsize) ∧ (∀ x ∈ s.valIds, x ≤ sysMaxsize) ∧
    s.trainIds.Disjoint s.valIds

/-- Nothing was drawn for validation, or what was drawn ends at most at `sys.maxsize` and begins
after the requests for training. -/
def Separable (p : SampleIdCounters) (trainSamples valSamples : Nat) : Prop :=
  valSamples = 0 ∨
    (p.maxTrainId + min valSamples p.maxValId) * p.valRolloutN ≤ sysMaxsize + 1 ∧
    min trainSamples p.maxTrainId * p.rolloutN ≤ p.maxTrainId * p.valRolloutN

instance (p : SampleIdCounters) (trainSamples valSamples : Nat) :
    Decidable (Separable p trainSamples valSamples) :=
  inferInstanceAs (Decidable (_ ∨ _ ∧ _))

section

variable (h : Inv rolloutN valRolloutN s)

include h

theorem Inv.processor_eq :
    s.processor.maxTrainId = (SampleIdCounters.new rolloutN valRolloutN).maxTrainId ∧
    s.processor.maxValId = (SampleIdCounters.new rolloutN valRolloutN).maxValId := by
  unfold maxTrainId maxValId
  rw [h.rolloutN_eq, h.valRolloutN_eq]
  exact ⟨rfl, rfl⟩

/-- The requests for training are an initial segment. -/
theorem Inv.mem_trainIds (hn : 1 ≤ rolloutN) (x : Nat) :
    x ∈ s.trainIds ↔ x < min s.trainSamples s.processor.maxTrainId * rolloutN := by
  rw [h.train, Nat.div_lt_iff_lt_mul hn]

/-- Those for validation are a segment that begins at `MAX_TRAIN_ID * val_rollout_n`. -/
theorem Inv.mem_valIds (hv : 1 ≤ valRolloutN) (x : Nat) :
    x ∈ s.valIds ↔ s.processor.maxTrainId * valRolloutN ≤ x ∧
      x < (s.processor.maxTrainId + min s.valSamples s.processor.maxValId) * valRolloutN := by
  rw [h.val, ← Nat.le_div_iff_mul_le hv, ← Nat.div_lt_iff_lt_mul hv]
  constructor
  · rintro ⟨o, ho, heq⟩
    rw [heq]
    exact ⟨Nat.le_add_right _ _, Nat.add_lt_add_left ho _⟩
  · rintro ⟨hle, hlt⟩
    exact ⟨x / valRolloutN - s.processor.maxTrainId, by omega, by omega⟩

/-- The requests for training always fit: they take at most half of the range. -/
theorem Inv.trainIds_le (hn : 1 ≤ rolloutN) {x : Nat} (hx : x ∈ s.trainIds) : x ≤ sysMaxsize := by
  have hlt := (h.mem_trainIds hn x).mp hx
  have hmax : s.processor.maxTrainId * (2 * rolloutN) ≤ sysMaxsize := by
    rw [h.processor_eq.1]
    exact Nat.div_mul_le_self _ _
  calc x ≤ min s.trainSamples s.processor.maxTrainId * rolloutN := hlt.le
    _ ≤ s.processor.maxTrainId * (2 * rolloutN) :=
        Nat.mul_le_mul (Nat.min_le_right _ _) (Nat.le_mul_of_pos_left _ Nat.two_pos)
    _ ≤ sysMaxsize := hmax

theorem Inv.separate_iff (hn : 1 ≤ rolloutN) (hv : 1 ≤ valRolloutN) :
    s.Separate ↔ Separable (.new rolloutN valRolloutN) s.trainSamples s.valSamples := by
  have htrain := h.mem_trainIds hn
  have hval := h.mem_valIds hv
  have hfit := fun x => @Inv.trainIds_le _ _ _ h hn x
  have hpos := h.valPos
  rw [h.processor_eq.1] at htrain
  rw [h.processor_eq.1, h.processor_eq.2] at hval
  rw [h.processor_eq.2] at hpos
  unfold Separable Separate
  rcases Nat.eq_zero_or_pos s.valSamples with hzero | hsome
  · -- no id was given out for validation
    have hnone : ∀ x, x ∉ s.valIds := fun x hx => by
      have hx := (hval x).mp hx
      rw [hzero, Nat.zero_min, Nat.add_zero] at hx
      omega
    exact ⟨fun _ => .inl hzero, fun _ => ⟨hfit, fun x hx => absurd hx (hnone x),
      fun x _ hx => hnone x hx⟩⟩
  · have hmin := Nat.lt_min.mpr ⟨hsome, hpos hsome⟩
    generalize (new rolloutN valRolloutN).maxTrainId = first at htrain hval ⊢
    generalize min s.valSamples (new rolloutN valRolloutN).maxValId = drawn at hval hmin ⊢
    have hlast : first * valRolloutN < (first + drawn) * valRolloutN :=
      Nat.mul_lt_mul_of_pos_right (by omega) hv
    show _ ↔ s.valSamples = 0 ∨ (first + drawn) * valRolloutN ≤ sysMaxsize + 1 ∧
      min s.trainSamples first * rolloutN ≤ first * valRolloutN
    constructor
    · rintro ⟨-, hle, hdisj⟩
      refine .inr ⟨?_, ?_⟩
      · -- the last id for validation
        have := hle ((first + drawn) * valRolloutN - 1) ((hval _).mpr (by omega))
        omega
      · -- otherwise the first id for validation is one for training
        by_contra hlt
        exact hdisj ((htrain (first * valRolloutN)).mpr (by omega))
          ((hval _).mpr ⟨le_rfl, hlast⟩)
    · rintro (hzero | ⟨hle, hbefore⟩)
      · omega
      · refine ⟨hfit, fun x hx => ?_, fun x hx hx' => ?_⟩
        · have := (hval x).mp hx
          omega
        · have := (htrain x).mp hx
          have := (hval x).mp hx'
          omega

end

/-- Whatever is drawn, the ids of requests are as the tracker needs them exactly if the two group
sizes and the numbers of samples drawn so far leave room for it. -/
theorem request_ids_separate_iff (hn : 1 ≤ rolloutN) (hv : 1 ≤ valRolloutN)
    (h : Run.Reachable exec (fun _ _ => True) (start rolloutN valRolloutN) s) :
    s.Separate ↔ Separable (.new rolloutN valRolloutN) s.trainSamples s.valSamples := by
  have hinv : Inv rolloutN valRolloutN s := by
    refine h.invariant (.start _ _) fun s batch s' hs _ hexec => ?_
    exact hs.exec hn hv hexec
  exact hinv.separate_iff hn hv

theorem request_ids_separate_eight :
    ∃ s, Run.Reachable exec (fun _ _ => True) (start 8 8) s ∧
      s.trainSamples = 3 ∧ s.valSamples = 2 ∧ s.Separate := by
  obtain ⟨s, hs, hcounts⟩ : ∃ s, Run.Reachable exec (fun _ _ => True) (start 8 8) s ∧
      decide (s.trainSamples = 3 ∧ s.valSamples = 2) = true :=
    Run.exists_reachable_of_perform (l := [(.train, 3), (.val, 2)]) (by decide +kernel)
  obtain ⟨htrain, hval⟩ := of_decide_eq_true hcounts
  refine ⟨s, hs, htrain, hval, (request_ids_separate_iff (by decide) (by decide) hs).mpr ?_⟩
  rw [htrain, hval]
  decide +kernel

/-- Groups of 8 for training and of 16 for validation: the requests of the second sample for
validation are numbered from `2 ^ 63` on. -/
theorem request_ids_exceed_maxsize :
    ∃ s, Run.Reachable exec (fun _ _ => True) (start 8 16) s ∧
      sysMaxsize < 2 ^ 63 ∧ 2 ^ 63 ∈ s.valIds ∧ ¬ s.Separate := by
  obtain ⟨s, hs, hover⟩ : ∃ s, Run.Reachable exec (fun _ _ => True) (start 8 16) s ∧
      decide (sysMaxsize < 2 ^ 63 ∧ 2 ^ 63 ∈ s.valIds) = true :=
    Run.exists_reachable_of_perform (l := [(.val, 2)]) (by decide +kernel)
  obtain ⟨hlt, hmem⟩ := of_decide_eq_true hover
  exact ⟨s, hs, hlt, hmem, fun hsep => absurd (hsep.2.1 _ hmem) (Nat.not_le.mpr hlt)⟩

end Requests

end Psrl
