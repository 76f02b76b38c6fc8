import Mathlib.Order.WellFounded
import Psrl.Lib.Run

/-!
# Psrl.Lib.Live

What happens eventually in an infinite run.

`Trace` is an infinite run of a transition function. It is fair to a kind of actions if one of them
is taken whenever they are possible from some point on. The ranking rule (`Trace.Fair.eventually`)
concludes that a goal is reached: as long as it is not, an action of the kind is possible, such an
action lowers a rank, and no other action raises it.
-/

namespace Run

variable {σ α ε : Type}

/-- An infinite run. -/
structure Trace (exec : σ → α → Except ε σ) (allowed : σ → α → Prop) (init : σ) where
  state : Nat → σ
  act : Nat → α
  starts : state 0 = init
  admitted : ∀ n, allowed (state n) (act n)
  returns : ∀ n, exec (state n) (act n) = .ok (state (n + 1))

variable {exec : σ → α → Except ε σ} {allowed : σ → α → Prop} {init : σ}

theorem Trace.reachable (t : Trace exec allowed init) (n : Nat) :
    Reachable exec allowed init (t.state n) := by
  induction n with
  | zero =>
      rw [t.starts]
      exact .start
  | succ n ih => exact ih.step (t.admitted n) (t.returns n)

/-- Weak fairness to a kind of actions. -/
def Trace.Fair (t : Trace exec allowed init) (enabled : σ → Prop) (kind : α → Prop) : Prop :=
  ∀ n, (∀ k ≥ n, enabled (t.state k)) → ∃ k ≥ n, kind (t.act k)

/-- A property that steps keep as long as the goal is not reached. -/
theorem Trace.persists (t : Trace exec allowed init) {P Q : σ → Prop}
    (hstep : ∀ s a s', P s → ¬ Q s → allowed s a → exec s a = .ok s' → ¬ Q s' → P s') {n : Nat}
    (hP : P (t.state n)) (hQ : ∀ k ≥ n, ¬ Q (t.state k)) : ∀ k ≥ n, P (t.state k) := by
  intro k hk
  induction k, hk using Nat.le_induction with
  | base => exact hP
  | succ k hk ih =>
      exact hstep _ _ _ ih (hQ k hk) (t.admitted k) (t.returns k)
        (hQ (k + 1) (Nat.le_succ_of_le hk))

/-- The ranking rule. -/
theorem Trace.Fair.eventually {t : Trace exec allowed init} {enabled : σ → Prop} {kind : α → Prop}
    (hfair : t.Fair enabled kind) {W : Type} [Preorder W] [WellFoundedLT W] (rank : σ → W)
    {P Q : σ → Prop}
    (hstep : ∀ s a s', P s → ¬ Q s → allowed s a → exec s a = .ok s' → ¬ Q s' →
      P s' ∧ rank s' ≤ rank s ∧ (kind a → rank s' < rank s))
    (henabled : ∀ s, P s → ¬ Q s → enabled s) {n : Nat} (hP : P (t.state n)) :
    ∃ k ≥ n, Q (t.state k) := by
  induction hrank : rank (t.state n) using WellFoundedLT.induction generalizing n with
  | ind w ih =>
      by_contra hnone
      have hQ : ∀ k ≥ n, ¬ Q (t.state k) := fun k hk hq => hnone ⟨k, hk, hq⟩
      have hPs := t.persists (fun s a s' hP hQ hallowed hexec hQ' =>
        (hstep s a s' hP hQ hallowed hexec hQ').1) hP hQ
      have hle : ∀ k ≥ n, rank (t.state k) ≤ rank (t.state n) := by
        intro k hk
        induction k, hk using Nat.le_induction with
        | base => exact le_refl _
        | succ k hk ihk =>
            have hnext := hstep _ _ _ (hPs k hk) (hQ k hk) (t.admitted k) (t.returns k)
              (hQ (k + 1) (Nat.le_succ_of_le hk))
            exact hnext.2.1.trans ihk
      obtain ⟨k, hk, hkind⟩ := hfair n fun k hk => henabled _ (hPs k hk) (hQ k hk)
      obtain ⟨hP', -, hlt⟩ := hstep _ _ _ (hPs k hk) (hQ k hk) (t.admitted k) (t.returns k)
        (hQ (k + 1) (Nat.le_succ_of_le hk))
      have hless : rank (t.state (k + 1)) < w := hrank ▸ (hlt hkind).trans_le (hle k hk)
      obtain ⟨j, hj, hq⟩ := ih _ hless hP' rfl
      exact hQ j ((Nat.le_succ_of_le hk).trans hj) hq

/-- A kind of actions that is not possible any more from some point on gets what it is due. -/
theorem Trace.fair_of_quiet {t : Trace exec allowed init} {enabled : σ → Prop} {kind : α → Prop}
    {s : σ} {m : Nat} (hquiet : ∀ n ≥ m, t.state n = s) (hnot : ¬ enabled s) :
    t.Fair enabled kind := by
  intro n henabled
  have hlater := henabled (max n m) (le_max_left n m)
  rw [hquiet _ (le_max_right n m)] at hlater
  exact absurd hlater hnot

section Concrete

variable [∀ s a, Decidable (allowed s a)]

/-- A finite run, followed by an action that changes nothing. -/
theorem exists_trace_of_perform (rest : α) : ∀ {l : List α} {init s : σ},
    perform exec allowed init l = some s → allowed s rest → exec s rest = .ok s →
      ∃ t : Trace exec allowed init, ∀ n ≥ l.length, t.state n = s
  | [], init, s, h, hallowed, hexec => by
      obtain rfl : init = s := by simpa [perform] using h
      exact ⟨⟨fun _ => init, fun _ => rest, rfl, fun _ => hallowed, fun _ => hexec⟩, fun _ _ => rfl⟩
  | a :: l, init, s, h, hallowed, hexec => by
      unfold perform at h
      split at h
      · rename_i hfirst
        split at h
        · rename_i s₁ hstep
          obtain ⟨t, ht⟩ := exists_trace_of_perform rest h hallowed hexec
          refine ⟨⟨fun n => n.casesOn init t.state, fun n => n.casesOn a t.act, rfl, fun n => ?_,
            fun n => ?_⟩, fun n hn => ?_⟩
          · cases n with
            | zero => exact hfirst
            | succ n => exact t.admitted n
          · cases n with
            | zero =>
                exact hstep.trans (congrArg Except.ok t.starts.symm)
            | succ n => exact t.returns n
          · cases n with
            | zero => exact absurd hn (by simp)
            | succ n => exact ht n (by simpa using hn)
        · cases h
      · cases h

end Concrete

end Run
