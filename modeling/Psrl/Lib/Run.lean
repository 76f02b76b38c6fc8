import Mathlib.Logic.Basic

/-!
# Psrl.Lib.Run

Runs of a labelled system whose steps can fail.

A system is a function `exec` that performs one action and either returns the
next state or raises. Which actions a run may take is a separate predicate
`allowed` on the state and the action, so that one system can be studied under
several protocols of use. The two rules at the end are the only inductions over
runs a safety proof needs: `Reachable.invariant` for a property kept by every
returning step, and `Reachable.safe` when the steps are also shown not to raise.
-/

namespace Run

variable {σ α ε : Type}

/-- The states reached from `init` by returning steps that `allowed` admits. -/
inductive Reachable (exec : σ → α → Except ε σ) (allowed : σ → α → Prop) (init : σ) : σ → Prop
  | start : Reachable exec allowed init init
  | step {s s' : σ} {a : α} :
      Reachable exec allowed init s → allowed s a → exec s a = .ok s' →
        Reachable exec allowed init s'

variable {exec : σ → α → Except ε σ} {allowed : σ → α → Prop} {init : σ}

/-- A property of the initial state kept by every returning step holds throughout. -/
theorem Reachable.invariant {P : σ → Prop} (hinit : P init)
    (hstep : ∀ s a s', P s → allowed s a → exec s a = .ok s' → P s')
    {s : σ} (h : Reachable exec allowed init s) : P s := by
  induction h with
  | start => exact hinit
  | step _ hallowed hexec ih => exact hstep _ _ _ ih hallowed hexec

/-- If every admitted step taken in a state with `P` returns in a state with `P`, then no
step of a run raises and `P` holds throughout. -/
theorem Reachable.safe {P : σ → Prop} (hinit : P init)
    (hstep : ∀ s a, P s → allowed s a → ∃ s', exec s a = .ok s' ∧ P s')
    {s : σ} (h : Reachable exec allowed init s) :
    P s ∧ ∀ a, allowed s a → ∃ s', exec s a = .ok s' := by
  have hP : P s := by
    refine h.invariant hinit fun s a s' hs hallowed hexec => ?_
    obtain ⟨s1, hexec1, hs1⟩ := hstep s a hs hallowed
    obtain rfl : s1 = s' := by rw [hexec1] at hexec; cases hexec; rfl
    exact hs1
  refine ⟨hP, fun a hallowed => ?_⟩
  obtain ⟨s', hexec, -⟩ := hstep s a hP hallowed
  exact ⟨s', hexec⟩

/-- A run goes on from where another one ended. -/
theorem Reachable.trans {s s' : σ} (h : Reachable exec allowed init s)
    (h' : Reachable exec allowed s s') : Reachable exec allowed init s' := by
  induction h' with
  | start => exact h
  | step _ hallowed hexec ih => exact ih.step hallowed hexec

/-- Fewer admitted steps reach fewer states. -/
theorem Reachable.mono {allowed' : σ → α → Prop} (himp : ∀ s a, allowed s a → allowed' s a)
    {s : σ} (h : Reachable exec allowed init s) : Reachable exec allowed' init s := by
  induction h with
  | start => exact .start
  | step _ hallowed hexec ih => exact .step ih (himp _ _ hallowed) hexec

section Concrete

variable [∀ s a, Decidable (allowed s a)]

/-- Perform a list of actions, checking each against `allowed`. -/
def perform (exec : σ → α → Except ε σ) (allowed : σ → α → Prop)
    [∀ s a, Decidable (allowed s a)] : σ → List α → Option σ
  | s, [] => some s
  | s, a :: rest =>
    if allowed s a then
      match exec s a with
      | .ok s' => perform exec allowed s' rest
      | .error _ => none
    else none

theorem Reachable.perform : ∀ {l : List α} {s s' : σ}, Reachable exec allowed init s →
    perform exec allowed s l = some s' → Reachable exec allowed init s'
  | [], s, s', hs, h => by
      obtain rfl : s = s' := by simpa [Run.perform] using h
      exact hs
  | a :: rest, s, s', hs, h => by
      unfold Run.perform at h
      split at h
      · rename_i hallowed
        split at h
        · rename_i s1 hexec
          exact Reachable.perform (hs.step hallowed hexec) h
        · cases h
      · cases h

/-- A concrete run that ends in a state with `p`. -/
theorem exists_reachable_of_perform {l : List α} {p : σ → Bool}
    (h : (Run.perform exec allowed init l).map p = some true) :
    ∃ s, Reachable exec allowed init s ∧ p s = true := by
  cases hrun : Run.perform exec allowed init l with
  | none => rw [hrun] at h; cases h
  | some s =>
      rw [hrun] at h
      exact ⟨s, Reachable.perform .start hrun, by simpa using h⟩

end Concrete

end Run
