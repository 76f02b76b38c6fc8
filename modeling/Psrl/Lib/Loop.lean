import Psrl.Lib.Python

/-!
# Psrl.Lib.Loop

`while` loops. A loop is run for a number of turns; one that is still running then has run out of
fuel, which is kept apart from the exceptions its body raises. `whileLoop_ok` is the rule for total
correctness (an invariant and a variant), `whileLoop_invariant` the one for a loop that is known to
return.
-/

namespace Py

/-- How a computation with loops ends without a value. -/
inductive Halt
  | outOfFuel
  | raised (e : PyError)
  deriving Repr, DecidableEq

/-- The next state of a loop, and whether the loop goes on. -/
inductive LoopTurn (σ : Type)
  | next (s : σ)
  | stop (s : σ)

variable {σ α : Type}

/-- The state after a turn. -/
def LoopTurn.state : LoopTurn σ → σ
  | .next s => s
  | .stop s => s

/-- A computation without loops, as a part of one with loops. -/
def raising : Except PyError α → Except Halt α
  | .ok a => .ok a
  | .error e => .error (.raised e)

@[simp] theorem raising_ok (a : α) : raising (.ok a) = .ok a := rfl

theorem raising_eq_ok {x : Except PyError α} {a : α} : raising x = .ok a ↔ x = .ok a := by
  cases x <;> simp [raising]

/-- A loop that runs for at most the given number of turns. -/
def whileLoop (body : σ → Except PyError (LoopTurn σ)) : Nat → σ → Except Halt σ
  | 0, _ => .error .outOfFuel
  | fuel + 1, s =>
      match body s with
      | .error e => .error (.raised e)
      | .ok (.stop s') => .ok s'
      | .ok (.next s') => whileLoop body fuel s'

variable {body : σ → Except PyError (LoopTurn σ)} {I Q : σ → Prop}

/-- A body that keeps the invariant, lowers the variant and never raises: with more fuel than the
variant, the loop returns. -/
theorem whileLoop_ok (variant : σ → Nat)
    (hbody : ∀ s, I s → (∃ s', body s = .ok (.stop s') ∧ Q s') ∨
      ∃ s', body s = .ok (.next s') ∧ I s' ∧ variant s' < variant s) :
    ∀ {fuel : Nat} {s : σ}, I s → variant s < fuel → ∃ s', whileLoop body fuel s = .ok s' ∧ Q s'
  | 0, _, _, h => absurd h (Nat.not_lt_zero _)
  | fuel + 1, s, hs, h => by
      rcases hbody s hs with ⟨s', hturn, hq⟩ | ⟨s', hturn, hs', hlt⟩
      · exact ⟨s', by simp only [whileLoop, hturn], hq⟩
      · obtain ⟨s'', hrun, hq⟩ := whileLoop_ok variant hbody hs' (by omega : variant s' < fuel)
        exact ⟨s'', by simp only [whileLoop, hturn, hrun], hq⟩

/-- What every turn keeps, a loop that returned has kept. -/
theorem whileLoop_invariant (hbody : ∀ s turn, I s → body s = .ok turn → I turn.state) :
    ∀ {fuel : Nat} {s s' : σ}, whileLoop body fuel s = .ok s' → I s → I s'
  | 0, _, _, h, _ => by cases h
  | fuel + 1, s, s', h, hs => by
      cases hturn : body s with
      | error e => simp [whileLoop, hturn] at h
      | ok turn =>
          cases turn with
          | stop s₁ =>
              simp only [whileLoop, hturn, Except.ok.injEq] at h
              exact h ▸ hbody s (.stop s₁) hs hturn
          | next s₁ =>
              simp only [whileLoop, hturn] at h
              exact whileLoop_invariant hbody h (hbody s (.next s₁) hs hturn)

/-! ### Assertions -/

/-- The computation returns a value with `Q` if the condition holds, and otherwise fails an
assertion; in particular, it ends. -/
structure Asserts (x : Except Halt α) (P : Prop) (Q : α → Prop) : Prop where
  returns : P → ∃ a, x = .ok a ∧ Q a
  fails : ¬ P → ∃ msg, x = .error (.raised (.assertionError msg))

namespace Asserts

variable {β γ : Type} {P : Prop} {Q : α → Prop} {x : Except Halt α}

theorem of_iff {P' : Prop} (h : Asserts x P Q) (hiff : P ↔ P') : Asserts x P' Q :=
  ⟨fun hP => h.returns (hiff.mpr hP), fun hP => h.fails (hiff.not.mpr hP)⟩

theorem ok_iff (h : Asserts x P Q) : (∃ a, x = .ok a) ↔ P := by
  constructor
  · rintro ⟨a, rfl⟩
    by_contra hP
    obtain ⟨msg, hfails⟩ := h.fails hP
    cases hfails
  · intro hP
    obtain ⟨a, hx, -⟩ := h.returns hP
    exact ⟨a, hx⟩

theorem ends (h : Asserts x P Q) :
    (∃ a, x = .ok a) ∨ ∃ msg, x = .error (.raised (.assertionError msg)) := by
  by_cases hP : P
  · exact .inl (h.ok_iff.mpr hP)
  · exact .inr (h.fails hP)

theorem map {R : β → Prop} (h : Asserts x P Q) (f : α → β) (hf : ∀ a, Q a → R (f a)) :
    Asserts (x >>= fun a => .ok (f a)) P R := by
  refine ⟨fun hP => ?_, fun hP => ?_⟩
  · obtain ⟨a, rfl, ha⟩ := h.returns hP
    exact ⟨f a, rfl, hf a ha⟩
  · obtain ⟨msg, rfl⟩ := h.fails hP
    exact ⟨msg, rfl⟩

/-- A loop over a list whose iterations assert one condition each. -/
theorem foldlM {f : β → γ → Except Halt β} {P : γ → Prop} {Q : β → Prop} :
    ∀ {l : List γ} {b : β}, (∀ b, ∀ c ∈ l, Q b → Asserts (f b c) (P c) Q) → Q b →
      Asserts (l.foldlM f b) (∀ c ∈ l, P c) Q
  | [], b, _, hb => ⟨fun _ => ⟨b, rfl, hb⟩, fun h => absurd (fun _ hc => by cases hc) h⟩
  | c :: l, b, hf, hb => by
      have hc := hf b c (List.mem_cons_self ..) hb
      rw [List.foldlM_cons]
      by_cases hP : P c
      · obtain ⟨b', hb', hQ⟩ := hc.returns hP
        rw [hb', ok_bind]
        refine (foldlM (fun b d hd => hf b d (List.mem_cons_of_mem _ hd)) hQ).of_iff ?_
        rw [List.forall_mem_cons, and_iff_right hP]
      · obtain ⟨msg, hfails⟩ := hc.fails hP
        rw [hfails, error_bind]
        exact ⟨fun h => absurd (h c (List.mem_cons_self ..)) hP, fun _ => ⟨msg, rfl⟩⟩

end Asserts

end Py
