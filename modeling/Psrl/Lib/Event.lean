import Mathlib.Logic.Basic

/-!
# Psrl.Lib.Event

Events of a single-threaded event loop (`asyncio.Event`).

`set` resolves the futures of all calls of `wait` that are pending at that moment; a call whose
future was resolved goes on later, also if the event has been cleared in the meantime. Hence an
event counts in `epoch` how often it has released its waiters, and a call of `wait` keeps as its
`ticket` the epoch in which it began: it can go on once that epoch is over.
-/

namespace Py

/-- `asyncio.Event`. -/
structure Event where
  isSet : Bool
  epoch : Nat
  deriving Repr, DecidableEq

namespace Event

variable {e : Event} {ticket : Nat}

/-- A fresh event is not set. -/
def new : Event := ⟨false, 0⟩

/-- `event.set()`. -/
def set (e : Event) : Event := if e.isSet then e else ⟨true, e.epoch + 1⟩

/-- `event.clear()`. -/
def clear (e : Event) : Event := { e with isSet := false }

/-- `event.wait()`: no ticket is needed for an event that is set. -/
def wait (e : Event) : Option Nat := if e.isSet then none else some e.epoch

/-- A call of `wait` with this ticket has been released. -/
def Passes (e : Event) (ticket : Option Nat) : Prop := ∀ n ∈ ticket, n < e.epoch

instance (e : Event) (ticket : Option Nat) : Decidable (e.Passes ticket) :=
  inferInstanceAs (Decidable (∀ n ∈ ticket, n < e.epoch))

@[simp] theorem isSet_set (e : Event) : e.set.isSet = true := by
  unfold set
  split
  · assumption
  · rfl

@[simp] theorem isSet_clear (e : Event) : e.clear.isSet = false := rfl

theorem epoch_le_set (e : Event) : e.epoch ≤ e.set.epoch := by
  unfold set
  split
  · exact Nat.le_refl _
  · exact Nat.le_succ _

/-- A waiting call is released by the next `set`. -/
theorem lt_epoch_set (hticket : ticket ≤ e.epoch) (hblocked : e.isSet = true → ticket < e.epoch) :
    ticket < e.set.epoch := by
  unfold set
  split
  · rename_i hset
    exact hblocked hset
  · exact Nat.lt_succ_of_le hticket

end Event

end Py
