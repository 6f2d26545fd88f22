import Mathlib.Tactic.Common

/-!
# Results that may be errors
-/

namespace Voisu.Lib

/-- a sequence that succeeds has succeeded step by step -/
theorem bind_eq_ok {ε α β : Type} {x : Except ε α} {f : α → Except ε β} {b : β}
    (h : (x >>= f) = .ok b) : ∃ a, x = .ok a ∧ f a = .ok b := by
  cases x with
  | error e => cases h
  | ok a => exact ⟨a, rfl, h⟩

end Voisu.Lib
