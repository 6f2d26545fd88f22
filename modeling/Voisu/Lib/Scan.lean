import Mathlib.Tactic.Common

/-!
# Scans that move forward

`while i < len { (i, state) = step(i, state) }`: every round moves the position forward by a stride of
its own, one item or several.

* `scanFrom`          the rounds, as many as there are positions left;
* `scan_invariant`    what every round keeps holds at the end, and the end is past the last item.
-/

namespace Voisu.Lib

section
variable {σ : Type} (len : Nat) (step : Nat → σ → Nat × σ)

/-- at most `rounds` rounds -/
def scanFrom : Nat → Nat → σ → σ
  | 0, _, s => s
  | rounds + 1, i, s => if i < len then scanFrom rounds (step i s).1 (step i s).2 else s

def scan (s : σ) : σ := scanFrom len step len 0 s

variable {len step}

theorem scanFrom_invariant {I : Nat → σ → Prop}
    (hstep : ∀ i s, i < len → I i s → i < (step i s).1 ∧ I (step i s).1 (step i s).2) :
    ∀ (rounds i : Nat) (s : σ), len ≤ rounds + i → I i s →
      ∃ j, len ≤ j ∧ I j (scanFrom len step rounds i s) := by
  intro rounds
  induction rounds with
  | zero =>
    intro i s hi hinv
    exact ⟨i, by omega, hinv⟩
  | succ rounds ih =>
    intro i s hi hinv
    unfold scanFrom
    by_cases hlt : i < len
    · rw [if_pos hlt]
      obtain ⟨hprogress, hinv'⟩ := hstep i s hlt hinv
      exact ih _ _ (by omega) hinv'
    · rw [if_neg hlt]
      exact ⟨i, by omega, hinv⟩

/-- **the invariant rule of a scan** -/
theorem scan_invariant {I : Nat → σ → Prop}
    (hstep : ∀ i s, i < len → I i s → i < (step i s).1 ∧ I (step i s).1 (step i s).2)
    {s : σ} (hinv : I 0 s) : ∃ j, len ≤ j ∧ I j (scan len step s) :=
  scanFrom_invariant hstep len 0 s (by omega) hinv

end

end Voisu.Lib
