import Mathlib

/-!
# Additions and multiplications of 32-bit counters

The same code is built with overflow checks and without.  Arithmetic is given to it as a pair of
operations in a monad.

* `U32.checked`    an operation that overflows stops the program;
* `U32.wrapping`   an operation that overflows keeps the low 32 bits;
* `U32.mul_checked`, `U32.add_checked`   where the checks pass, both builds compute the exact number.
-/

namespace Voisu.Lib

structure U32 (m : Type → Type) where
  add : Nat → Nat → m Nat
  mul : Nat → Nat → m Nat

namespace U32

def fit (n : Nat) : Option Nat := if n < 2 ^ 32 then some n else none

/-- `none` is a panic -/
def checked : U32 Option where
  add := fun a b => fit (a + b)
  mul := fun a b => fit (a * b)

def wrapping : U32 Id where
  add := fun a b => (a + b) % 2 ^ 32
  mul := fun a b => (a * b) % 2 ^ 32

theorem fit_eq_some {n k : Nat} : fit n = some k ↔ n < 2 ^ 32 ∧ n = k := by
  unfold fit
  split_ifs with h
  · exact ⟨fun he => ⟨h, Option.some.inj he⟩, fun he => congrArg some he.2⟩
  · exact ⟨nofun, fun he => absurd he.1 h⟩

theorem fit_eq_none {n : Nat} : fit n = none ↔ 2 ^ 32 ≤ n := by
  unfold fit
  split_ifs with h
  · simp only [reduceCtorEq, false_iff]
    omega
  · simp only [true_iff]
    omega

theorem add_checked {a b c : Nat} (h : checked.add a b = some c) :
    c = a + b ∧ wrapping.add a b = c := by
  obtain ⟨hlt, rfl⟩ := fit_eq_some.mp h
  exact ⟨rfl, Nat.mod_eq_of_lt hlt⟩

theorem mul_checked {a b c : Nat} (h : checked.mul a b = some c) :
    c = a * b ∧ wrapping.mul a b = c := by
  obtain ⟨hlt, rfl⟩ := fit_eq_some.mp h
  exact ⟨rfl, Nat.mod_eq_of_lt hlt⟩

end U32

end Voisu.Lib
