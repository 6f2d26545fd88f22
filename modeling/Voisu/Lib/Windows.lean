import Mathlib.Data.List.Chain

/-!
# Overlapping windows of a list

A `Window` is a range of positions.  `Covers o a b ws` says that the windows `ws` run from `a` to `b`,
each one starting `o` positions before the stop of the one before it and going past that stop.

* `Covers.append`   two runs that meet with the same overlap are one run;
* `Covers.shift`    a run of a suffix is a run of the whole list;
* `slice_shift`     and it reads the same elements there.
-/

namespace Voisu.Lib

structure Window where
  start : Nat
  stop : Nat
deriving DecidableEq, Repr

namespace Window

variable {α : Type}

/-- the elements of a list that a window holds -/
def slice (w : Window) (l : List α) : List α := (l.take w.stop).drop w.start

def shift (k : Nat) (w : Window) : Window := ⟨k + w.start, k + w.stop⟩

/-- `w` starts `o` positions before the stop of `v`, and holds a position past it -/
def Follows (o : Nat) (v w : Window) : Prop := w.start + o = v.stop ∧ v.stop < w.stop

theorem slice_shift (k : Nat) (w : Window) (l : List α) :
    (w.shift k).slice l = w.slice (l.drop k) := by
  show (l.take (k + w.stop)).drop (k + w.start) = ((l.drop k).take w.stop).drop w.start
  rw [← List.drop_drop, List.take_drop]

theorem slice_of_le {w : Window} {l m : List α} (h : w.stop ≤ l.length) :
    w.slice (l ++ m) = w.slice l := by
  show ((l ++ m).take w.stop).drop w.start = _
  rw [List.take_append_of_le_length h]
  rfl

end Window

open Window

/-! ## runs of windows -/

structure Covers (o a b : Nat) (ws : List Window) : Prop where
  first : ws.head?.map Window.start = some a
  last : ws.getLast?.map Window.stop = some b
  chain : ws.IsChain (Follows o)

variable {o a b c d : Nat} {w : Window} {ws vs : List Window}

theorem Covers.single (o : Nat) (w : Window) : Covers o w.start w.stop [w] :=
  ⟨rfl, rfl, List.isChain_singleton w⟩

theorem Covers.append (hw : Covers o a b ws) (hv : Covers o c d vs) (hc : c + o = b)
    (hb : ∀ w ∈ vs.head?, b < w.stop) : Covers o a d (ws ++ vs) := by
  obtain ⟨v, hv1, hvc⟩ := Option.map_eq_some_iff.mp hv.first
  obtain ⟨w, hw1, hwb⟩ := Option.map_eq_some_iff.mp hw.last
  refine ⟨?_, ?_, List.isChain_append.mpr ⟨hw.chain, hv.chain, ?_⟩⟩
  · have hne : ws ≠ [] := by
      rintro rfl
      simp at hw1
    rw [List.head?_append_of_ne_nil _ hne]
    exact hw.first
  · have hne : vs ≠ [] := by
      rintro rfl
      simp at hv1
    rw [List.getLast?_append_of_ne_nil _ hne]
    exact hv.last
  · intro x hx y hy
    obtain rfl : w = x := Option.some.inj (hw1.symm.trans hx)
    obtain rfl : v = y := Option.some.inj (hv1.symm.trans hy)
    have hlt := hb v hv1
    refine ⟨?_, ?_⟩
    · rw [hvc, hc, hwb]
    · rw [hwb]
      exact hlt

theorem Covers.cons (hv : Covers o c d vs) (hc : c + o = w.stop)
    (hb : ∀ v ∈ vs.head?, w.stop < v.stop) : Covers o w.start d (w :: vs) :=
  (Covers.single o w).append hv hc hb

theorem Covers.shift (h : Covers o a b ws) (k : Nat) :
    Covers o (k + a) (k + b) (ws.map (Window.shift k)) := by
  obtain ⟨v, hv1, hva⟩ := Option.map_eq_some_iff.mp h.first
  obtain ⟨w, hw1, hwb⟩ := Option.map_eq_some_iff.mp h.last
  refine ⟨?_, ?_, ?_⟩
  · rw [List.head?_map, hv1]
    exact congrArg (fun n => some (k + n)) hva
  · rw [List.getLast?_map, hw1]
    exact congrArg (fun n => some (k + n)) hwb
  · refine List.isChain_map_of_isChain _ ?_ h.chain
    rintro x y ⟨hs, hlt⟩
    refine ⟨?_, ?_⟩
    · show k + y.start + o = k + x.stop
      omega
    · show k + x.stop < k + y.stop
      omega

/-- no window of a run goes past its end -/
theorem Covers.stop_le : ∀ {ws : List Window} {a : Nat}, Covers o a b ws → ∀ w ∈ ws, w.stop ≤ b := by
  intro ws
  induction ws with
  | nil =>
    intro a h w hw
    simp at hw
  | cons v ws ih =>
    intro a h w hw
    cases ws with
    | nil =>
      obtain rfl : w = v := by simpa using hw
      have hb : w.stop = b := by simpa using h.last
      omega
    | cons v' ws =>
      have hchain := List.isChain_cons_cons.mp h.chain
      have htail : Covers o v'.start b (v' :: ws) :=
        ⟨rfl, by simpa [List.getLast?_cons_cons] using h.last, hchain.2⟩
      rcases List.mem_cons.mp hw with rfl | hw
      · have := ih htail v' List.mem_cons_self
        have := hchain.1.2
        omega
      · exact ih htail w hw

end Voisu.Lib
