import Mathlib
import Voisu.Decision.Matching
import Voisu.Decision.Pipeline

/-!
# Provider neutrality

What the comparators say when the two sources change places.  The matching flips
(`phoneticMatching_flip`), so each measure of one side becomes that of the other; only the default
tie-break looks at the side itself.

* `selectBetterSource_swap`    the tiers of evidence;
* `sourceQualityGate_swap`     the gate;
* `sourceQualityGate_neutral`  **the selected text is the same**.
-/

namespace Voisu.Decision
open Lib

def GateWinner.other : GateWinner → GateWinner
  | .left => .right
  | .right => .left

@[simp] theorem GateWinner.pick_other {α : Type} (winner : GateWinner) (left right : α) :
    winner.other.pick right left = winner.pick left right := by
  cases winner <;> rfl

def QualityGate.flip (gate : QualityGate) : QualityGate := { gate with winner := gate.winner.other }

theorem QualityGate.flip_some (winner : GateWinner) (reason : Text)
    (confidence : SourceSelectionConfidence) :
    (some (⟨winner, reason, confidence⟩ : QualityGate)).map flip =
      some ⟨winner.other, reason, confidence⟩ := rfl

theorem distinctContentWords_nodup (words : List Text) : (distinctContentWords words).Nodup :=
  List.nodup_dedup _

/-- the words that the other side confirms, seen from either side -/
theorem phoneticMatching_swap (left right : List Text) :
    phoneticMatching (distinctContentWords right) (distinctContentWords left) =
      (phoneticMatching (distinctContentWords left) (distinctContentWords right)).map Prod.swap :=
  phoneticMatching_flip (distinctContentWords_nodup left) (distinctContentWords_nodup right)

theorem map_fst_swap (m : List (Text × Text)) :
    (m.map Prod.swap).map Prod.fst = m.map Prod.snd := by
  rw [List.map_map]
  rfl

theorem map_snd_swap (m : List (Text × Text)) :
    (m.map Prod.swap).map Prod.snd = m.map Prod.fst := by
  rw [List.map_map]
  rfl

/-- a margin is measured in either direction, and there is none where the shares agree -/
theorem margin_swap (a b : ℚ) : |fsub b a| = |fsub a b| := by
  rw [fsub_neg a b, abs_neg]

theorem ne_of_margin {a b : ℚ} (h : confirmationMargin < |fsub a b|) : a ≠ b := by
  rintro rfl
  rw [fsub_self, abs_zero] at h
  exact absurd h (by decide +kernel)

/-- the comparison of one tier, from the other side -/
theorem winner_swap {a b : ℚ} (h : a ≠ b) :
    (if a < b then GateWinner.left else .right) =
      (if b < a then GateWinner.left else .right).other := by
  rcases lt_or_gt_of_ne h with hab | hab
  · rw [if_pos hab, if_neg (not_lt.mpr hab.le)]
    rfl
  · rw [if_neg (not_lt.mpr hab.le), if_pos hab]
    rfl

theorem garbage_swap {l r : Bool} (h : (l != r) = true) :
    (if r then GateWinner.right else .left) = (if l then GateWinner.right else .left).other := by
  cases l <;> cases r <;> first | rfl | cases h

/-- **the evidence is that of the swapped sources, and the winner the other side, the default
apart** -/
theorem selectBetterSource_swap (left right : List Text) :
    ((selectBetterSource left right).2 = .default ∧
        selectBetterSource left right = (.right, .default) ∧
        selectBetterSource right left = (.right, .default)) ∨
      ((selectBetterSource left right).2 ≠ .default ∧
        selectBetterSource right left =
          ((selectBetterSource left right).1.other, (selectBetterSource left right).2)) := by
  unfold selectBetterSource
  simp only [phoneticMatching_swap left right, map_fst_swap, map_snd_swap]
  generalize phoneticMatching (distinctContentWords left) (distinctContentWords right) = m
  generalize isGarbageAgainst left (m.map Prod.fst) = lg
  generalize isGarbageAgainst right (m.map Prod.snd) = rg
  generalize confirmationShare (m.map Prod.fst) (distinctContentWords left) = lc
  generalize confirmationShare (m.map Prod.snd) (distinctContentWords right) = rc
  generalize topicalCohesion left = lt
  generalize topicalCohesion right = rt
  generalize sourceQuality left = lq
  generalize sourceQuality right = rq
  rw [margin_swap lc rc, show (rg != lg) = (lg != rg) from Bool.xor_comm rg lg]
  by_cases hgarbage : (lg != rg) = true
  · rw [if_pos hgarbage, if_pos hgarbage]
    exact Or.inr ⟨nofun, by rw [garbage_swap hgarbage]⟩
  rw [if_neg hgarbage, if_neg hgarbage]
  by_cases hmargin : confirmationMargin < |fsub lc rc|
  · rw [if_pos hmargin, if_pos hmargin]
    exact Or.inr ⟨nofun, by rw [winner_swap (ne_of_margin hmargin)]⟩
  rw [if_neg hmargin, if_neg hmargin]
  by_cases hcohesion : lt ≠ rt
  · rw [if_pos hcohesion, if_pos hcohesion.symm]
    refine Or.inr ⟨nofun, ?_⟩
    have := winner_swap (a := (lt : ℚ)) (b := rt) (by exact_mod_cast hcohesion)
    simp only [Nat.cast_lt] at this
    rw [this]
  rw [if_neg hcohesion, if_neg (fun h => hcohesion (Ne.symm h))]
  rcases lt_trichotomy lq rq with hq | rfl | hq
  · rw [if_neg (not_lt.mpr hq.le), if_pos hq, if_pos hq]
    exact Or.inr ⟨nofun, rfl⟩
  · rw [if_neg (lt_irrefl lq), if_neg (lt_irrefl lq)]
    exact Or.inl ⟨rfl, rfl, rfl⟩
  · rw [if_pos hq, if_neg (not_lt.mpr hq.le), if_pos hq]
    exact Or.inr ⟨nofun, rfl⟩

/-- the gate was decided by the default tie-break -/
def DecidedByDefault (left right : Text) : Prop :=
  ∃ gate, sourceQualityGate left right = some gate ∧
    sourceQualityGate right left = some gate ∧ gate.winner = .right ∧ gate.confidence = .low ∧
    (selectBetterSource (normalizedWords left) (normalizedWords right)).2 = .default

theorem sourceQualityGate_swap (left right : Text) :
    DecidedByDefault left right ∨
      sourceQualityGate right left = (sourceQualityGate left right).map QualityGate.flip := by
  unfold DecidedByDefault sourceQualityGate
  generalize normalizedWords left = l
  generalize normalizedWords right = r
  simp only [phoneticMatching_swap l r, map_fst_swap, map_snd_swap, List.length_map,
    min_comm r.length l.length, max_comm r.length l.length,
    min_comm (distinctContentWords r).length (distinctContentWords l).length]
  generalize phoneticMatching (distinctContentWords l) (distinctContentWords r) = m
  generalize isGarbageAgainst l (m.map Prod.fst) = lg
  generalize isGarbageAgainst r (m.map Prod.snd) = rg
  by_cases hfewer : min l.length r.length = 0
  · -- the side without words
    rw [if_pos hfewer, if_pos hfewer]
    by_cases hmore : max l.length r.length = 0
    · rw [if_pos hmore, if_pos hmore]
      exact Or.inr rfl
    · rw [if_neg hmore, if_neg hmore]
      refine Or.inr ?_
      cases l <;> cases r <;> first | rfl | simp at hfewer hmore
  rw [if_neg hfewer, if_neg hfewer, show (rg != lg) = (lg != rg) from Bool.xor_comm rg lg]
  by_cases hgarbage : (lg != rg) = true
  · rw [if_pos hgarbage, if_pos hgarbage, garbage_swap hgarbage, QualityGate.flip_some]
    exact Or.inr (Eq.refl _)
  rw [if_neg hgarbage, if_neg hgarbage]
  have hsame : rg = lg := by
    cases lg <;> cases rg <;> first | rfl | exact absurd rfl hgarbage
  rw [hsame]
  by_cases hratio : fdiv (min l.length r.length : ℕ) (max l.length r.length : ℕ) <
      divergenceLengthRatioFloor
  · -- a fragment is shorter
    rw [if_pos hratio, if_pos hratio]
    refine Or.inr ?_
    have hne : (l.length : ℚ) ≠ r.length := by
      intro h
      rw [Nat.cast_inj] at h
      rw [h, min_self] at hratio hfewer
      rw [max_self] at hratio
      rw [fdiv, div_self (by exact_mod_cast hfewer)] at hratio
      exact absurd hratio (by decide +kernel)
    have hwinner : (if l.length ≤ r.length then GateWinner.left else .right) =
        (if r.length ≤ l.length then GateWinner.left else .right).other := by
      rw [Ne, Nat.cast_inj] at hne
      rcases lt_or_gt_of_ne hne with h | h
      · rw [if_pos h.le, if_neg (not_le.mpr h)]
        rfl
      · rw [if_neg (not_le.mpr h), if_pos h.le]
        rfl
    rw [hwinner, QualityGate.flip_some]
  rw [if_neg hratio, if_neg hratio]
  by_cases hboth : lg = true
  · rw [if_pos hboth, if_pos hboth]
    exact Or.inr rfl
  rw [if_neg hboth, if_neg hboth]
  generalize min (distinctContentWords l).length (distinctContentWords r).length = smaller
  generalize fdiv m.length smaller = agreement
  by_cases hdiverge : (minComparableContent ≤ smaller && agreement < contentOverlapFloor) = true
  · rw [if_pos hdiverge, if_pos hdiverge]
    rcases selectBetterSource_swap l r with ⟨hdefault, h, h'⟩ | ⟨-, h⟩
    · rw [h, h']
      exact Or.inl ⟨_, rfl, rfl, rfl, rfl, rfl⟩
    · rw [h]
      exact Or.inr rfl
  · rw [if_neg hdiverge, if_neg hdiverge]
    exact Or.inr rfl

/-- **swapping the sources selects the same text, the default tie-break apart** -/
theorem sourceQualityGate_neutral :
    (∀ left right : List Text,
      (selectBetterSource left right).2 = .default ∧
          selectBetterSource left right = (.right, .default) ∧
          selectBetterSource right left = (.right, .default) ∨
        (selectBetterSource right left).2 = (selectBetterSource left right).2 ∧
          ∀ leftText rightText : Text,
            (selectBetterSource right left).1.pick rightText leftText =
              (selectBetterSource left right).1.pick leftText rightText) ∧
      ∀ left right : Text, DecidedByDefault left right ∨
        (sourceQualityGate right left).map (fun gate => gate.winner.pick right left) =
          (sourceQualityGate left right).map fun gate => gate.winner.pick left right := by
  constructor
  · intro left right
    rcases selectBetterSource_swap left right with h | ⟨-, h⟩
    · exact Or.inl h
    · rw [h]
      exact Or.inr ⟨rfl, fun leftText rightText => GateWinner.pick_other _ _ _⟩
  · intro left right
    refine (sourceQualityGate_swap left right).imp id fun h => ?_
    rw [h, Option.map_map]
    congr 1
    funext gate
    exact GateWinner.pick_other gate.winner left right

end Voisu.Decision
