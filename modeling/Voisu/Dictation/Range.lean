import Mathlib
import Voisu.Dictation.Rewrite

/-!
# When the reading of a run stays within 32 bits

A run of number words is read in one pass, with the scales multiplying as they come.  The number that
it says is a sum over its small words: each counts as often as the scales behind it say.

* `committed`, `pending`     the number said up to the last `thousand` or `million`, and behind it;
* `Accepted`                 the order of the words that the reading allows;
* `InRange`                  no accepted part of a run says too much;
* `parseCardinalRunChecked_isSome_iff`   the checks of the reading pass exactly on such runs;
* `passedRuns`               the runs that the scanners hand over on a text;
* `passedRuns_unchecked_iff` none of them overflows exactly when all of them are in range.
-/

namespace Voisu.Dictation
open Lib
open Baseline (Token wordTokens)

/-! ## the number that a run says -/

/-- `thousand` and `million` -/
def isCommit (word : Text) : Bool := (scaleValue word).any (· ≠ 100)

def digitOf (word : Text) : Nat :=
  if (scaleValue word).isSome then 0 else (smallTokenValue word).getD 0

/-- the product of the scales up to the first `thousand` or `million` -/
def weight : List Text → Nat
  | [] => 1
  | word :: rest =>
    match scaleValue word with
    | none => weight rest
    | some scale => if scale = 100 then 100 * weight rest else scale

def committed : List Text → Nat
  | [] => 0
  | word :: rest =>
    (if rest.any isCommit then digitOf word * weight rest else 0) + committed rest

def pending : List Text → Nat
  | [] => 0
  | word :: rest =>
    (if rest.any isCommit then 0 else digitOf word * weight rest) + pending rest

/-- a scale at the head stands for one of its kind -/
def implied : List Text → List Text
  | [] => []
  | word :: rest => if (scaleValue word).isSome then "one".toList :: word :: rest else word :: rest

/-- the value of the last word, where it is a small one -/
def lastSmall (words : List Text) : Option Nat :=
  words.getLast?.bind fun word =>
    if (scaleValue word).isSome then none else smallTokenValue word

/-- the word may stand behind the words given -/
def AcceptsAfter (before : List Text) (word : Text) : Prop :=
  if (scaleValue word).isSome then before = [] ∨ pending (implied before) ≠ 0
  else (smallTokenValue word).isSome ∧
    ∀ p, lastSmall before = some p → isTens p = true ∧ digitOf word < 10

def Accepted (words : List Text) : Prop :=
  ∀ before word, before ++ [word] <+: words → AcceptsAfter before word

def Fits (words : List Text) : Prop :=
  committed (implied words) < 2 ^ 32 ∧ pending (implied words) < 2 ^ 32

/-- the accepted parts of a run fit, and all of it does when it is accepted -/
def InRange (run : List Text) : Prop :=
  (∀ part, part <+: run → Accepted part → Fits part) ∧
  (Accepted run → committed (implied run) + pending (implied run) < 2 ^ 32)

/-! ## one more word -/

section
variable {l : List Text} {word : Text}

theorem weight_snoc (l : List Text) (word : Text) :
    weight (l ++ [word]) = if l.any isCommit then weight l else weight l * weight [word] := by
  induction l with
  | nil => simp [weight]
  | cons a l ih =>
    cases ha : scaleValue a with
    | none =>
      have hc : isCommit a = false := by simp [isCommit, ha]
      simp only [List.cons_append, weight, ha, List.any_cons, hc, Bool.false_or]
      rw [ih]
      rfl
    | some scale =>
      by_cases h100 : scale = 100
      · have hc : isCommit a = false := by simp [isCommit, ha, h100]
        simp only [List.cons_append, weight, ha, if_pos h100, List.any_cons, hc, Bool.false_or]
        rw [ih]
        split_ifs
        · rfl
        · simp only [weight]
          ring
      · have hc : isCommit a = true := by simp [isCommit, ha, h100]
        simp only [List.cons_append, weight, ha, if_neg h100, List.any_cons, hc, Bool.true_or,
          if_true]

example : weight ["hundred".toList, "thousand".toList] = 100000 := by decide +kernel

theorem committed_snoc (hc : isCommit word = false) : committed (l ++ [word]) = committed l := by
  induction l with
  | nil => simp [committed]
  | cons a l ih =>
    simp only [List.cons_append, committed, List.any_append, List.any_cons, List.any_nil, hc,
      Bool.or_false, ih]
    cases hl : l.any isCommit
    · rfl
    · rw [weight_snoc, hl]
      rfl

theorem pending_snoc (hc : isCommit word = false) :
    pending (l ++ [word]) = pending l * weight [word] + digitOf word := by
  induction l with
  | nil => simp [pending, weight]
  | cons a l ih =>
    simp only [List.cons_append, pending, List.any_append, List.any_cons, List.any_nil, hc,
      Bool.or_false, ih]
    cases hl : l.any isCommit
    · rw [weight_snoc, hl]
      simp only [Bool.false_eq_true, if_false]
      ring
    · simp

theorem pending_snoc_commit (hc : isCommit word = true) : pending (l ++ [word]) = 0 := by
  have hdigit : digitOf word = 0 := by
    unfold isCommit at hc
    cases hs : scaleValue word with
    | none => rw [hs] at hc; cases hc
    | some scale => simp [digitOf, hs]
  induction l with
  | nil => simp [pending, hdigit]
  | cons a l ih =>
    simp only [List.cons_append, pending, List.any_append, List.any_cons, hc, Bool.true_or,
      Bool.or_true, if_true, ih]

theorem committed_snoc_commit (hc : isCommit word = true) :
    committed (l ++ [word]) = committed l + pending l * weight [word] := by
  have hdigit : digitOf word = 0 := by
    unfold isCommit at hc
    cases hs : scaleValue word with
    | none => rw [hs] at hc; cases hc
    | some scale => simp [digitOf, hs]
  induction l with
  | nil => simp [committed, pending]
  | cons a l ih =>
    simp only [List.cons_append, committed, pending, List.any_append, List.any_cons, hc,
      Bool.true_or, Bool.or_true, if_true, ih]
    cases hl : l.any isCommit
    · rw [weight_snoc, hl]
      simp only [Bool.false_eq_true, if_false]
      ring
    · rw [weight_snoc, hl]
      simp only [if_true]
      ring

theorem isCommit_of_none (hs : scaleValue word = none) : isCommit word = false := by
  simp [isCommit, hs]

theorem implied_snoc (hl : l ≠ []) (word : Text) : implied (l ++ [word]) = implied l ++ [word] := by
  cases l with
  | nil => exact absurd rfl hl
  | cons a l =>
    simp only [List.cons_append, implied]
    split_ifs <;> rfl

example : committed (implied ["thousand".toList, "two".toList, "million".toList]) = 2001000 := by
  decide +kernel

theorem lastSmall_snoc (l : List Text) (word : Text) :
    lastSmall (l ++ [word]) = if (scaleValue word).isSome then none else smallTokenValue word := by
  simp [lastSmall]

theorem accepted_nil : Accepted [] := by
  intro before word h
  simp at h

theorem accepted_snoc : Accepted (l ++ [word]) ↔ Accepted l ∧ AcceptsAfter l word := by
  constructor
  · intro h
    exact ⟨fun before w hw => h before w (hw.trans (List.prefix_append _ _)),
      h l word (List.prefix_rfl)⟩
  · rintro ⟨hl, hw⟩ before w h
    rcases List.prefix_concat_iff.mp h with he | h
    · obtain ⟨rfl, hw'⟩ := List.append_inj' he rfl
      obtain rfl := List.singleton_injective hw'
      exact hw
    · exact hl before w h

end

/-! ## the reading with checks -/

/-- where the reading stands behind some words that it has accepted -/
def stateAfter (words : List Text) : RunState :=
  ⟨committed (implied words), pending (implied words), words.isEmpty, lastSmall words⟩

theorem stateAfter_nil : stateAfter [] = RunState.start := rfl

theorem fits_nil : Fits [] := ⟨Nat.two_pow_pos 32, Nat.two_pow_pos 32⟩

theorem isCommit_iff {word : Text} {scale : Nat} (hs : scaleValue word = some scale) :
    isCommit word = decide (scale ≠ 100) := by
  simp [isCommit, hs]

theorem weight_scale {word : Text} {scale : Nat} (hs : scaleValue word = some scale) :
    weight [word] = scale := by
  simp only [weight, hs]
  split_ifs with h
  · omega
  · rfl

theorem runWord_rejected {l : List Text} {word : Text} (h : ¬ AcceptsAfter l word) :
    runWord U32.checked (stateAfter l) word = some none := by
  unfold AcceptsAfter at h
  cases hs : scaleValue word with
  | some scale =>
    simp only [hs, Option.isSome_some, if_true, not_or, not_not] at h
    have hstuck : (stateAfter l).current = 0 ∧ (stateAfter l).first = false :=
      ⟨h.2, by simpa [stateAfter] using h.1⟩
    by_cases h100 : scale = 100
    · rw [runWord_hundred (h100 ▸ hs), if_pos hstuck]
      rfl
    · rw [runWord_commit hs h100, if_pos hstuck]
      rfl
  | none =>
    simp only [hs, Option.isSome_none, Bool.false_eq_true, if_false, not_and] at h
    cases hv : smallTokenValue word with
    | none => rw [runWord_other hs hv]; rfl
    | some v =>
      have hreject : (stateAfter l).prevSmall.any (fun p => !(isTens p && v < 10)) = true := by
        have hdigit : digitOf word = v := by simp [digitOf, hs, hv]
        rw [hv, hdigit] at h
        by_contra hno
        refine h rfl fun p hp => ?_
        simpa [stateAfter, hp] using hno
      rw [runWord_small hs hv, if_pos hreject]
      rfl

/-- what a scale multiplies, once it is accepted -/
theorem implied_scale {l : List Text} {word : Text} {scale : Nat}
    (hs : scaleValue word = some scale) (h : AcceptsAfter l word) :
    committed (implied (l ++ [word])) =
      (if scale = 100 then committed (implied l)
        else committed (implied l) + max (pending (implied l)) 1 * scale) ∧
    pending (implied (l ++ [word])) =
      (if scale = 100 then max (pending (implied l)) 1 * 100 else 0) := by
  have hdigit : digitOf word = 0 := by simp [digitOf, hs]
  by_cases hl : l = []
  · subst hl
    have hone : implied ([] ++ [word]) = ["one".toList] ++ [word] := by
      simp [implied, hs]
    have hpending : pending ["one".toList] = 1 := by decide
    have hcommitted : committed ["one".toList] = 0 := by decide
    rw [hone]
    by_cases h100 : scale = 100
    · have hc : isCommit word = false := by simp [isCommit_iff hs, h100]
      rw [committed_snoc hc, pending_snoc hc, weight_scale hs, hdigit, hpending, hcommitted,
        if_pos h100, if_pos h100, h100]
      exact ⟨rfl, rfl⟩
    · have hc : isCommit word = true := by simp [isCommit_iff hs, h100]
      rw [committed_snoc_commit hc, pending_snoc_commit hc, weight_scale hs, hpending, hcommitted,
        if_neg h100, if_neg h100]
      exact ⟨rfl, rfl⟩
  · have hp : pending (implied l) ≠ 0 := by
      have h' : l = [] ∨ pending (implied l) ≠ 0 := by
        simpa [AcceptsAfter, hs] using h
      exact h'.resolve_left hl
    have hmax : max (pending (implied l)) 1 = pending (implied l) := by omega
    rw [implied_snoc hl, hmax]
    by_cases h100 : scale = 100
    · have hc : isCommit word = false := by simp [isCommit_iff hs, h100]
      rw [committed_snoc hc, pending_snoc hc, weight_scale hs, hdigit, if_pos h100, if_pos h100,
        h100]
      exact ⟨rfl, rfl⟩
    · have hc : isCommit word = true := by simp [isCommit_iff hs, h100]
      rw [committed_snoc_commit hc, pending_snoc_commit hc, weight_scale hs, if_neg h100,
        if_neg h100]
      exact ⟨rfl, rfl⟩

theorem implied_small {l : List Text} {word : Text} (hs : scaleValue word = none) :
    committed (implied (l ++ [word])) = committed (implied l) ∧
    pending (implied (l ++ [word])) = pending (implied l) + digitOf word := by
  have hc : isCommit word = false := isCommit_of_none hs
  by_cases hl : l = []
  · subst hl
    have hw : implied ([] ++ [word]) = [] ++ [word] := by simp [implied, hs]
    rw [hw, committed_snoc hc, pending_snoc hc]
    exact ⟨rfl, by simp [implied, pending]⟩
  · have hweight : weight [word] = 1 := by simp [weight, hs]
    rw [implied_snoc hl, committed_snoc hc, pending_snoc hc, hweight, Nat.mul_one]
    exact ⟨rfl, rfl⟩

/-- an accepted word is read, unless it says too much -/
theorem runWord_accepted {l : List Text} {word : Text} (hl : Fits l) (h : AcceptsAfter l word) :
    (Fits (l ++ [word]) ∧
      runWord U32.checked (stateAfter l) word = some (some (stateAfter (l ++ [word])))) ∨
    (¬ Fits (l ++ [word]) ∧ runWord U32.checked (stateAfter l) word = none) := by
  have hnonempty : (l ++ [word]).isEmpty = false := by simp
  cases hs : scaleValue word with
  | some scale =>
    obtain ⟨hcommitted, hpending⟩ := implied_scale hs h
    have hlast : lastSmall (l ++ [word]) = none := by simp [lastSmall_snoc, hs]
    have hgo : ¬ ((stateAfter l).current = 0 ∧ (stateAfter l).first = false) := by
      have h' : l = [] ∨ pending (implied l) ≠ 0 := by simpa [AcceptsAfter, hs] using h
      rintro ⟨hzero, hfirst⟩
      rcases h' with rfl | h'
      · cases hfirst
      · exact h' hzero
    by_cases h100 : scale = 100
    · rw [if_pos h100] at hcommitted hpending
      rw [runWord_hundred (h100 ▸ hs), if_neg hgo]
      have hmul : U32.checked.mul (max (stateAfter l).current 1) 100 =
          U32.fit (pending (implied (l ++ [word]))) := by rw [hpending]; rfl
      rw [hmul]
      by_cases hfit : pending (implied (l ++ [word])) < 2 ^ 32
      · left
        refine ⟨⟨by rw [hcommitted]; exact hl.1, hfit⟩, ?_⟩
        rw [U32.fit_eq_some.mpr ⟨hfit, rfl⟩]
        simp only [stateAfter, hcommitted, hlast, hnonempty]
        rfl
      · right
        refine ⟨fun hf => hfit hf.2, ?_⟩
        rw [U32.fit_eq_none.mpr (by omega)]
        rfl
    · rw [if_neg h100] at hcommitted hpending
      rw [runWord_commit hs h100, if_neg hgo]
      have hmul : U32.checked.mul (max (stateAfter l).current 1) scale =
          U32.fit (max (pending (implied l)) 1 * scale) := rfl
      rw [hmul]
      by_cases hfit : committed (implied (l ++ [word])) < 2 ^ 32
      · left
        have hscaled : max (pending (implied l)) 1 * scale < 2 ^ 32 := by omega
        refine ⟨⟨hfit, by rw [hpending]; exact Nat.two_pow_pos 32⟩, ?_⟩
        rw [U32.fit_eq_some.mpr ⟨hscaled, rfl⟩]
        show U32.fit (committed (implied l) + max (pending (implied l)) 1 * scale) >>= _ = _
        rw [← hcommitted, U32.fit_eq_some.mpr ⟨hfit, rfl⟩]
        simp only [stateAfter, hpending, hlast, hnonempty]
        rfl
      · right
        refine ⟨fun hf => hfit hf.1, ?_⟩
        by_cases hscaled : max (pending (implied l)) 1 * scale < 2 ^ 32
        · rw [U32.fit_eq_some.mpr ⟨hscaled, rfl⟩]
          show U32.fit (committed (implied l) + max (pending (implied l)) 1 * scale) >>= _ = _
          rw [← hcommitted, U32.fit_eq_none.mpr (by omega)]
          rfl
        · rw [U32.fit_eq_none.mpr (by omega)]
          rfl
  | none =>
    obtain ⟨hcommitted, hpending⟩ := implied_small (l := l) hs
    obtain ⟨hsome, hafter⟩ : (smallTokenValue word).isSome ∧
        ∀ p, lastSmall l = some p → isTens p = true ∧ digitOf word < 10 := by
      simpa [AcceptsAfter, hs] using h
    obtain ⟨v, hv⟩ := Option.isSome_iff_exists.mp hsome
    have hdigit : digitOf word = v := by simp [digitOf, hs, hv]
    have hlast : lastSmall (l ++ [word]) = some v := by simp [lastSmall_snoc, hs, hv]
    have hgo : ¬ (stateAfter l).prevSmall.any (fun p => !(isTens p && v < 10)) = true := by
      intro hany
      obtain ⟨p, hp, hno⟩ := Option.any_eq_true _ _ |>.mp hany
      have := hafter p hp
      simp [this.1, ← hdigit, this.2] at hno
    rw [runWord_small hs hv, if_neg hgo]
    have hadd : U32.checked.add (stateAfter l).current v =
        U32.fit (pending (implied (l ++ [word]))) := by rw [hpending, hdigit]; rfl
    rw [hadd]
    by_cases hfit : pending (implied (l ++ [word])) < 2 ^ 32
    · left
      refine ⟨⟨by rw [hcommitted]; exact hl.1, hfit⟩, ?_⟩
      rw [U32.fit_eq_some.mpr ⟨hfit, rfl⟩]
      simp only [stateAfter, hcommitted, hlast, hnonempty]
      rfl
    · right
      refine ⟨fun hf => hfit hf.2, ?_⟩
      rw [U32.fit_eq_none.mpr (by omega)]
      rfl

/-- the rest of a run, behind some accepted words -/
def InRangeFrom (l rest : List Text) : Prop :=
  (∀ part, part <+: rest → Accepted (l ++ part) → Fits (l ++ part)) ∧
  (Accepted (l ++ rest) → committed (implied (l ++ rest)) + pending (implied (l ++ rest)) < 2 ^ 32)

theorem inRangeFrom_cons {l rest : List Text} {word : Text} (hl : Fits l) :
    InRangeFrom l (word :: rest) ↔ InRangeFrom (l ++ [word]) rest := by
  unfold InRangeFrom
  rw [show l ++ word :: rest = l ++ [word] ++ rest by simp]
  refine and_congr_left fun _ => ⟨fun h part hp ha => ?_, fun h part hp ha => ?_⟩
  · have := h (word :: part) (by simpa using hp)
    simp only [List.append_assoc, List.cons_append, List.nil_append] at this ha ⊢
    exact this ha
  · cases part with
    | nil => simpa using hl
    | cons a part =>
      obtain ⟨rfl, hp'⟩ := List.cons_prefix_cons.mp hp
      have := h part hp'
      simp only [List.append_assoc, List.cons_append, List.nil_append] at this
      exact this ha

theorem accepted_of_append {l part : List Text} (h : Accepted (l ++ part)) : Accepted l :=
  fun before word hw => h before word (hw.trans (List.prefix_append _ _))

/-- **the checks pass exactly on the runs in range** -/
theorem parseRun_checked (l rest : List Text) (hl : Fits l) (ha : Accepted l) :
    (parseRun U32.checked (stateAfter l) rest).isSome ↔ InRangeFrom l rest := by
  induction rest generalizing l with
  | nil =>
    have hparse : parseRun U32.checked (stateAfter l) [] =
        (U32.fit (committed (implied l) + pending (implied l))).map some := by
      rw [parseRun]
      show (U32.fit (committed (implied l) + pending (implied l)) >>= fun value =>
        pure (some value)) = _
      cases U32.fit (committed (implied l) + pending (implied l)) <;> rfl
    rw [hparse, Option.isSome_map]
    simp only [InRangeFrom, List.append_nil, List.prefix_nil, forall_eq, U32.fit]
    split_ifs with h
    · exact ⟨fun _ => ⟨fun _ => hl, fun _ => h⟩, fun _ => rfl⟩
    · exact ⟨nofun, fun hr => absurd (hr.2 ha) h⟩
  | cons word rest ih =>
    rw [inRangeFrom_cons hl]
    by_cases hw : AcceptsAfter l word
    · rcases runWord_accepted hl hw with ⟨hfit, hrun⟩ | ⟨hfit, hrun⟩
      · rw [parseRun, hrun]
        exact ih (l ++ [word]) hfit (accepted_snoc.mpr ⟨ha, hw⟩)
      · rw [parseRun, hrun]
        refine ⟨fun h => absurd h (by simp), fun h => absurd ?_ hfit⟩
        simpa using h.1 [] List.nil_prefix (by simpa using accepted_snoc.mpr ⟨ha, hw⟩)
    · rw [parseRun, runWord_rejected hw]
      have hno : ∀ part, ¬ Accepted (l ++ [word] ++ part) := fun part h =>
        hw (accepted_snoc.mp (accepted_of_append h)).2
      exact ⟨fun _ => ⟨fun part _ h => absurd h (hno part), fun h => absurd h (hno rest)⟩,
        fun _ => rfl⟩

theorem parseCardinalRunChecked_isSome_iff (run : List Text) :
    (parseCardinalRunChecked run).isSome ↔ InRange run := by
  have h := parseRun_checked [] run fits_nil accepted_nil
  rw [stateAfter_nil] at h
  exact h

/-! ## both builds -/

/-- where the checks pass, the wrapping build reads the same -/
theorem runWord_wrapping {st : RunState} {word : Text} {r : Option RunState}
    (h : runWord U32.checked st word = some r) : Id.run (runWord U32.wrapping st word) = r := by
  cases hs : scaleValue word with
  | some scale =>
    by_cases h100 : scale = 100
    · rw [runWord_hundred (h100 ▸ hs)] at h ⊢
      split_ifs at h ⊢ with hstuck
      · exact Option.some.inj h
      · obtain ⟨current, hmul, hr⟩ := Option.bind_eq_some_iff.mp h
        obtain rfl := Option.some.inj hr
        show some _ = some _
        rw [(U32.mul_checked hmul).2]
    · rw [runWord_commit hs h100] at h ⊢
      split_ifs at h ⊢ with hstuck
      · exact Option.some.inj h
      · obtain ⟨scaled, hmul, h⟩ := Option.bind_eq_some_iff.mp h
        obtain ⟨total, hadd, hr⟩ := Option.bind_eq_some_iff.mp h
        obtain rfl := Option.some.inj hr
        show some (RunState.mk (U32.wrapping.add st.total
          (U32.wrapping.mul (max st.current 1) scale)) 0 false none) = some _
        rw [(U32.mul_checked hmul).2, (U32.add_checked hadd).2]
  | none =>
    cases hv : smallTokenValue word with
    | none =>
      rw [runWord_other hs hv] at h ⊢
      exact Option.some.inj h
    | some v =>
      rw [runWord_small hs hv] at h ⊢
      split_ifs at h ⊢ with hstuck
      · exact Option.some.inj h
      · obtain ⟨current, hadd, hr⟩ := Option.bind_eq_some_iff.mp h
        obtain rfl := Option.some.inj hr
        show some _ = some _
        rw [(U32.add_checked hadd).2]

theorem parseRun_wrapping {st : RunState} {rest : List Text} {value : Option Nat}
    (h : parseRun U32.checked st rest = some value) :
    Id.run (parseRun U32.wrapping st rest) = value := by
  induction rest generalizing st with
  | nil =>
    obtain ⟨sum, hadd, hr⟩ := Option.bind_eq_some_iff.mp h
    obtain rfl := Option.some.inj hr
    show some (U32.wrapping.add st.total st.current) = some sum
    rw [(U32.add_checked hadd).2]
  | cons word rest ih =>
    obtain ⟨r, hword, h⟩ := Option.bind_eq_some_iff.mp h
    have hrun : runWord U32.wrapping st word = r := runWord_wrapping hword
    rw [parseRun, hrun]
    cases r with
    | none => exact Option.some.inj h
    | some st' => exact ih h

/-- **a reading that passes the checks is exact in both builds** -/
theorem parseCardinalRun_of_checked {run : List Text} {value : Option Nat}
    (h : parseCardinalRunChecked run = some value) : parseCardinalRun run = value :=
  parseRun_wrapping h

theorem parseRun_exact {l rest : List Text} {v : Nat} (hl : Fits l) (ha : Accepted l)
    (h : parseRun U32.checked (stateAfter l) rest = some (some v)) :
    Accepted (l ++ rest) ∧ v = committed (implied (l ++ rest)) + pending (implied (l ++ rest)) := by
  induction rest generalizing l with
  | nil =>
    obtain ⟨sum, hadd, hr⟩ := Option.bind_eq_some_iff.mp h
    obtain rfl := Option.some.inj (Option.some.inj hr)
    rw [List.append_nil]
    exact ⟨ha, (U32.add_checked hadd).1⟩
  | cons word rest ih =>
    rw [show l ++ word :: rest = l ++ [word] ++ rest by simp]
    by_cases hw : AcceptsAfter l word
    · rcases runWord_accepted hl hw with ⟨hfit, hrun⟩ | ⟨-, hrun⟩
      · rw [parseRun, hrun] at h
        exact ih hfit (accepted_snoc.mpr ⟨ha, hw⟩) h
      · rw [parseRun, hrun] at h
        cases h
    · rw [parseRun, runWord_rejected hw] at h
      cases h

theorem parseCardinalRunChecked_exact {run : List Text} {v : Nat}
    (h : parseCardinalRunChecked run = some (some v)) :
    Accepted run ∧ v = committed (implied run) + pending (implied run) :=
  parseRun_exact (l := []) fits_nil accepted_nil h

/-! ## the runs of a text -/

section
variable (tokens : List Token) (masks : Masks) (i : Nat)

/-- the run that `tryDecimalSpan` hands over -/
def decimalRun : List (List Text) :=
  ((decimalShape tokens i).toList.map DecimalShape.words).filter fun words => !words.isEmpty

/-- the run that `tryCardinalRun` hands over -/
def scaleRun : List (List Text) :=
  let j := cardinalStop tokens i
  if j = i || isTimeMarkerAt tokens j || (tryYear tokens masks i).isSome then []
  else (scaleShape tokens i).toList

def currencyRun : List (List Text) := (currencyShape tokens i).toList.map Prod.snd

/-- the runs that the scanners hand over at a position, in order -/
def runsAt : List (List Text) :=
  if (tryEmailSpan tokens masks i).isSome || numberishBefore tokens i
      || (tryTimeSpan tokens masks i).isSome then []
  else currencyRun tokens i ++
    if (tryCurrencySpan tokens masks i).isSome then []
    else decimalRun tokens i ++
      if (tryDecimalSpan tokens masks i).isSome then [] else scaleRun tokens masks i

end

def passedRuns (text : Text) : List (List Text) :=
  (grammarVisits text).flatMap fun visit => runsAt (wordTokens text) (masksOf (wordTokens text)) visit.1

/-- no operation overflows, so both builds read the exact number -/
def ReadsExactly (run : List Text) : Prop :=
  ∃ value, parseCardinalRunChecked run = some value ∧ parseCardinalRun run = value ∧
    ∀ v, value = some v → v = committed (implied run) + pending (implied run)

theorem readsExactly_iff (run : List Text) : ReadsExactly run ↔ InRange run := by
  rw [← parseCardinalRunChecked_isSome_iff, Option.isSome_iff_exists]
  constructor
  · rintro ⟨value, h, -⟩
    exact ⟨value, h⟩
  · rintro ⟨value, h⟩
    refine ⟨value, h, parseCardinalRun_of_checked h, ?_⟩
    rintro v rfl
    exact (parseCardinalRunChecked_exact h).2

/-- **the runs of a text are read without overflow exactly when they are in range** -/
theorem passedRuns_exact_iff (text : Text) :
    (∀ run ∈ passedRuns text, ReadsExactly run) ↔ ∀ run ∈ passedRuns text, InRange run :=
  forall₂_congr fun run _ => readsExactly_iff run

def hundreds : Text := "one hundred hundred hundred hundred hundred".toList

/-- a text whose run of number words overflows -/
theorem passedRuns_hundreds : ¬ ∀ run ∈ passedRuns hundreds, ReadsExactly run := by
  intro h
  have hmem : splitWhitespace hundreds ∈ passedRuns hundreds := by decide +kernel
  obtain ⟨value, hvalue, -⟩ := h _ hmem
  have hpanic : parseCardinalRunChecked (splitWhitespace hundreds) = none := by decide +kernel
  rw [hpanic] at hvalue
  cases hvalue

end Voisu.Dictation
